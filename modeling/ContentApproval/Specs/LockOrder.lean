import ContentApproval.Specs.Endpoints
import ContentApproval.Specs.Termination
import ContentApproval.Transactions.Deadlock

/-!
# The order in which calls write

A call inserts or updates its request before its reviewers, then writes the audit entry, the
event and last the row of the ledger (`Write.rank`). Reviewer rows have all the same rank, but
nobody waits for one: who holds it also holds its request, whose id can be held once only.
`request_inOrder` proves this order for every call, whatever ids it is given and whatever the
database replies; `lockOrder` is the order as one of the library.
-/

namespace ContentApproval

open Transactions SqlApprovalRequestRepository AsyncSession ApprovalService Idempotency
  AuthDependencies

/-! ## Ranks -/

/-- The place of a table in the order of the inserts. -/
def NewRow.rank : NewRow → Nat
  | approvalRequest _ => 0
  | reviewer _ => 1
  | auditLogEntry _ => 2
  | outboxEvent _ => 3
  | idempotencyKey _ => 4

def Write.rank : Write → Nat
  | insert row => row.rank
  | update _ _ _ => 0

@[simp] theorem Write.rank_insert (row : NewRow) : (Write.insert row).rank = row.rank := rfl

/-- The transaction has inserted the request with this id. -/
def HoldsRequest (δ : List Write) (id : String) : Prop :=
  ∃ row, Write.insert (.approvalRequest row) ∈ δ ∧ row.id = id

theorem HoldsRequest.append {δ : List Write} {id : String} (h : HoldsRequest δ id)
    (δ' : List Write) : HoldsRequest (δ ++ δ') id := by
  obtain ⟨row, hrow, hid⟩ := h
  exact ⟨row, List.mem_append_left _ hrow, hid⟩

/-- A reviewer is inserted after its request, every other row after rows of lower rank only,
and an update is the first write. -/
def Statement.InOrder (δ : List Write) : Statement → Prop
  | .insert (.reviewer r) => HoldsRequest δ r.approvalRequestId
  | .insert row => ∀ x ∈ δ, x.rank < row.rank
  | .updatePending _ _ _ => δ = []
  | _ => True

theorem Statement.inOrder_insert {δ : List Write} {row : NewRow} (hrow : ∀ r, row ≠ .reviewer r)
    (h : ∀ x ∈ δ, x.rank < row.rank) : Statement.InOrder δ (.insert row) := by
  cases row with
  | reviewer r => exact absurd rfl (hrow r)
  | _ => exact h

/-- The reviewers that a transaction holds are reviewers of a request that it holds. -/
def ReviewersHeld (δ : List Write) : Prop :=
  ∀ r, Write.insert (.reviewer r) ∈ δ → HoldsRequest δ r.approvalRequestId

/-- The order in which the calls write. -/
def lockOrder : LockOrder approvalDb where
  rank := Write.rank
  top := 4
  rank_le x := by
    cases x with
    | insert row => cases row <;> simp [NewRow.rank]
    | update ws id values => simp [Write.rank]
  May := Statement.InOrder
  Closed := ReviewersHeld
  closed_nil := by
    intro r hr
    cases hr
  closed_exec := by
    intro δ s σ hδ hs r hr
    rcases List.mem_append.mp hr with hr | hr
    · exact (hδ r hr).append _
    · cases s with
      | insert row =>
        have hrow : row = .reviewer r := by
          change _ ∈ (Store.exec (.insert row) σ).2 at hr
          simp only [Store.exec] at hr
          split_ifs at hr
          · simpa using (List.mem_singleton.mp hr).symm
          · cases hr
        subst hrow
        exact HoldsRequest.append hs _
      | updatePending ws id values =>
        change _ ∈ (Store.exec (.updatePending ws id values) σ).2 at hr
        simp only [Store.exec] at hr
        split_ifs at hr
        · cases hr
        · simp at hr
      | _ => cases hr
  climbs := by
    intro δ δ' s x hs hwait hclosed hx hap y hy
    cases s with
    | updatePending ws id values =>
      rw [show δ = [] from hs] at hy
      cases hy
    | insert row =>
      cases x with
      | update ws id values => exact hwait.elim
      | insert row' =>
        have hkey : row.primaryKey = row'.primaryKey := hwait
        cases row with
        | reviewer r =>
          -- both transactions would hold the request of the reviewer
          cases row' with
          | reviewer r' =>
            obtain ⟨q, hq, hid⟩ := hs
            obtain ⟨q', hq', hid'⟩ := hclosed r' hx
            have hsame : r.approvalRequestId = r'.approvalRequestId := by
              simp only [NewRow.primaryKey, PrimaryKey.reviewer.injEq] at hkey
              exact hkey.2.1
            refine absurd ?_ (hap _ hq _ hq')
            change PrimaryKey.approvalRequest q.id = .approvalRequest q'.id
            rw [hid, hid', hsame]
          | _ => cases hkey
        | _ =>
          cases row' with
          | reviewer r' => cases hkey
          | _ => first | cases hkey | exact hs y hy
    | _ => exact hwait.elim

/-! ## Inserting in order -/

section Order

variable {α : Type} {δ : List Write} {P : List Write → α → Prop}

/-- The statement is sent in its place, and the program goes on in order. -/
abbrev InOrder (p : Prog Reply Exn α) (P : List Write → α → Prop) (δ : List Write) : Prop :=
  p.Holding approvalDb Statement.InOrder P δ

theorem InOrder.insert {row : NewRow} {k : Bool → Prog Reply Exn α}
    (hrow : Statement.InOrder δ (.insert row)) (hok : InOrder (k true) P (δ ++ [.insert row]))
    (hno : InOrder (k false) P δ) : InOrder (.exec (.insert row) k) P δ := by
  refine ⟨hrow, fun σ => ?_⟩
  change InOrder (k (Store.exec (.insert row) σ).1) P (δ ++ (Store.exec (.insert row) σ).2)
  simp only [Store.exec]
  split_ifs
  · exact hok
  · rw [List.append_nil]
    exact hno

theorem InOrder.log {record : LogRecord} {k : Unit → Prog Reply Exn α} (h : InOrder (k ()) P δ) :
    InOrder (.exec (.log record) k) P δ :=
  Prog.Holding.silent (fun _ => rfl) trivial fun _ => h

theorem InOrder.select {s : Statement} {k : Reply s → Prog Reply Exn α} (hs : s.IsSelect)
    (h : ∀ r, InOrder (k r) P δ) : InOrder (.exec s k) P δ := by
  refine Prog.Holding.silent hs.reads ?_ h
  cases s <;> trivial

/-- Rows that can be inserted one after the other on top of `δ`, none of them a reviewer. -/
structure Ascends (δ : List Write) (rows : List NewRow) : Prop where
  above : ∀ x ∈ δ, ∀ row ∈ rows, x.rank < row.rank
  sorted : rows.Pairwise (fun r r' => r.rank < r'.rank)
  late : ∀ row ∈ rows, 2 ≤ row.rank

theorem Ascends.nil (δ : List Write) : Ascends δ [] := ⟨by simp, .nil, by simp⟩

theorem insertAll_inOrder {rows : List NewRow} (h : Ascends δ rows) :
    InOrder (insertAll rows) (fun _ _ => True) δ := by
  induction rows generalizing δ with
  | nil => trivial
  | cons row rows ih =>
    rw [insertAll_cons]
    have hsorted := List.pairwise_cons.mp h.sorted
    refine InOrder.insert (Statement.inOrder_insert ?_ fun x hx => h.above x hx row (by simp))
      (ih ⟨?_, hsorted.2, fun r hr => h.late r (List.mem_cons_of_mem _ hr)⟩) trivial
    · rintro r rfl
      have := h.late _ List.mem_cons_self
      simp [NewRow.rank] at this
    · intro x hx r hr
      rcases List.mem_append.mp hx with hx | hx
      · exact h.above x hx r (List.mem_cons_of_mem _ hr)
      · rw [List.mem_singleton.mp hx]
        exact hsorted.1 r hr

/-- The reviewers of a request that the transaction has inserted. -/
theorem insertReviewers_inOrder {rows : List ApprovalRequestReviewer}
    (h : ∀ r ∈ rows, HoldsRequest δ r.approvalRequestId) :
    InOrder (insertAll (rows.map .reviewer))
      (fun δ' _ => δ' = δ ++ rows.map (fun r => .insert (.reviewer r))) δ := by
  induction rows generalizing δ with
  | nil => exact (List.append_nil δ).symm
  | cons r rows ih =>
    rw [List.map_cons, insertAll_cons]
    refine InOrder.insert (h r List.mem_cons_self) ?_ trivial
    refine (ih fun r' hr' => (h r' (List.mem_cons_of_mem _ hr')).append _).mono ?_
    rintro δ' _ rfl
    simp

/-! ## The service -/

/-- Where a handler leaves its transaction: only the rows of the trail and of the ledger are
still to be inserted. -/
structure Queued (δ : List Write) (rows : List NewRow) : Prop where
  ascends : Ascends δ rows
  written : ∀ x ∈ δ, x.rank < 4
  unkeyed : ∀ row ∈ rows, row.rank < 4

theorem Queued.nil : Queued [] [] := ⟨.nil _, by simp, by simp⟩

/-- The two rows of the trail, after writes to the first two tables. -/
theorem Queued.trail {entry : AuditLogEntry} {event : OutboxEvent} (h : ∀ x ∈ δ, x.rank ≤ 1) :
    Queued δ [.auditLogEntry entry, .outboxEvent event] where
  ascends := by
    refine ⟨fun x hx row hrow => ?_, by simp [NewRow.rank], by simp [NewRow.rank]⟩
    have := h x hx
    rcases List.mem_cons.mp hrow with rfl | hrow
    · simp only [NewRow.rank]
      omega
    · rw [List.mem_singleton.mp hrow]
      simp only [NewRow.rank]
      omega
  written x hx := by
    have := h x hx
    omega
  unkeyed := by simp [NewRow.rank]

/-- The row of the ledger comes last. -/
theorem Queued.keyed {rows : List NewRow} (h : Queued δ rows) (key : IdempotencyKey) :
    Ascends δ (rows ++ [.idempotencyKey key]) where
  above x hx row hrow := by
    rcases List.mem_append.mp hrow with hrow | hrow
    · exact h.ascends.above x hx row hrow
    · rw [List.mem_singleton.mp hrow]
      exact h.written x hx
  sorted := by
    refine List.pairwise_append.mpr ⟨h.ascends.sorted, List.pairwise_singleton _ _, ?_⟩
    intro row hrow row' hrow'
    rw [List.mem_singleton.mp hrow']
    exact h.unkeyed row hrow
  late row hrow := by
    rcases List.mem_append.mp hrow with hrow | hrow
    · exact h.ascends.late row hrow
    · rw [List.mem_singleton.mp hrow]
      simp [NewRow.rank]

theorem createRequest_inOrder (c : Creation) :
    InOrder (createRequest c.env c.workspaceId c.actorUserId c.payload.sourceType
      c.payload.sourceId c.payload.title c.payload.description c.payload.reviewerUserIds [])
      (fun δ p => Queued δ p.2) [] := by
  rw [createRequest_eq, Creation.firstRows, insertAll_cons]
  refine InOrder.insert (by simp [Statement.InOrder]) ?_ trivial
  refine (insertReviewers_inOrder fun r hr => ?_).bind fun δ _ hδ => InOrder.log ?_
  · obtain ⟨id, -, rfl⟩ := List.mem_map.mp hr
    exact ⟨c.row, by simp, rfl⟩
  · refine Queued.trail fun x hx => ?_
    rw [hδ] at hx
    rcases List.mem_append.mp hx with hx | hx
    · rw [List.mem_singleton.mp hx]
      simp [NewRow.rank]
    · obtain ⟨r, -, rfl⟩ := List.mem_map.mp hx
      simp [NewRow.rank]

theorem get_inOrder (env : Env) (site : Nat) (ws id : String) :
    InOrder (get env site ws id []) (fun δ' p => δ' = δ ∧ p.2 = []) δ := by
  rw [get_eq]
  refine InOrder.select trivial fun row? => ?_
  change Option ApprovalRequestRow at row?
  cases row? with
  | none => exact ⟨rfl, rfl⟩
  | some row => exact InOrder.select trivial fun _ => ⟨rfl, rfl⟩

theorem transition_inOrder (env : Env) (ws id : String) (status : ApprovalStatus) (actor : String)
    (comment reason : Option String) :
    InOrder (transition env ws id status actor comment reason [])
      (fun δ p => (∀ x ∈ δ, x.rank ≤ 1) ∧ p.2 = []) [] := by
  rw [transition_eq]
  refine ⟨rfl, fun σ => ?_⟩
  have hrank : ∀ x ∈ (Store.exec (.updatePending ws id
      ⟨status, actor, env.decidedAt, comment, reason, env.decidedAt⟩) σ).2, x.rank ≤ 1 := by
    intro x hx
    simp only [Store.exec] at hx
    split_ifs at hx
    · cases hx
    · rw [List.mem_singleton.mp hx]
      simp [Write.rank]
  rw [List.nil_append]
  change InOrder (afterUpdate env ws id _) _ (Store.exec (.updatePending ws id
    ⟨status, actor, env.decidedAt, comment, reason, env.decidedAt⟩) σ).2
  unfold afterUpdate
  split
  · refine (get_inOrder env 1 ws id).bind fun δ' p hp => ?_
    obtain ⟨_ | _, _⟩ := p
    · trivial
    · exact ⟨hp.1 ▸ hrank, hp.2⟩
  · refine (get_inOrder env 2 ws id).bind fun δ' p _ => ?_
    obtain ⟨_ | _, _⟩ := p <;> trivial

theorem requireEntitled_inOrder (id : String) (request : ApprovalRequest) (actor : String)
    (d : Decision) (pending : List NewRow) :
    InOrder (requireEntitled id request actor d pending) (fun δ' p => δ' = δ ∧ p.2 = pending) δ := by
  have hend := requireEntitled_ends id request actor d pending
  cases hcheck : requireEntitled id request actor d pending with
  | ret p =>
    rw [hcheck] at hend
    exact ⟨rfl, hend⟩
  | throw e => trivial
  | exec s k =>
    rw [hcheck] at hend
    exact hend.elim

theorem decideRequest_inOrder (v : Verdict) (ws id : String) :
    InOrder (decideRequest v.env v.decision ws id v.actorUserId v.comment v.reason [])
      (fun δ p => Queued δ p.2) [] := by
  rw [decideRequest_eq]
  refine (get_inOrder v.env 0 ws id).bind fun δ p hp => ?_
  obtain ⟨_ | request, pending⟩ := p
  · trivial
  · obtain ⟨rfl, rfl⟩ := hp
    refine (requireEntitled_inOrder id request v.actorUserId v.decision []).bind fun δ' q hq => ?_
    obtain ⟨rfl, hq⟩ := hq
    rw [hq, decideInternal_eq]
    refine (transition_inOrder _ _ _ _ _ _ _).bind fun δ'' r hr => InOrder.log ?_
    obtain ⟨updated, pending⟩ := r
    obtain ⟨hrank, rfl⟩ := hr
    exact Queued.trail hrank

/-! ## The ledger -/

theorem ledgerFlush_inOrder {rows : List NewRow} (h : Ascends δ rows) :
    InOrder (ledgerFlush rows) (fun _ q => q.2 = []) δ :=
  Prog.Holding.catchError ((insertAll_inOrder h).bind fun _ _ _ => rfl)
    fun _ e => by cases e <;> trivial

theorem runIdempotent_inOrder {sha256 : String → String} {env : Env} {ws route : String}
    {key : Option String} {payload : Json} {handler : Tx (ApprovalRequestOut × Nat)}
    (hhandler : InOrder (handler []) (fun δ p => Queued δ p.2) []) :
    InOrder (runIdempotent sha256 env ws route key payload handler [])
      (fun δ p => Ascends δ p.2) [] := by
  cases key with
  | none => exact hhandler.mono fun _ _ hp => hp.ascends
  | some key =>
    rw [runIdempotent_some]
    refine InOrder.select trivial fun existing? => ?_
    change Option IdempotencyKey at existing?
    cases existing? with
    | none =>
      refine hhandler.bind fun δ p hp => ?_
      refine (ledgerFlush_inOrder (hp.keyed _)).bind fun δ' q hq => ?_
      change Ascends δ' q.2
      rw [hq]
      exact .nil _
    | some existing =>
      simp only [afterLookup]
      split_ifs
      · trivial
      · cases ApprovalRequestOut.modelValidate existing.responseBody with
        | none => trivial
        | some out => exact Ascends.nil _

/-! ## Whole calls -/

theorem endpoint_inOrder {app : App} {call : Call} {P : Principal} (document : Option Json) :
    InOrder (endpoint app call P document []) (fun δ p => Ascends δ p.2) [] := by
  have hread : call.operation.IsRead →
      InOrder (endpoint app call P document []) (fun δ p => Ascends δ p.2) [] := fun hop =>
    (Prog.Holding.of_only (endpoint_reads hop document) (fun s hs => hs.reads)
      fun s hs => by cases s <;> trivial).mono fun δ p hp => by
        rw [hp.2]
        exact .nil δ
  cases hop : call.operation with
  | list status limit offset => exact hread (by rw [hop]; trivial)
  | get id => exact hread (by rw [hop]; trivial)
  | create key body =>
    unfold endpoint
    rw [hop]
    dsimp only
    rw [orRequestValidationError_bind]
    cases hparams : (requiredIdempotencyKey key).both
        (validateBody ApprovalRequestCreate.modelValidate document) with
    | error es => trivial
    | ok params =>
      obtain ⟨k, payload⟩ := params
      obtain ⟨-, hpayload⟩ := both_ok hparams
      obtain ⟨fields, -, hfields⟩ := validateBody_ok hpayload
      let c : Creation := ⟨call.env, call.workspaceId, P.userId, payload, k,
        fingerprint app.sha256 payload.modelDump, fields, hfields⟩
      exact Prog.Holding.bind (runIdempotent_inOrder
        (Prog.Holding.bind (createRequest_inOrder c) fun _ ⟨_, _⟩ hp => by exact hp))
        fun _ ⟨_, _⟩ hp => by exact hp
  | decide d id key body =>
    rw [endpoint_decide hop, orRequestValidationError_bind]
    cases hparams : (optionalIdempotencyKey key).both (d.readBody document) with
    | error es => trivial
    | ok params =>
      obtain ⟨k, b⟩ := params
      obtain ⟨-, hb⟩ := both_ok hparams
      let v : Verdict := ⟨call.env, d, P.userId, b.comment, b.reason, [], none,
        Decision.readBody_accepts hb⟩
      exact Prog.Holding.bind (runIdempotent_inOrder
        (Prog.Holding.bind (decideRequest_inOrder v call.workspaceId id)
          fun _ ⟨_, _⟩ hp => by exact hp))
        fun _ ⟨_, _⟩ hp => by exact hp

theorem requireAction_inOrder (action : Action) (provider : AuthProvider)
    (authorization : Option String) (ws : String) :
    InOrder (requireAction action provider authorization ws [])
      (fun δ p => δ = [] ∧ p.2 = []) [] := by
  rw [requireAction_eq]
  cases provider.authenticate authorization with
  | error e =>
    cases e with
    | invalidCredentials message => exact InOrder.log trivial
    | other detail => trivial
  | ok P =>
    dsimp only
    split_ifs
    · exact InOrder.log trivial
    · exact InOrder.log trivial
    · exact ⟨rfl, rfl⟩

/-- **Every call writes in order**, and so does the rest of its transaction after its
answer. -/
theorem request_inOrder (app : App) (call : Call) :
    InOrder (request app call) (fun δ r => InOrder r.2 (fun _ _ => True) δ) [] := by
  change InOrder ((handle app call []).bind _) _ []
  refine Prog.Holding.bind (P := fun δ p => Ascends δ p.2) ?_ fun δ p hp => insertAll_inOrder hp
  unfold handle
  rw [tx_bind, parseBody_eq]
  cases call.operation.body.document? with
  | none => cases call.operation.body <;> trivial
  | some document =>
    rw [Prog.bind, tx_bind]
    refine (requireAction_inOrder _ _ _ _).bind fun δ p hp => ?_
    obtain ⟨P, pending⟩ := p
    obtain ⟨rfl, rfl⟩ := hp
    exact endpoint_inOrder document

end Order

/-- In every interleaving of calls the sessions keep the lock order. -/
theorem ApiWorld.ordered {ι : Type} [DecidableEq ι] (app : App) (call : ι → Call) {σ : Store}
    {w : ApiWorld ι} {ls : List (ι × Transactions.Action)}
    (h : Run approvalDb (ApiWorld.start app call σ) ls w) : w.Ordered lockOrder :=
  (World.Ordered.start fun i => request_inOrder app (call i)).run h

end ContentApproval
