import ContentApproval.Properties.AtMostOnce
import ContentApproval.Specs.Pages

/-!
# The ledger and the data

The rows of the ledger against the current rows of `approval_requests`
(`LedgerAgrees`). A row with the route `create` holds the response of the create, and the
request differs from it only by the decision; a row with the route of a decision exists
only while the request is as that decision left it.
-/

namespace ContentApproval

open Transactions SqlApprovalRequestRepository

/-! ## Serialized rows -/

/-- The response that shows this row. -/
def ApprovalRequestRow.out (row : ApprovalRequestRow) (reviewerUserIds : List String) :
    ApprovalRequestOut :=
  .ofEntity (toEntity fresh row reviewerUserIds)

/-- The row without its decision. -/
def ApprovalRequestRow.asCreated (row : ApprovalRequestRow) (updatedAt : Instant) :
    ApprovalRequestRow :=
  { row with
    status := .pending
    updatedAt := updatedAt
    decidedByUserId := none
    decidedAt := none
    decisionComment := none
    decisionReason := none }

theorem Case.asCreated (k : Case) : k.row.asCreated k.creation.row.updatedAt = k.creation.row := by
  unfold Case.row
  split <;> rfl

theorem Verdict.out_eq {k : Case} {v : Verdict} (h : k.verdict = some v) :
    v.out k.creation.row = k.row.out v.shown := by
  rw [Case.row_settled h]
  exact congrArg ApprovalRequestOut.ofEntity (toEntity_load _ _ _)

/-! ## Agreement -/

section Runs

variable {ι : Type} {app : App} {call : ι → Call} {w : ApiWorld ι}

/-- A committed call has created this row. -/
def Inserted (w : ApiWorld ι) (row : ApprovalRequestRow) : Prop :=
  ∃ i a δ, w.session i = .committed a δ ∧ Write.insert (.approvalRequest row) ∈ δ

/-- `updated_at` of the request when it was created. -/
structure CreatedAtTime (w : ApiWorld ι) (id : String) (t : Instant) : Prop where
  created : ∃ row, Inserted w row ∧ row.id = id
  time : ∀ row, Inserted w row → row.id = id → row.updatedAt = t

/-- The ledger row holds the response of the create of the request. -/
structure RecordsCreate (w : ApiWorld ι) (row : ApprovalRequestRow) (r : IdempotencyKey) :
    Prop where
  workspace : r.workspaceId = row.workspaceId
  status : r.responseStatus = 201
  body : ∃ t, CreatedAtTime w row.id t ∧ r.responseBody =
    ((row.asCreated t).out (w.store.reviewerIds row.workspaceId row.id)).modelDump

/-- The ledger row holds the response of the decision on the request. -/
structure RecordsDecision (σ : Store) (row : ApprovalRequestRow) (d : Decision)
    (r : IdempotencyKey) : Prop where
  workspace : r.workspaceId = row.workspaceId
  decided : row.status = d.newStatus
  status : r.responseStatus = 200
  body : ∃ shown, shown.Perm (σ.reviewerIds row.workspaceId row.id) ∧
    r.responseBody = (row.out shown).modelDump

/-- The ledger rows of the decisions on one request. -/
def Store.decisionKeys (σ : Store) (id : String) : List IdempotencyKey :=
  σ.idempotencyKeys.filter
    (fun r => [Decision.approve, .reject, .cancel].any (fun d => r.route == d.route id))

/-- The ledger agrees with the data. -/
structure LedgerAgrees (w : ApiWorld ι) : Prop where
  /-- The requests and the rows of the creates correspond one to one. -/
  creates : ∃ rows, rows.Perm (w.store.idempotencyKeys.filter (fun r => r.route == "create")) ∧
    List.Forall₂ (RecordsCreate w) w.store.approvalRequests rows
  /-- A request has at most one row of a decision. -/
  atMostOne : ∀ row ∈ w.store.approvalRequests, (w.store.decisionKeys row.id).length ≤ 1
  decisions : ∀ row ∈ w.store.approvalRequests, ∀ r ∈ w.store.idempotencyKeys, ∀ d,
    r.route = Decision.route d row.id → RecordsDecision w.store row d r
  /-- There are no other rows. -/
  others : ∀ r ∈ w.store.idempotencyKeys, r.route = "create" ∨
    ∃ row ∈ w.store.approvalRequests, ∃ d, r.route = Decision.route d row.id

/-! ## The creation of a case -/

variable {commits : List (ι × List Write)} {cases : Registry}

/-- The call that created a case has committed, and nobody else has created it. -/
theorem createdAtTime (hw : w.Sound (fun i => contract app (call i)))
    (hh : History approvalDb Store.empty w commits) (hrep : Represents cases w.store) {k : Case}
    (hk : k ∈ cases) : CreatedAtTime w k.requestId k.creation.row.updatedAt := by
  -- a committed create has entered its ledger row, which is that of a case
  have hcase : ∀ {c : Creation} {i a}, w.session i = .committed a c.writes →
      ∃ k' ∈ cases, c.out = k'.creation.out := by
    intro c i a hi
    have hmem := (mem_ledger_iff hh).mpr ⟨i, c.writes, (hh.session i _).mpr ⟨a, hi⟩,
      c.mem_writes_ledgerRow⟩
    obtain ⟨k', hk', hrow⟩ := hrep.created_of_route hmem rfl
    exact ⟨k', hk', ApprovalRequestOut.modelDump_injective (congrArg IdempotencyKey.responseBody hrow)⟩
  constructor
  · have hmem : k.creation.ledgerRow ∈ w.store.idempotencyKeys :=
      hrep.ledger.mem_iff.mpr (List.mem_flatMap.mpr ⟨k, hk, List.mem_cons_self⟩)
    obtain ⟨i, δ, hcommit, hr⟩ := (mem_ledger_iff hh).mp hmem
    obtain ⟨a, hi⟩ := (hh.session i δ).mp hcommit
    obtain ⟨P, -, heff⟩ := World.Sound.committed hw hi
    cases heff with
    | read => cases hr
    | replayed => cases hr
    | created c =>
      have hrow := Creation.ledgerRow_of_mem hr
      have hout : k.creation.out = c.out :=
        ApprovalRequestOut.modelDump_injective (congrArg IdempotencyKey.responseBody hrow)
      refine ⟨c.row, ⟨i, _, _, hi, List.mem_cons_self⟩, ?_⟩
      exact (congrArg ApprovalRequestOut.id hout).symm
    | decided v =>
      obtain ⟨key, fp, -, hrow⟩ := Verdict.ledgerRow?_some (Verdict.ledgerRow?_of_mem hr)
      exact absurd (congrArg IdempotencyKey.route hrow).symm (Decision.route_ne_create _ _)
  · rintro row ⟨i, a, δ, hi, hr⟩ hid
    obtain ⟨P, -, heff⟩ := World.Sound.committed hw hi
    cases heff with
    | read => cases hr
    | replayed => cases hr
    | decided v => simp [Verdict.writes, Verdict.newRows] at hr
    | created c =>
      obtain rfl : row = c.row := by simpa [Creation.writes, Creation.newRows] using hr
      obtain ⟨k', hk', hout⟩ := hcase hi
      have hid' : k'.requestId = c.requestId := (congrArg ApprovalRequestOut.id hout).symm
      obtain rfl := hrep.eq_of_id hk' hk (hid'.trans hid)
      exact congrArg ApprovalRequestOut.updatedAt hout

/-! ## The ledger of a case -/

theorem filter_create_ledgerRows (k : Case) :
    k.ledgerRows.filter (fun r => r.route == "create") = [k.creation.ledgerRow] := by
  have hdecisions : ∀ r ∈ k.verdict.toList.flatMap (fun v =>
      (v.ledgerRow? k.workspaceId k.requestId k.creation.row).toList), ¬ (r.route == "create") := by
    intro r hr
    obtain ⟨v, -, hr⟩ := List.mem_flatMap.mp hr
    obtain ⟨key, fp, -, rfl⟩ := Verdict.ledgerRow?_some (Option.mem_toList.mp hr)
    simpa using Decision.route_ne_create _ _
  rw [Case.ledgerRows, List.filter_cons_of_pos (by rfl), List.filter_eq_nil_iff.mpr hdecisions]

/-- The row of a decision is that of the verdict of the case. -/
theorem recordsDecision {σ : Store} (hrep : Represents cases σ) {k : Case} (hk : k ∈ cases)
    {r : IdempotencyKey} (hr : r ∈ σ.idempotencyKeys) {d : Decision}
    (hroute : r.route = d.route k.requestId) :
    ∃ v, k.verdict = some v ∧ v.ledgerRow? k.workspaceId k.requestId k.creation.row = some r ∧
      RecordsDecision σ k.row d r := by
  obtain ⟨k', hk', v, hv, rfl, hid, hrow⟩ := hrep.decided_of_route hr hroute
  obtain rfl := hrep.eq_of_id hk' hk hid
  refine ⟨v, hv, hrow, ?_⟩
  obtain ⟨key, fp, -, rfl⟩ := Verdict.ledgerRow?_some hrow
  refine ⟨k'.row_workspaceId.symm, ?_, rfl, v.shown, ?_, ?_⟩
  · rw [Case.row_settled hv]
    rfl
  · rw [k'.row_workspaceId, k'.row_id, Store.reviewerIds, hrep.reviewerIds_eq hk']
    exact k'.shown v hv
  · rw [← Verdict.out_eq hv]

/-- A list without repetitions whose items are all equal has at most one. -/
theorem length_le_one {α : Type} {l : List α} (hnd : l.Nodup) (h : ∀ a ∈ l, ∀ b ∈ l, a = b) :
    l.length ≤ 1 := by
  match l with
  | [] => exact Nat.zero_le 1
  | [_] => exact le_refl 1
  | a :: b :: l => simp [h a (by simp) b (by simp)] at hnd

/-- **The ledger never disagrees with the data**, in every store that a run of any calls
reaches. -/
theorem ledger_agrees [DecidableEq ι] {ls : List (ι × Transactions.Action)}
    (h : Run approvalDb (ApiWorld.start app call Store.empty) ls w) : LedgerAgrees w := by
  have hw := ApiWorld.sound ⟨[], represents_empty⟩ h
  obtain ⟨commits, hh⟩ := h.history
  obtain ⟨cases, hrep⟩ : w.store.Registered := hw.inv
  constructor
  · refine ⟨cases.map (fun k => k.creation.ledgerRow), ?_, ?_⟩
    · refine .trans (.of_eq ?_) (hrep.ledger.filter _).symm
      rw [List.filter_flatMap]
      simp only [filter_create_ledgerRows]
      exact List.map_eq_flatMap
    · rw [hrep.requests, List.forall₂_map_left_iff, List.forall₂_map_right_iff, List.forall₂_same]
      intro k hk
      refine ⟨k.row_workspaceId.symm, rfl, k.creation.row.updatedAt, ?_, ?_⟩
      · rw [k.row_id]
        exact createdAtTime hw hh hrep hk
      · rw [k.asCreated, k.row_workspaceId, k.row_id, Store.reviewerIds, hrep.reviewerIds_eq hk]
        rfl
  · intro row hrow
    rw [hrep.requests] at hrow
    obtain ⟨k, hk, rfl⟩ := List.mem_map.mp hrow
    refine length_le_one ((List.Nodup.of_map _ hrep.keys).filter _) fun r hr r' hr' => ?_
    have hverdict : ∀ r ∈ w.store.decisionKeys k.row.id, ∃ v, k.verdict = some v ∧
        v.ledgerRow? k.workspaceId k.requestId k.creation.row = some r := by
      intro r hr
      obtain ⟨hr, hany⟩ := List.mem_filter.mp hr
      obtain ⟨d, -, hroute⟩ := List.any_eq_true.mp hany
      rw [k.row_id] at hroute
      obtain ⟨v, hv, hrow, -⟩ := recordsDecision hrep hk hr (by simpa using hroute)
      exact ⟨v, hv, hrow⟩
    obtain ⟨v, hv, hrow⟩ := hverdict r hr
    obtain ⟨v', hv', hrow'⟩ := hverdict r' hr'
    rw [hv] at hv'
    obtain rfl := Option.some.inj hv'
    exact Option.some.inj (hrow.symm.trans hrow')
  · intro row hrow r hr d hroute
    rw [hrep.requests] at hrow
    obtain ⟨k, hk, rfl⟩ := List.mem_map.mp hrow
    rw [k.row_id] at hroute
    obtain ⟨v, -, -, hrecords⟩ := recordsDecision hrep hk hr hroute
    exact hrecords
  · intro r hr
    obtain ⟨k, hk, rfl | ⟨v, hv, hrow⟩⟩ := hrep.ledgerRow hr
    · exact Or.inl rfl
    · obtain ⟨key, fp, -, rfl⟩ := Verdict.ledgerRow?_some hrow
      refine Or.inr ⟨k.row, by rw [hrep.requests]; exact List.mem_map_of_mem hk, v.decision, ?_⟩
      rw [k.row_id]

end Runs

/-- Alice's create and Bob's approval, both with a key. -/
def Sample.keyedCalls : Fin 2 → Call
  | 0 => launch "1" "key-1"
  | 1 => approve "2" bobToken (some "key-2")

theorem ledger_agrees_sample : ∃ ls w,
    Run approvalDb (ApiWorld.start Sample.app Sample.keyedCalls Store.empty) ls w ∧
      w.store.idempotencyKeys.map IdempotencyKey.responseStatus = [201, 200] ∧
      LedgerAgrees w := by
  obtain ⟨ls, w, h, hstore, -⟩ := Run.serveAll
    approvalDb (fun i => request Sample.app (Sample.keyedCalls i)) [0, 1] (by decide)
    (w := ApiWorld.start Sample.app Sample.keyedCalls Store.empty) (fun _ => rfl) (fun _ _ => rfl)
  refine ⟨ls, w, h, ?_, ledger_agrees h⟩
  rw [hstore]
  decide +kernel

end ContentApproval
