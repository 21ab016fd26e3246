import ContentApproval.Registry.Ledger
import ContentApproval.Specs.Handling
import ContentApproval.Specs.Serial
import ContentApproval.Transactions.Exceptions

/-!
# Why a call ends in an exception

`Refusal` lists the reasons for which a call may end in an exception, each with what then holds of
the store. All of them are facts that no commit of another call can change (`Refusal.env`), and
there is no other reason: `request_refuses` proves this of every call, whatever the others commit
between its statements, and of the flush after its answer as well. In particular a stored answer can
always be replayed, a request does not vanish after its update, and the only key that a create can
violate in its first flush is that of the request id.
-/

namespace ContentApproval

open Transactions SqlApprovalRequestRepository AsyncSession ApprovalService Idempotency
  AuthDependencies

/-! ## Reasons -/

def Validated.errors? {α : Type} : Validated α → Option (List ErrorItem)
  | .ok _ => none
  | .error errors => some errors

/-- The errors of the parameters and of the body of an operation, if there are any. -/
def Operation.errors? (document : Option Json) : Operation → Option (List ErrorItem)
  | create key _ => Validated.errors? ((requiredIdempotencyKey key).both
    (validateBody ApprovalRequestCreate.modelValidate document))
  | list status limit offset => Validated.errors? (listParameters status limit offset)
  | get _ => none
  | decide d _ key _ => Validated.errors? ((optionalIdempotencyKey key).both (d.readBody document))

/-- The request that an operation names. -/
def Operation.requestId? : Operation → Option String
  | get id => some id
  | decide _ id _ _ => some id
  | _ => none

/-- The ids of the audit entry and of the event of a call. -/
def Call.trailKeys (call : Call) : List PrimaryKey :=
  [.auditLogEntry call.env.auditId, .outboxEvent call.env.eventId]

/-- The keys of the rows that a call with a key inserts in its last flush. -/
def Call.lastKeys (call : Call) (route key : String) : List PrimaryKey :=
  call.trailKeys ++ [.idempotencyKey call.workspaceId route key]

/-- Why a call ended in an exception: `σ₀` is the store that it began in, `σ` the one that it sees
now. -/
inductive Refusal (app : App) (call : Call) (σ₀ σ : Store) : Exn → Prop
  /-- The body is no JSON text. -/
  | unreadable (h : call.operation.body.document? = none) :
    Refusal app call σ₀ σ call.operation.body.syntaxError
  /-- The caller is unknown, is a stranger to the workspace, or lacks the action. -/
  | denied {e : Exn} (h : call.caller app = .error e) : Refusal app call σ₀ σ e
  | invalid {document : Option Json} {errors : List ErrorItem}
    (hdoc : call.operation.body.document? = some document)
    (h : call.operation.errors? document = some errors) :
    Refusal app call σ₀ σ (.invalid errors)
  /-- The request was not there when the call began. -/
  | notFound {id : String} (hop : call.operation.requestId? = some id)
    (h : σ₀.request? call.workspaceId id = none) :
    Refusal app call σ₀ σ (.approvalRequestNotFoundError id)
  | notEntitled {P : Principal} {d : Decision} {id : String} {key : Option String} {body : RawBody}
    {row : ApprovalRequestRow} (hby : call.By app P) (hop : call.operation = .decide d id key body)
    (hrow : σ.request? call.workspaceId id = some row)
    (h : ¬ d.Entitled row.createdByUserId (σ.reviewerIds call.workspaceId id) P.userId) :
    Refusal app call σ₀ σ (.notAuthorizedForDecisionError id P.userId d.refusal)
  /-- The request is decided, and the exception says how. -/
  | late {P : Principal} {d : Decision} {id : String} {key : Option String} {body : RawBody}
    {row : ApprovalRequestRow} (hby : call.By app P) (hop : call.operation = .decide d id key body)
    (hrow : σ.request? call.workspaceId id = some row)
    (hentitled : σ.Entitles call.workspaceId id d P.userId) (h : row.status ≠ .pending) :
    Refusal app call σ₀ σ (.invalidTransitionError id row.status)
  /-- The key stands in the ledger with another body. -/
  | keyReused {route key : String} {payload : Json} {existing : IdempotencyKey}
    (hkey : call.operation.ledgerKey = some (route, key))
    (hbody : call.operation.normalized = some payload)
    (hfound : σ.key? call.workspaceId route key = some existing)
    (h : existing.requestFingerprint ≠ fingerprint app.sha256 payload) :
    Refusal app call σ₀ σ keyReused
  /-- The key was not in the ledger when the create began, and now it is, or one of the ids that the
  create generated is in use. -/
  | keyInProgress {key : String} {body : RawBody} (hop : call.operation = .create (some key) body)
    (hbefore : σ₀.key? call.workspaceId "create" key = none)
    (h : ∃ k ∈ call.lastKeys "create" key, σ.has k = true) : Refusal app call σ₀ σ keyInProgress
  /-- One of the ids that a decision with a key generated is in use. -/
  | trailInUse {d : Decision} {id key : String} {body : RawBody}
    (hop : call.operation = .decide d id (some key) body)
    (h : ∃ k ∈ call.trailKeys, σ.has k = true) : Refusal app call σ₀ σ keyInProgress
  /-- The id of the new request is in use. -/
  | idInUse {key : Option String} {body : RawBody} (hop : call.operation = .create key body)
    (h : σ.has (.approvalRequest call.env.requestId) = true) :
    Refusal app call σ₀ σ .integrityError

/-- Why a call can end in an exception after its answer: it is a decision without a key, and one
of the ids that it generated is in use. -/
structure Call.TrailInUse (call : Call) (σ : Store) : Prop where
  decision : ∃ d id body, call.operation = .decide d id none body
  used : ∃ k ∈ call.trailKeys, σ.has k = true

/-! ## Reasons stay -/

section Stay

variable {δ : List Write} {σ σ' : Store}

theorem Store.Evolves.request?_none (h : σ.Evolves σ') {ws id : String}
    (hnone : σ'.request? ws id = none) : σ.request? ws id = none := by
  rw [Option.eq_none_iff_forall_ne_some]
  intro r hr
  obtain ⟨r', hr', -⟩ := h.request hr
  rw [hnone] at hr'
  cases hr'

theorem Store.Evolves.key?_none (h : σ.Evolves σ') {ws route key : String}
    (hnone : σ'.key? ws route key = none) : σ.key? ws route key = none := by
  rw [Option.eq_none_iff_forall_ne_some]
  intro r hr
  rw [h.key hr] at hnone
  cases hnone

/-- A key that is in use stays in use. -/
theorem has_env {D : Discipline approvalDb} (h : D.Env δ σ σ') {k : PrimaryKey}
    (hk : σ.has k = true) : σ'.has k = true := by
  refine h.keeps (P := fun σ => σ.has k = true) hk fun hs hk₁ => ?_
  obtain ⟨-, -, δ', -, -, -, rfl⟩ := hs
  exact has_foldl.mpr (Or.inl hk₁)

/-- **A reason for which a call was refused remains one.** -/
theorem Refusal.env {app : App} {call : Call} {σ₀ : Store} {e : Exn}
    (h : Refusal app call σ₀ σ e) (he : approvalDiscipline.Env δ σ σ') :
    Refusal app call σ₀ σ' e := by
  have hev : σ.Evolves σ' := approves_approvalDiscipline.env he
  cases h with
  | unreadable h => exact .unreadable h
  | denied h => exact .denied h
  | invalid hdoc h => exact .invalid hdoc h
  | notFound hop h => exact .notFound hop h
  | notEntitled hby hop hrow h =>
    obtain ⟨row', hrow', hbecomes⟩ := hev.request hrow
    refine .notEntitled hby hop hrow' ?_
    rw [hbecomes.createdByUserId, Store.reviewerIds, hev.reviewers hrow]
    exact h
  | late hby hop hrow hentitled h =>
    obtain ⟨row', hrow', hbecomes⟩ := hev.request hrow
    obtain rfl := hbecomes.eq_of_final h
    exact .late hby hop hrow' (hev.entitles hentitled) h
  | keyReused hkey hbody hfound h => exact .keyReused hkey hbody (hev.key hfound) h
  | keyInProgress hop hbefore h =>
    obtain ⟨k, hk, hhas⟩ := h
    exact .keyInProgress hop hbefore ⟨k, hk, has_env he hhas⟩
  | trailInUse hop h =>
    obtain ⟨k, hk, hhas⟩ := h
    exact .trailInUse hop ⟨k, hk, has_env he hhas⟩
  | idInUse hop h => exact .idInUse hop (has_env he h)

theorem Call.TrailInUse.env {call : Call} (h : call.TrailInUse σ)
    (he : approvalDiscipline.Env δ σ σ') : call.TrailInUse σ' := by
  obtain ⟨k, hk, hhas⟩ := h.used
  exact ⟨h.decision, k, hk, has_env he hhas⟩

end Stay

/-! ## Flushes that fail -/

section Flushes

variable {σ : Store}

/-- A row of the first flush of a create cannot be inserted only if the request id is in use. -/
theorem Creation.idInUse_of_failed {c : Creation} (hσ : σ.Registered) {pre : List NewRow}
    {row : NewRow} (hpre : pre ++ [row] <+: c.firstRows)
    (hfail : ¬ ((approvalDb.view σ (pre.map .insert)).has row.primaryKey = false ∧
      (approvalDb.view σ (pre.map .insert)).hasParent row = true)) :
    σ.has (.approvalRequest c.requestId) = true := by
  by_contra hid
  exact hfail ((c.firstRows_admits hσ (by simpa using hid)).insertable hpre)

theorem hasParent_view (rows : List NewRow) {row : NewRow} (h : σ.hasParent row = true) :
    (approvalDb.view σ (rows.map .insert)).hasParent row = true := by
  induction rows generalizing σ with
  | nil => exact h
  | cons new rows ih => exact ih (Store.hasParent_insert new h)

/-- The request of a create is there after the first flush. -/
theorem Creation.request_filed (c : Creation) : ((approvalDb.view σ
    (c.firstRows.map .insert)).request? c.workspaceId c.requestId).isSome = true := by
  have hfiled : (σ.insert (.approvalRequest c.row)).hasParent (.auditLogEntry c.auditEntry) =
      true := by
    change (List.find? _ (σ.approvalRequests ++ [c.row])).isSome = true
    rw [List.find?_isSome]
    exact ⟨c.row, List.mem_append_right _ List.mem_cons_self, by simp [row, auditEntry]⟩
  exact hasParent_view (c.reviewerRows.map .reviewer) hfiled

/-- The audit entry and the event of the request that a call leaves to its last flush. -/
def Call.LeavesTrail (call : Call) (id : String) (pending : List NewRow) : Prop :=
  ∃ a o, pending = [.auditLogEntry a, .outboxEvent o] ∧
    a.id = call.env.auditId ∧ a.workspaceId = call.workspaceId ∧ a.approvalRequestId = id ∧
    o.id = call.env.eventId ∧ o.workspaceId = call.workspaceId ∧ o.approvalRequestId = id

/-- A flush of the trail, with a ledger row or without, fails only if a key of its rows is in
use. -/
theorem Call.LeavesTrail.exists_used {call : Call} {id : String} {pending : List NewRow}
    (h : call.LeavesTrail id pending) (ledger : List IdempotencyKey) {keys : List PrimaryKey}
    (hkeys : (pending ++ ledger.map NewRow.idempotencyKey).map NewRow.primaryKey = keys)
    (hdistinct : keys.Nodup) {δ : List Write}
    (hrequest : ((approvalDb.view σ δ).request? call.workspaceId id).isSome = true)
    (hδ : ∀ row, Write.insert row ∈ δ → row.primaryKey ∉ keys) {pre : List NewRow} {row : NewRow}
    (hpre : pre ++ [row] <+: pending ++ ledger.map NewRow.idempotencyKey)
    (hfail : ¬ ((approvalDb.view σ (δ ++ pre.map .insert)).has row.primaryKey = false ∧
      (approvalDb.view σ (δ ++ pre.map .insert)).hasParent row = true)) :
    ∃ k ∈ keys, σ.has k = true := by
  obtain ⟨a, o, rfl, -, haws, haid, -, hows, hoid⟩ := h
  by_contra hnew
  push Not at hnew
  have hview : ∀ k ∈ keys, (approvalDb.view σ δ).has k = false := by
    intro k hk
    refine Bool.eq_false_iff.mpr fun h => ?_
    rcases has_foldl.mp h with h | ⟨new, hnew', rfl⟩
    · exact hnew k hk h
    · exact hδ new hnew' hk
  have hparent : ∀ row', row'.foreignKey = some (call.workspaceId, id) →
      (approvalDb.view σ δ).hasParent row' = true := by
    intro row' hforeign
    rw [Store.hasParent, hforeign]
    exact hrequest
  have hadmits : (approvalDb.view σ δ).Admits
      ([.auditLogEntry a, .outboxEvent o] ++ ledger.map NewRow.idempotencyKey) := by
    refine Store.admits (fun row' hrow' => hview _ (hkeys ▸ List.mem_map_of_mem hrow'))
      (hkeys ▸ hdistinct) ?_
    intro row' hrow'
    rcases List.mem_cons.mp hrow' with rfl | hrow'
    · exact hparent _ (by rw [← haws, ← haid]; rfl)
    rcases List.mem_cons.mp hrow' with rfl | hrow'
    · exact hparent _ (by rw [← hows, ← hoid]; rfl)
    · obtain ⟨r, -, rfl⟩ := List.mem_map.mp hrow'
      rfl
  rw [Database.view_append] at hfail
  exact hfail (hadmits.insertable hpre)

theorem Call.LeavesTrail.keys {call : Call} {id : String} {pending : List NewRow}
    (h : call.LeavesTrail id pending) : pending.map NewRow.primaryKey = call.trailKeys := by
  obtain ⟨a, o, rfl, haudit, -, -, hevent, -, -⟩ := h
  simp only [List.map_cons, List.map_nil, NewRow.primaryKey, haudit, hevent, trailKeys]

end Flushes

/-! ## The endpoints -/

section Wp

variable {app : App} {call : Call} {P : Principal} {document : Option Json} {σ₀ σ : Store}

/-- Where a program of a call ends: with `L`, or in an exception that has a reason. -/
def Refuses {α : Type} (app : App) (call : Call) (σ₀ : Store) (L : α → List Write → Store → Prop) :
    Except Exn α → List Write → Store → Prop
  | .ok a, δ, σ => L a δ σ
  | .error e, _, σ => Refusal app call σ₀ σ e

theorem Ensures.bind_refuses {α β : Type} {p : Prog Reply Exn α} {f : α → Prog Reply Exn β}
    {δ : List Write} {L : α → List Write → Store → Prop} {L' : β → List Write → Store → Prop}
    (h : Ensures p (Refuses app call σ₀ L) δ σ)
    (hf : ∀ a δ σ, L a δ σ → Ensures (f a) (Refuses app call σ₀ L') δ σ) :
    Ensures (p.bind f) (Refuses app call σ₀ L') δ σ := by
  refine Wp.bind (h.mono fun r δ' σ' _ _ _ hr => ?_)
  cases r with
  | error e => exact hr
  | ok a => exact hf a δ' σ' hr

/-- A refusal at the time when the program raises. -/
theorem Ensures.throw_refuses {α : Type} {e : Exn} {δ : List Write}
    {L : α → List Write → Store → Prop} (h : Refusal app call σ₀ σ e) :
    Ensures (.throw e) (Refuses app call σ₀ L) δ σ :=
  fun _ h₁ => h.env h₁.env

/-- Nothing is left to flush. -/
def NothingLeft {α : Type} (p : α × List NewRow) (_ : List Write) (_ : Store) : Prop := p.2 = []

/-- What a decision has done before its last flush. -/
structure Call.HasDecided (call : Call) (id : String) (pending : List NewRow) (δ : List Write)
    (σ : Store) : Prop where
  leaves : call.LeavesTrail id pending
  writes : ∃ values, δ = [.update call.workspaceId id values]
  request : ∃ row, σ.request? call.workspaceId id = some row

theorem Call.HasDecided.evolves {id : String} {pending : List NewRow} {δ : List Write} {σ' : Store}
    (h : call.HasDecided id pending δ σ) (hev : σ.Evolves σ') :
    call.HasDecided id pending δ σ' := by
  obtain ⟨row, hrow⟩ := h.request
  obtain ⟨row', hrow', -⟩ := hev.request hrow
  exact ⟨h.leaves, h.writes, row', hrow'⟩

/-- The last flush of a decision fails only if a key of its rows is in use. -/
theorem Call.HasDecided.exists_used {id : String} {pending : List NewRow} {δ : List Write}
    (h : call.HasDecided id pending δ σ) (ledger : List IdempotencyKey) {keys : List PrimaryKey}
    (hkeys : call.trailKeys ++ (ledger.map NewRow.idempotencyKey).map NewRow.primaryKey = keys)
    (hdistinct : keys.Nodup) {pre : List NewRow} {row : NewRow}
    (hpre : pre ++ [row] <+: pending ++ ledger.map NewRow.idempotencyKey)
    (hfail : ¬ ((approvalDb.view σ (δ ++ pre.map .insert)).has row.primaryKey = false ∧
      (approvalDb.view σ (δ ++ pre.map .insert)).hasParent row = true)) :
    ∃ k ∈ keys, σ.has k = true := by
  obtain ⟨hleaves, ⟨values, rfl⟩, row', hrow'⟩ := h
  have hrequest : ((approvalDb.view σ [.update call.workspaceId id values]).request?
      call.workspaceId id).isSome = true := by
    change ((σ.update call.workspaceId id values).request? call.workspaceId id).isSome = true
    rw [Store.request?_update, hrow']
    rfl
  refine hleaves.exists_used ledger ?_ hdistinct hrequest (fun new hnew => by simp at hnew) hpre
    hfail
  rw [List.map_append, hleaves.keys]
  exact hkeys

/-- The ledger has no row for a decision that has updated its request and not committed. -/
theorem Call.HasDecided.key?_eq_none {id : String} {pending : List NewRow} {δ : List Write}
    {pre : List NewRow} (h : call.HasDecided id pending δ σ)
    (hhere : Here approvalDiscipline (fun _ _ => True) (δ ++ pre.map .insert) σ) (d : Decision)
    (key : String) : σ.key? call.workspaceId (d.route id) key = none := by
  obtain ⟨row, hrow⟩ := h.request
  obtain ⟨values, rfl⟩ := h.writes
  have hσ : σ.Registered := hhere.inv
  exact hσ.key?_of_pending hrow (hσ.pending_of_held hhere.held List.mem_cons_self hrow) d key

/-- What a call leaves to the flush after its answer: nothing, or the trail of a decision. -/
def Call.Leaves (call : Call) (p : Answer × List NewRow) (δ : List Write) (σ : Store) : Prop :=
  p.2 = [] ∨ ∃ d id body, call.operation = .decide d id none body ∧ call.HasDecided id p.2 δ σ

theorem Call.Leaves.evolves {p : Answer × List NewRow} {δ : List Write} {σ' : Store}
    (h : call.Leaves p δ σ) (hev : σ.Evolves σ') : call.Leaves p δ σ' := by
  refine Or.imp_right ?_ h
  rintro ⟨d, id, body, hop, hdecided⟩
  exact ⟨d, id, body, hop, hdecided.evolves hev⟩

/-- A result with nothing left to flush becomes the answer. -/
theorem Ensures.answer_refuses {α : Type} {p : Prog Reply Exn (α × List NewRow)} {f : α → Answer}
    (h : Ensures p (Refuses app call σ₀ NothingLeft) [] σ) :
    Ensures (p.bind fun r => .ret (f r.1, r.2)) (Refuses app call σ₀ call.Leaves) [] σ :=
  Ensures.bind_refuses h fun _ _ _ hr => fun _ _ => Or.inl hr

theorem create_refuses {key : Option String} {body : RawBody}
    (hop : call.operation = .create key body) (hdoc : call.operation.body.document? = some document)
    (hev : σ₀.Evolves σ) :
    Ensures (endpoint app call P document []) (Refuses app call σ₀ call.Leaves) [] σ := by
  have hbody : body.document? = some document := by rw [hop] at hdoc; exact hdoc
  unfold endpoint
  rw [hop]
  dsimp only
  rw [orRequestValidationError_bind]
  cases hparams : (requiredIdempotencyKey key).both
      (validateBody ApprovalRequestCreate.modelValidate document) with
  | error errors =>
    refine .throw_refuses (.invalid hdoc ?_)
    rw [hop, Operation.errors?, hparams]
    rfl
  | ok params =>
    obtain ⟨k, payload⟩ := params
    obtain ⟨hk, hpayload⟩ := both_ok hparams
    obtain rfl := requiredIdempotencyKey_ok hk
    obtain ⟨fields, -, hfields⟩ := validateBody_ok hpayload
    let c : Creation := ⟨call.env, call.workspaceId, P.userId, payload, k,
      fingerprint app.sha256 payload.modelDump, fields, hfields⟩
    have hkey : call.operation.ledgerKey = some ("create", k) := by rw [hop]; rfl
    have hnormalized : call.operation.normalized = some payload.modelDump := by
      rw [hop, Operation.normalized, hbody, Option.bind_some, hpayload]
      rfl
    refine Ensures.answer_refuses (f := fun r => ⟨r.2, .request r.1⟩)
      (runIdempotent_raises_wp approves_approvalDiscipline (fun _ _ => trivial)
        (fun _ pending δ _ => pending = [.auditLogEntry c.auditEntry, .outboxEvent c.event] ∧
          δ = c.firstRows.map .insert) (fun _ h => h) ?_ ?_ ?_ ?_ ?_ ?_)
    · exact fun σ₁ existing out _ _ _ _ => rfl
    · exact fun σ₁ existing _ hfound hfp => .keyReused hkey hnormalized hfound hfp
    · intro σ₁ existing h₁ hfound hout
      obtain ⟨⟨out, hvalid⟩, -⟩ := Store.Registered.replayable h₁.inv hfound
      rw [hout] at hvalid
      cases hvalid
    · intro σ₁ h₁ _
      refine Wp.bind (createRequest_raises_wp (fun _ _ => trivial) c ?_ ?_)
      · exact fun σ₂ _ σ₃ _ => ⟨rfl, rfl⟩
      · intro pre row σ₂ σ₃ hpre h₂ hfail h₃
        exact .idInUse hop (has_env h₃.env (Creation.idInUse_of_failed h₂.inv hpre hfail))
    · exact fun result pending δ σ₁ _ _ => rfl
    · rintro result pending δ pre row σ₁ σ₂ hbefore hpre h₁ ⟨rfl, rfl⟩ hfail h₂
      have hleaves : call.LeavesTrail c.requestId
          [.auditLogEntry c.auditEntry, .outboxEvent c.event] :=
        ⟨_, _, rfl, rfl, rfl, rfl, rfl, rfl, rfl⟩
      have hother : ∀ new, Write.insert new ∈ c.firstRows.map Write.insert →
          new.primaryKey ∉ call.lastKeys "create" k := by
        intro new hnew hlast
        obtain ⟨new', hmem, hinsert⟩ := List.mem_map.mp hnew
        obtain rfl := Write.insert.inj hinsert
        rcases List.mem_cons.mp hmem with rfl | hmem
        · simp [Call.lastKeys, Call.trailKeys, NewRow.primaryKey] at hlast
        · obtain ⟨r, -, rfl⟩ := List.mem_map.mp hmem
          simp [Call.lastKeys, Call.trailKeys, NewRow.primaryKey] at hlast
      obtain ⟨k', hk', hused⟩ := hleaves.exists_used [⟨call.workspaceId, "create", k, _, _, _, _⟩]
        (Eq.refl (call.lastKeys "create" k)) (by simp [Call.lastKeys, Call.trailKeys])
        c.request_filed hother hpre hfail
      exact .keyInProgress hop (hev.key?_none hbefore) ⟨k', hk', has_env h₂.env hused⟩

/-- The service part of a decision. -/
theorem decideRequest_refuses (hby : call.By app P) {d : Decision} {id : String}
    {key : Option String} {body : RawBody} (hop : call.operation = .decide d id key body)
    {b : DecisionBody} (hb : d.readBody document = .ok b) (hev : σ₀.Evolves σ) :
    Ensures (decideRequest call.env d call.workspaceId id P.userId b.comment b.reason [])
      (Refuses app call σ₀ fun p δ σ => call.HasDecided id p.2 δ σ) [] σ := by
  let v : Verdict := call.verdict app P d key b [] (Decision.readBody_accepts hb)
  refine decideRequest_wp approves_approvalDiscipline v (fun _ _ _ => trivial) ?_ ?_
  · intro σ₁ row shown _ hrow _ _
    exact ⟨⟨_, _, rfl, rfl, rfl, rfl, rfl, rfl, rfl⟩, ⟨v.values, rfl⟩, row, hrow⟩
  · intro σ₁ e _ hfailure
    have hid : call.operation.requestId? = some id := by rw [hop]; rfl
    cases hfailure with
    | notFound hnone => exact .notFound hid (hev.request?_none hnone)
    | denied hrow hd => exact .notEntitled hby hop hrow hd
    | late hrow hp hentitled => exact .late hby hop hrow hentitled hp

theorem decide_refuses (hby : call.By app P) {d : Decision} {id : String} {key : Option String}
    {body : RawBody} (hop : call.operation = .decide d id key body)
    (hdoc : call.operation.body.document? = some document) (hev : σ₀.Evolves σ) :
    Ensures (endpoint app call P document []) (Refuses app call σ₀ call.Leaves) [] σ := by
  have hbody : body.document? = some document := by rw [hop] at hdoc; exact hdoc
  rw [endpoint_decide hop, orRequestValidationError_bind]
  cases hparams : (optionalIdempotencyKey key).both (d.readBody document) with
  | error errors =>
    refine .throw_refuses (.invalid hdoc ?_)
    rw [hop, Operation.errors?, hparams]
    rfl
  | ok params =>
    obtain ⟨key', b⟩ := params
    obtain ⟨hk, hb⟩ := both_ok hparams
    obtain rfl := optionalIdempotencyKey_ok hk
    have hnormalized : call.operation.normalized = some b.payload := by
      simp [hop, Operation.normalized, hbody, hb, Except.toOption]
    -- The response is made of the request; what is left to flush stays.
    have hhandler : ∀ {σ₁}, σ₀.Evolves σ₁ → Ensures ((do
        let request ← decideRequest call.env d call.workspaceId id P.userId b.comment b.reason
        return (ApprovalRequestOut.ofEntity request, 200) : Tx (ApprovalRequestOut × Nat)) [])
        (Refuses app call σ₀ fun p δ σ => call.HasDecided id p.2 δ σ) [] σ₁ := fun hev₁ =>
      Ensures.bind_refuses (decideRequest_refuses hby hop hb hev₁) fun p δ σ hp σ' h =>
        hp.evolves (approves_approvalDiscipline.env h.env)
    cases key with
    | none =>
      refine Ensures.bind_refuses (hhandler hev) fun p δ σ hp σ' h => ?_
      exact Or.inr ⟨d, id, body, hop, hp.evolves (approves_approvalDiscipline.env h.env)⟩
    | some k =>
      have hkey : call.operation.ledgerKey = some (d.route id, k) := by rw [hop]; rfl
      refine Ensures.answer_refuses (f := fun r => ⟨r.2, .request r.1⟩)
        (runIdempotent_raises_wp approves_approvalDiscipline (fun _ _ => trivial)
          (fun _ pending δ σ => call.HasDecided id pending δ σ) (fun hev' h => h.evolves hev')
          ?_ ?_ ?_ ?_ ?_ ?_)
      · exact fun σ₁ existing out _ _ _ _ => rfl
      · exact fun σ₁ existing _ hfound hfp => .keyReused hkey hnormalized hfound hfp
      · intro σ₁ existing h₁ hfound hout
        obtain ⟨⟨out, hvalid⟩, -⟩ := Store.Registered.replayable h₁.inv hfound
        rw [hout] at hvalid
        cases hvalid
      · intro σ₁ h₁ _
        refine (hhandler (hev.trans (approves_approvalDiscipline.env h₁.env))).mono ?_
        intro r δ σ₂ _ _ _ hr
        cases r with
        | error e => exact hr
        | ok p => exact hr
      · exact fun result pending δ σ₁ _ _ => rfl
      · intro result pending δ pre row σ₁ σ₂ hbefore hpre h₁ hdecided hfail h₂
        obtain ⟨k', hk', hused⟩ := hdecided.exists_used
          [⟨call.workspaceId, d.route id, k, _, _, _, _⟩] (Eq.refl (call.lastKeys (d.route id) k))
          (by simp [Call.lastKeys, Call.trailKeys]) hpre hfail
        rcases List.mem_append.mp hk' with hk' | hk'
        · exact .trailInUse hop ⟨k', hk', has_env h₂.env hused⟩
        -- The update holds the row, so it is pending, and the ledger has no decision of it.
        · rw [List.mem_singleton.mp hk', ← Store.key?_isSome, hdecided.key?_eq_none h₁ d k] at hused
          cases hused

theorem get_refuses {id : String} (hop : call.operation = .get id) (hev : σ₀.Evolves σ) :
    Ensures (endpoint app call P document []) (Refuses app call σ₀ call.Leaves) [] σ := by
  have hid : call.operation.requestId? = some id := by rw [hop]; rfl
  unfold endpoint
  rw [hop]
  refine Ensures.answer_refuses (f := fun r => ⟨200, .request (.ofEntity r)⟩) (Wp.bind ?_)
  refine get_listed_wp approves_approvalDiscipline (by simp [NoInserts]) ?_ ?_
  · intro σ₁ σ₂ h₁ hnone _ σ₃ _
    exact .notFound hid ((hev.trans (approves_approvalDiscipline.env h₁.env)).request?_none hnone)
  · exact fun σ₁ σ₂ row _ _ _ σ₃ _ => rfl

theorem selectinload_refuses (order : RowOrder) (rows : List ApprovalRequestRow) (σ : Store) :
    Ensures (selectinload order rows []) (Refuses app call σ₀ NothingLeft) [] σ := by
  cases rows with
  | nil => exact fun _ _ => rfl
  | cons row rows => exact Wp.read (fun _ => rfl) fun _ _ => fun _ _ => rfl

theorem list_refuses {status : Option String} {limit offset : QueryInt}
    (hop : call.operation = .list status limit offset)
    (hdoc : call.operation.body.document? = some document) :
    Ensures (endpoint app call P document []) (Refuses app call σ₀ call.Leaves) [] σ := by
  unfold endpoint
  rw [hop]
  dsimp only
  rw [orRequestValidationError_bind]
  split
  · rename_i params hparams
    obtain ⟨filter, l, o⟩ := params
    refine Ensures.answer_refuses (f := fun r : List ApprovalRequest × Nat =>
      ⟨200, .list ⟨r.1.map ApprovalRequestOut.ofEntity, r.2, l, o⟩⟩) ?_
    rw [listRequests_eq]
    refine Wp.read (fun _ => rfl) fun σ₁ _ => Wp.read (fun _ => rfl) fun σ₂ _ => ?_
    exact Ensures.bind_refuses (selectinload_refuses _ _ σ₂) fun p δ σ hp => fun _ _ => hp
  · rename_i errors hparams
    refine .throw_refuses (.invalid hdoc ?_)
    rw [hop, Operation.errors?, listParameters, hparams]
    rfl

/-! ## Whole calls -/

/-- The caller passes, or it is refused. -/
theorem requireAction_refuses {Q : Except Exn (Principal × List NewRow) → List Write → Store → Prop}
    (hok : ∀ P σ₁, call.By app P → σ.Evolves σ₁ → Q (.ok (P, [])) [] σ₁)
    (herr : ∀ e σ₁, call.caller app = .error e → Q (.error e) [] σ₁) :
    Ensures (requireAction call.operation.requiredAction app.provider call.authorization
      call.workspaceId []) Q [] σ := by
  have hraise : ∀ record e, call.caller app = .error e →
      Ensures (.exec (.log record) fun _ => .throw e) Q [] σ :=
    fun record e h => Wp.read (fun _ => rfl) fun _ _ => fun σ₂ _ => herr e σ₂ h
  rw [requireAction_eq]
  unfold Call.caller at hraise herr
  cases hauth : app.provider.authenticate call.authorization with
  | error e =>
    rw [hauth] at hraise herr
    cases e with
    | invalidCredentials message => exact hraise _ _ rfl
    | other detail => exact fun σ₁ _ => herr _ σ₁ rfl
  | ok P =>
    rw [hauth] at hraise herr
    dsimp only at hraise herr ⊢
    split_ifs at hraise herr ⊢ with hws haction
    · exact hraise _ _ rfl
    · exact hraise _ _ rfl
    · exact fun σ₁ h₁ => hok P σ₁ ⟨hauth, not_not.mp hws, by simpa using haction⟩
        (approves_approvalDiscipline.env h₁.env)

theorem endpoint_refuses (hby : call.By app P)
    (hdoc : call.operation.body.document? = some document) (hev : σ₀.Evolves σ) :
    Ensures (endpoint app call P document []) (Refuses app call σ₀ call.Leaves) [] σ := by
  cases hop : call.operation with
  | create key body => exact create_refuses hop hdoc hev
  | list status limit offset => exact list_refuses hop hdoc
  | get id => exact get_refuses hop hev
  | decide d id key body => exact decide_refuses hby hop hdoc hev

theorem handle_refuses (app : App) (call : Call) (σ : Store) :
    Ensures (handle app call []) (Refuses app call σ call.Leaves) [] σ := by
  unfold handle
  rw [tx_bind, parseBody_eq]
  cases hdoc : call.operation.body.document? with
  | none =>
    have hrefusal := fun σ₁ => @Refusal.unreadable app call σ σ₁ hdoc
    unfold RawBody.syntaxError at hrefusal
    cases hbody : call.operation.body with
    | absent => rw [hbody] at hdoc; cases hdoc
    | malformed pos => rw [hbody] at hrefusal; exact fun σ₁ _ => hrefusal σ₁
    | json document => rw [hbody] at hdoc; cases hdoc
  | some document =>
    simp only [Prog.bind]
    rw [tx_bind]
    refine Wp.bind (requireAction_refuses ?_ fun e σ₁ h => .denied h)
    exact fun P σ₁ hby hev => endpoint_refuses hby hdoc hev

/-- The flush after the answer. -/
theorem exit_refuses {p : Answer × List NewRow} {δ : List Write} (h : call.Leaves p δ σ) :
    Ensures (insertAll p.2) (OnError fun _ σ => call.TrailInUse σ) δ σ := by
  refine insertAll_wp (fun _ _ => trivial) (fun σ => call.Leaves p δ σ)
    (fun _ he h => h.evolves (approves_approvalDiscipline.envStep he)) h (fun _ _ _ => trivial) ?_
  intro pre row σ₁ σ₂ hpre _ hleaves hfail h₂
  rcases hleaves with hnone | ⟨d, id, body, hop, hdecided⟩
  · rw [hnone] at hpre
    simp at hpre
  · obtain ⟨k, hk, hused⟩ := hdecided.exists_used [] (Eq.refl call.trailKeys)
      (by simp [Call.trailKeys]) (by simpa using hpre) hfail
    exact ⟨⟨d, id, body, hop⟩, k, hk, has_env h₂.env hused⟩

/-- **Every exception of a call has one of the reasons.** -/
theorem request_refuses (app : App) (call : Call) (σ : Store) :
    Ensures (request app call) (OnErrors approvalDiscipline (fun e σ₁ => Refusal app call σ σ₁ e)
      fun _ σ₁ => call.TrailInUse σ₁) [] σ := by
  refine Wp.bind ((handle_refuses app call σ).mono fun r δ σ₁ _ _ _ hr => ?_)
  cases r with
  | error e => exact hr
  | ok p => exact fun σ₂ h₂ => exit_refuses (hr.evolves (approves_approvalDiscipline.env h₂.env))

end Wp

end ContentApproval
