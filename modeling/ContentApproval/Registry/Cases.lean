import ContentApproval.Api.ApprovalRequests

/-!
# The registry of cases

What the service is for, without tables and transactions: a registry of cases. A case is
filed once (`Creation`) and settled at most once (`Verdict`), by somebody entitled to
the decision; nothing else ever happens to it (`Registry.Step`). Each case determines
the rows that the five tables have for it.

* `Registry.Steps.grows`: along any run of the registry no case is lost, changes its
  creation, or gets a second verdict.
-/

namespace ContentApproval

open SqlApprovalRequestRepository

/-! ## Filing a case -/

/-- What a create call was accepted with. -/
structure Creation where
  env : Env
  workspaceId : String
  actorUserId : String
  payload : ApprovalRequestCreate
  idempotencyKey : String
  fingerprint : String
  accepted : ∃ fields, ApprovalRequestCreate.modelValidate fields = .ok payload

namespace Creation

variable (c : Creation)

def requestId : String := c.env.requestId

/-- The row that the create inserts. -/
def row : ApprovalRequestRow where
  id := c.requestId
  workspaceId := c.workspaceId
  sourceType := c.payload.sourceType
  sourceId := c.payload.sourceId
  title := c.payload.title
  description := c.payload.description
  status := .pending
  createdByUserId := c.actorUserId
  createdAt := c.env.createdAt
  updatedAt := c.env.updatedAt
  decidedByUserId := none
  decidedAt := none
  decisionComment := none
  decisionReason := none

def reviewerRows : List ApprovalRequestReviewer :=
  c.payload.reviewerUserIds.map (fun id => ⟨c.workspaceId, c.requestId, id⟩)

/-- The response of the create. -/
def out : ApprovalRequestOut :=
  .ofEntity (toEntity fresh c.row c.payload.reviewerUserIds)

def auditEntry : AuditLogEntry where
  id := c.env.auditId
  workspaceId := c.workspaceId
  approvalRequestId := c.requestId
  actorUserId := c.actorUserId
  action := .created
  details := some (.obj [("title", .str c.payload.title),
    ("source_type", .str c.payload.sourceType.value), ("source_id", .str c.payload.sourceId)])
  createdAt := c.env.auditCreatedAt

def event : OutboxEvent where
  id := c.env.eventId
  workspaceId := c.workspaceId
  approvalRequestId := c.requestId
  eventType := OutboxEventType.approvalRequestCreated.value
  payload := .obj [("id", .str c.requestId), ("workspace_id", .str c.workspaceId),
    ("source_type", .str c.payload.sourceType.value), ("source_id", .str c.payload.sourceId),
    ("status", .str ApprovalStatus.pending.value),
    ("reviewer_user_ids", .arr (c.payload.reviewerUserIds.map .str))]
  createdAt := c.env.eventCreatedAt
  publishedAt := none

def ledgerRow : IdempotencyKey where
  workspaceId := c.workspaceId
  route := "create"
  idempotencyKey := c.idempotencyKey
  requestFingerprint := c.fingerprint
  responseStatus := 201
  responseBody := c.out.modelDump
  createdAt := c.env.keyCreatedAt

/-- Everything the create writes, in the order of the statements. -/
def newRows : List NewRow :=
  .approvalRequest c.row :: (c.reviewerRows.map .reviewer ++
    [.auditLogEntry c.auditEntry, .outboxEvent c.event, .idempotencyKey c.ledgerRow])

def writes : List Write := c.newRows.map .insert

end Creation

/-! ## Settling a case -/

/-- The comment and the reason that an accepted body of the decision gives. -/
def Decision.Accepts (comment reason : Option String) : Decision → Prop
  | approve => reason = none ∧
    ∃ fields, ApproveRequest.modelValidate fields = .ok ⟨comment⟩
  | reject => comment = none ∧ ∃ r fields, reason = some r ∧
    DecisionReasonRequest.modelValidate fields = .ok ⟨r⟩
  | cancel => comment = none ∧ ∃ r fields, reason = some r ∧
    DecisionReasonRequest.modelValidate fields = .ok ⟨r⟩

/-- Who may take the decision on a request with this creator and these reviewers. -/
def Decision.Entitled (createdByUserId : String) (reviewerUserIds : List String)
    (actorUserId : String) : Decision → Prop
  | approve => reviewerUserIds = [] ∨ actorUserId ∈ reviewerUserIds
  | reject => reviewerUserIds = [] ∨ actorUserId ∈ reviewerUserIds
  | cancel => actorUserId = createdByUserId

/-- Why somebody who is not entitled to the decision is refused. -/
def Decision.refusal : Decision → String
  | approve => "user is not a listed reviewer for this request"
  | reject => "user is not a listed reviewer for this request"
  | cancel => "only the request's creator can cancel it"

/-- What a decision call was accepted with, the order in which its response lists the
reviewers, and its key and fingerprint, if it has one. -/
structure Verdict where
  env : Env
  decision : Decision
  actorUserId : String
  comment : Option String
  reason : Option String
  shown : List String
  key : Option (String × String)
  accepted : decision.Accepts comment reason

namespace Verdict

variable (v : Verdict)

def values : DecisionValues where
  status := v.decision.newStatus
  decidedByUserId := v.actorUserId
  decidedAt := v.env.decidedAt
  decisionComment := v.comment
  decisionReason := v.reason
  updatedAt := v.env.decidedAt

/-- The response of the decision on the request that had this row. -/
def out (row : ApprovalRequestRow) : ApprovalRequestOut :=
  .ofEntity (toEntity v.env.dialect.load (row.decided v.values) v.shown)

variable (workspaceId requestId : String)

def auditEntry : AuditLogEntry where
  id := v.env.auditId
  workspaceId := workspaceId
  approvalRequestId := requestId
  actorUserId := v.actorUserId
  action := v.decision.auditAction
  details := ApprovalService.decisionDetails v.comment v.reason
  createdAt := v.env.auditCreatedAt

def event : OutboxEvent where
  id := v.env.eventId
  workspaceId := workspaceId
  approvalRequestId := requestId
  eventType := v.decision.eventType.value
  payload := ApprovalService.decisionPayload workspaceId requestId v.decision.newStatus
    v.actorUserId
  createdAt := v.env.eventCreatedAt
  publishedAt := none

/-- The ledger row of the decision, if it has a key. -/
def ledgerRow? (row : ApprovalRequestRow) : Option IdempotencyKey :=
  v.key.map (fun (key, fingerprint) =>
    { workspaceId := workspaceId
      route := v.decision.route requestId
      idempotencyKey := key
      requestFingerprint := fingerprint
      responseStatus := 200
      responseBody := (v.out row).modelDump
      createdAt := v.env.keyCreatedAt })

/-- The rows that the decision inserts, in the order of the statements. -/
def newRows (row : ApprovalRequestRow) : List NewRow :=
  .auditLogEntry (v.auditEntry workspaceId requestId) ::
    .outboxEvent (v.event workspaceId requestId) ::
      (v.ledgerRow? workspaceId requestId row).toList.map .idempotencyKey

/-- Everything the decision writes. -/
def writes (row : ApprovalRequestRow) : List Write :=
  .update workspaceId requestId v.values :: (v.newRows workspaceId requestId row).map .insert

end Verdict

/-! ## Cases -/

/-- A case: filed, and perhaps settled by somebody entitled to it. -/
structure Case where
  creation : Creation
  verdict : Option Verdict
  entitled : ∀ v ∈ verdict, v.decision.Entitled creation.actorUserId
    creation.payload.reviewerUserIds v.actorUserId
  shown : ∀ v ∈ verdict, v.shown.Perm creation.payload.reviewerUserIds

namespace Case

variable (k : Case)

def workspaceId : String := k.creation.workspaceId

def requestId : String := k.creation.requestId

/-- The row of the case. -/
def row : ApprovalRequestRow :=
  match k.verdict with
  | none => k.creation.row
  | some v => k.creation.row.decided v.values

def auditEntries : List AuditLogEntry :=
  k.creation.auditEntry :: k.verdict.toList.map (fun v => v.auditEntry k.workspaceId k.requestId)

def events : List OutboxEvent :=
  k.creation.event :: k.verdict.toList.map (fun v => v.event k.workspaceId k.requestId)

def ledgerRows : List IdempotencyKey :=
  k.creation.ledgerRow :: k.verdict.toList.flatMap
    (fun v => (v.ledgerRow? k.workspaceId k.requestId k.creation.row).toList)

/-- A case that was only filed. -/
def filed (c : Creation) : Case := ⟨c, none, by simp, by simp⟩

/-- The case after the verdict. -/
def settled (c : Creation) (v : Verdict)
    (entitled : v.decision.Entitled c.actorUserId c.payload.reviewerUserIds v.actorUserId)
    (shown : v.shown.Perm c.payload.reviewerUserIds) : Case :=
  ⟨c, some v, by rintro _ ⟨⟩; exact entitled, by rintro _ ⟨⟩; exact shown⟩

@[simp] theorem row_id : k.row.id = k.requestId := by
  unfold row
  split <;> rfl

@[simp] theorem row_workspaceId : k.row.workspaceId = k.workspaceId := by
  unfold row
  split <;> rfl

@[simp] theorem row_createdByUserId : k.row.createdByUserId = k.creation.actorUserId := by
  unfold row
  split <;> rfl

theorem newStatus_ne_pending (d : Decision) : d.newStatus ≠ .pending := by
  cases d <;> decide

theorem status_pending : k.row.status = .pending ↔ k.verdict = none := by
  unfold row
  split
  · rename_i h
    simp [h, Creation.row]
  · rename_i v h
    simp only [h, reduceCtorEq, iff_false]
    exact newStatus_ne_pending v.decision

theorem row_settled {k : Case} {v : Verdict} (h : k.verdict = some v) :
    k.row = k.creation.row.decided v.values := by
  unfold row
  rw [h]

theorem eq_filed {k : Case} (h : k.verdict = none) : k = filed k.creation := by
  obtain ⟨c, v, _, _⟩ := k
  obtain rfl : v = none := h
  rfl

end Case

/-! ## The registry -/

/-- All cases, in the order they were filed. -/
abbrev Registry := List Case

/-- One step of the registry. -/
inductive Registry.Step : Registry → Registry → Prop
  | stay (cases : Registry) : Step cases cases
  | file (cases : Registry) (c : Creation) : Step cases (cases ++ [Case.filed c])
  | settle (before after : Registry) (c : Creation) (v : Verdict) (entitled shown) :
    Step (before ++ Case.filed c :: after) (before ++ Case.settled c v entitled shown :: after)

/-- A case after some time. -/
structure Case.Becomes (k k' : Case) : Prop where
  creation : k'.creation = k.creation
  verdict : ∀ v, k.verdict = some v → k'.verdict = some v

theorem Case.Becomes.refl (k : Case) : k.Becomes k := ⟨rfl, fun _ => id⟩

theorem Case.Becomes.trans {k k' k'' : Case} (h : k.Becomes k') (h' : k'.Becomes k'') :
    k.Becomes k'' :=
  ⟨h'.creation.trans h.creation, fun v hv => h'.verdict v (h.verdict v hv)⟩

/-- The registry after some time: the old cases in their places, then newer ones. -/
def Registry.Grows (cases cases' : Registry) : Prop :=
  ∃ old new, cases' = old ++ new ∧ List.Forall₂ Case.Becomes cases old

theorem Registry.Grows.refl (cases : Registry) : Grows cases cases :=
  ⟨cases, [], by simp, List.forall₂_same.mpr fun k _ => .refl k⟩

theorem Case.Becomes.forall₂_trans {a b c : Registry} (h : List.Forall₂ Case.Becomes a b)
    (h' : List.Forall₂ Case.Becomes b c) : List.Forall₂ Case.Becomes a c := by
  induction h generalizing c with
  | nil => exact h'
  | cons hab _ ih =>
    cases h' with
    | cons hbc hrest => exact .cons (hab.trans hbc) (ih hrest)

theorem Registry.Grows.trans {a b c : Registry} (h : Grows a b) (h' : Grows b c) : Grows a c := by
  obtain ⟨old, new, rfl, hold⟩ := h
  obtain ⟨old', new', rfl, hold'⟩ := h'
  obtain ⟨old₁, old₂, rfl, h1, h2⟩ : ∃ old₁ old₂, old' = old₁ ++ old₂ ∧
      List.Forall₂ Case.Becomes old old₁ ∧ List.Forall₂ Case.Becomes new old₂ :=
    ⟨old'.take old.length, old'.drop old.length, by simp,
      (List.forall₂_take_append _ _ _ hold'.flip).flip,
      (List.forall₂_drop_append _ _ _ hold'.flip).flip⟩
  exact ⟨old₁, old₂ ++ new', by simp, Case.Becomes.forall₂_trans hold h1⟩

theorem Registry.Step.grows {cases cases' : Registry} (h : Step cases cases') :
    Grows cases cases' := by
  have hsame : ∀ l : Registry, List.Forall₂ Case.Becomes l l :=
    fun l => List.forall₂_same.mpr fun k _ => .refl k
  cases h with
  | stay => exact .refl _
  | file _ c => exact ⟨cases, [Case.filed c], rfl, hsame cases⟩
  | settle before after c v entitled shown =>
    refine ⟨_, [], (List.append_nil _).symm, List.rel_append (hsame before) (.cons ?_ (hsame after))⟩
    exact ⟨rfl, fun _ h => by cases h⟩

/-- **Nothing else ever happens to a case.** -/
theorem Registry.Steps.grows {cases cases' : Registry}
    (h : Relation.ReflTransGen Step cases cases') : Grows cases cases' := by
  induction h with
  | refl => exact .refl _
  | tail _ hs ih => exact ih.trans hs.grows

/-- A case of the registry is still there after some time. -/
theorem Registry.Grows.mem {cases cases' : Registry} (h : Grows cases cases') {k : Case}
    (hk : k ∈ cases) : ∃ k' ∈ cases', k.Becomes k' := by
  obtain ⟨old, new, rfl, hold⟩ := h
  obtain ⟨i, hi, rfl⟩ := List.getElem_of_mem hk
  have hlen := hold.length_eq
  exact ⟨old[i], List.mem_append_left _ (List.getElem_mem _), (List.forall₂_iff_get.mp hold).2 i hi
    (hlen ▸ hi)⟩

end ContentApproval
