import ContentApproval.Domain.Entities

/-!
# The tables

The rows of the five tables, the store they make up, and the keys that the tables
enforce.
-/

namespace ContentApproval

/-- A row of `approval_requests`. -/
structure ApprovalRequestRow where
  id : String
  workspaceId : String
  sourceType : SourceType
  sourceId : String
  title : String
  description : Option String
  status : ApprovalStatus
  createdByUserId : String
  createdAt : Instant
  updatedAt : Instant
  decidedByUserId : Option String
  decidedAt : Option Instant
  decisionComment : Option String
  decisionReason : Option String
  deriving DecidableEq

structure ApprovalRequestReviewer where
  workspaceId : String
  approvalRequestId : String
  reviewerUserId : String
  deriving DecidableEq

structure AuditLogEntry where
  id : String
  workspaceId : String
  approvalRequestId : String
  actorUserId : String
  action : AuditAction
  details : Option Json
  createdAt : Instant

structure OutboxEvent where
  id : String
  workspaceId : String
  approvalRequestId : String
  eventType : String
  payload : Json
  createdAt : Instant
  publishedAt : Option Instant

structure IdempotencyKey where
  workspaceId : String
  route : String
  idempotencyKey : String
  requestFingerprint : String
  responseStatus : Nat
  responseBody : Json
  createdAt : Instant

/-- The committed content of the database. -/
structure Store where
  approvalRequests : List ApprovalRequestRow
  approvalRequestReviewers : List ApprovalRequestReviewer
  auditLogEntries : List AuditLogEntry
  outboxEvents : List OutboxEvent
  idempotencyKeys : List IdempotencyKey

def Store.empty : Store := ⟨[], [], [], [], []⟩

/-! ## Rows to insert and their keys -/

/-- A new row of one of the tables. -/
inductive NewRow
  | approvalRequest (row : ApprovalRequestRow)
  | reviewer (row : ApprovalRequestReviewer)
  | auditLogEntry (row : AuditLogEntry)
  | outboxEvent (row : OutboxEvent)
  | idempotencyKey (row : IdempotencyKey)

/-- The primary key of a row, with its table. -/
inductive PrimaryKey
  | approvalRequest (id : String)
  | reviewer (workspaceId approvalRequestId reviewerUserId : String)
  | auditLogEntry (id : String)
  | outboxEvent (id : String)
  | idempotencyKey (workspaceId route idempotencyKey : String)
  deriving DecidableEq

namespace NewRow

def primaryKey : NewRow → PrimaryKey
  | approvalRequest row => .approvalRequest row.id
  | reviewer row => .reviewer row.workspaceId row.approvalRequestId row.reviewerUserId
  | auditLogEntry row => .auditLogEntry row.id
  | outboxEvent row => .outboxEvent row.id
  | idempotencyKey row => .idempotencyKey row.workspaceId row.route row.idempotencyKey

/-- The composite foreign key `(workspace_id, approval_request_id)` of the child tables. -/
def foreignKey : NewRow → Option (String × String)
  | approvalRequest _ => none
  | reviewer row => some (row.workspaceId, row.approvalRequestId)
  | auditLogEntry row => some (row.workspaceId, row.approvalRequestId)
  | outboxEvent row => some (row.workspaceId, row.approvalRequestId)
  | idempotencyKey _ => none

def workspaceId : NewRow → String
  | approvalRequest row => row.workspaceId
  | reviewer row => row.workspaceId
  | auditLogEntry row => row.workspaceId
  | outboxEvent row => row.workspaceId
  | idempotencyKey row => row.workspaceId

end NewRow

namespace Store

/-- The store has a row with this primary key. -/
def has (σ : Store) : PrimaryKey → Bool
  | .approvalRequest id => σ.approvalRequests.any (fun r => r.id == id)
  | .reviewer workspaceId approvalRequestId reviewerUserId =>
    σ.approvalRequestReviewers.any (fun r => r.workspaceId == workspaceId &&
      r.approvalRequestId == approvalRequestId && r.reviewerUserId == reviewerUserId)
  | .auditLogEntry id => σ.auditLogEntries.any (fun r => r.id == id)
  | .outboxEvent id => σ.outboxEvents.any (fun r => r.id == id)
  | .idempotencyKey workspaceId route idempotencyKey =>
    σ.idempotencyKeys.any (fun r => r.workspaceId == workspaceId && r.route == route &&
      r.idempotencyKey == idempotencyKey)

/-- The row that `(workspace_id, id)` names. -/
def request? (σ : Store) (workspaceId id : String) : Option ApprovalRequestRow :=
  σ.approvalRequests.find? (fun r => r.workspaceId == workspaceId && r.id == id)

/-- The reviewers of one request. -/
def reviewersOf (σ : Store) (workspaceId id : String) : List ApprovalRequestReviewer :=
  σ.approvalRequestReviewers.filter
    (fun r => r.workspaceId == workspaceId && r.approvalRequestId == id)

/-- The ledger row with this primary key. -/
def key? (σ : Store) (workspaceId route idempotencyKey : String) : Option IdempotencyKey :=
  σ.idempotencyKeys.find? (fun r => r.workspaceId == workspaceId && r.route == route &&
    r.idempotencyKey == idempotencyKey)

def insert (σ : Store) : NewRow → Store
  | .approvalRequest row => { σ with approvalRequests := σ.approvalRequests ++ [row] }
  | .reviewer row => { σ with approvalRequestReviewers := σ.approvalRequestReviewers ++ [row] }
  | .auditLogEntry row => { σ with auditLogEntries := σ.auditLogEntries ++ [row] }
  | .outboxEvent row => { σ with outboxEvents := σ.outboxEvents ++ [row] }
  | .idempotencyKey row => { σ with idempotencyKeys := σ.idempotencyKeys ++ [row] }

end Store

/-! ## Updates -/

/-- The columns that the `UPDATE` of a decision sets. -/
structure DecisionValues where
  status : ApprovalStatus
  decidedByUserId : String
  decidedAt : Instant
  decisionComment : Option String
  decisionReason : Option String
  updatedAt : Instant

def ApprovalRequestRow.decided (row : ApprovalRequestRow) (values : DecisionValues) :
    ApprovalRequestRow :=
  { row with
    status := values.status
    decidedByUserId := some values.decidedByUserId
    decidedAt := some values.decidedAt
    decisionComment := values.decisionComment
    decisionReason := values.decisionReason
    updatedAt := values.updatedAt }

def Store.update (σ : Store) (workspaceId id : String) (values : DecisionValues) : Store :=
  { σ with
    approvalRequests := σ.approvalRequests.map (fun r =>
      if r.workspaceId = workspaceId ∧ r.id = id then r.decided values else r) }

/-! ## How the tables change -/

namespace Store

variable (σ : Store)

theorem has_insert (row : NewRow) (k : PrimaryKey) :
    (σ.insert row).has k = (σ.has k || row.primaryKey == k) := by
  cases row <;> cases k <;>
    simp [insert, has, NewRow.primaryKey, List.any_append, Bool.beq_eq_decide_eq,
      Bool.and_assoc, Bool.decide_and]

@[simp] theorem has_update (ws id : String) (values : DecisionValues) (k : PrimaryKey) :
    (σ.update ws id values).has k = σ.has k := by
  cases k <;> simp only [update, has, List.any_map]
  congr 1
  funext r
  simp only [Function.comp_apply]
  split <;> rfl

theorem request?_update (ws id ws' id' : String) (values : DecisionValues) :
    (σ.update ws id values).request? ws' id' =
      (σ.request? ws' id').map
        (fun r => if ws' = ws ∧ id' = id then r.decided values else r) := by
  simp only [update, request?, List.find?_map]
  have hcomp : ((fun r : ApprovalRequestRow => r.workspaceId == ws' && r.id == id') ∘
      fun r => if r.workspaceId = ws ∧ r.id = id then r.decided values else r) =
      fun r => r.workspaceId == ws' && r.id == id' := by
    funext r
    simp only [Function.comp_apply]
    split <;> rfl
  rw [hcomp]
  cases hfind : List.find? _ σ.approvalRequests with
  | none => rfl
  | some r =>
    have hr := List.find?_some hfind
    simp only [Bool.and_eq_true, beq_iff_eq] at hr
    simp [hr.1, hr.2]

@[simp] theorem reviewersOf_update (ws id : String) (values : DecisionValues) :
    (σ.update ws id values).reviewersOf = σ.reviewersOf := rfl

@[simp] theorem key?_update (ws id : String) (values : DecisionValues) :
    (σ.update ws id values).key? = σ.key? := rfl

theorem request?_some {σ : Store} {ws id : String} {r : ApprovalRequestRow}
    (h : σ.request? ws id = some r) :
    r ∈ σ.approvalRequests ∧ r.workspaceId = ws ∧ r.id = id := by
  have hr := List.find?_some h
  simp only [Bool.and_eq_true, beq_iff_eq] at hr
  exact ⟨List.mem_of_find?_eq_some h, hr⟩

theorem key?_some {σ : Store} {ws route key : String} {r : IdempotencyKey}
    (h : σ.key? ws route key = some r) :
    r ∈ σ.idempotencyKeys ∧ r.workspaceId = ws ∧ r.route = route ∧ r.idempotencyKey = key := by
  have hr := List.find?_some h
  simp only [Bool.and_eq_true, beq_iff_eq] at hr
  exact ⟨List.mem_of_find?_eq_some h, hr.1.1, hr.1.2, hr.2⟩

theorem key?_isSome (ws route key : String) :
    (σ.key? ws route key).isSome = σ.has (.idempotencyKey ws route key) := by
  rw [Bool.eq_iff_iff, key?, has, List.find?_isSome, List.any_eq_true]

end Store

end ContentApproval
