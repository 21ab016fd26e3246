import ContentApproval.Db.Repository

/-!
# The approval service

Creating, reading and deciding approval requests. The three decisions are one function
with the entitlement check, the new status and the texts of the trail as parameters
(`Decision`); `approveRequest`, `rejectRequest` and `cancelRequest` are its instances.
-/

namespace ContentApproval

open SqlApprovalRequestRepository

/-- The three ways to decide a request. -/
inductive Decision
  | approve
  | reject
  | cancel
  deriving DecidableEq

namespace Decision

def newStatus : Decision → ApprovalStatus
  | approve => .approved
  | reject => .rejected
  | cancel => .cancelled

def auditAction : Decision → AuditAction
  | approve => .approved
  | reject => .rejected
  | cancel => .cancelled

def eventType : Decision → OutboxEventType
  | approve => .approvalRequestApproved
  | reject => .approvalRequestRejected
  | cancel => .approvalRequestCancelled

end Decision

namespace ApprovalService

def logger : String := "app.domain.service"

def createRequest (env : Env) (workspaceId createdByUserId : String) (sourceType : SourceType)
    (sourceId title : String) (description : Option String) (reviewerUserIds : List String) :
    Tx ApprovalRequest := do
  let requestId := env.requestId
  let request ← create env requestId workspaceId createdByUserId sourceType sourceId title
    description reviewerUserIds
  recordAuditEntry env workspaceId requestId createdByUserId .created
    (some (.obj [("title", .str title), ("source_type", .str sourceType.value),
      ("source_id", .str sourceId)]))
  recordOutboxEvent env workspaceId requestId OutboxEventType.approvalRequestCreated.value
    (.obj [("id", .str requestId), ("workspace_id", .str workspaceId),
      ("source_type", .str sourceType.value), ("source_id", .str sourceId),
      ("status", .str request.status.value),
      ("reviewer_user_ids", .arr (reviewerUserIds.map .str))])
  logRecord ⟨.info, logger, "approval request created",
    [("workspace_id", workspaceId), ("request_id", requestId), ("actor_user_id", createdByUserId)],
    none⟩
  return request

/-- `_get_or_raise` -/
def getOrRaise (env : Env) (workspaceId requestId : String) : Tx ApprovalRequest := do
  match ← get env 0 workspaceId requestId with
  | none => throw (.approvalRequestNotFoundError requestId)
  | some request => return request

def getRequest (env : Env) (workspaceId requestId : String) : Tx ApprovalRequest :=
  getOrRaise env workspaceId requestId

def listRequests (env : Env) (workspaceId : String) (status : Option ApprovalStatus)
    (limit offset : Nat) : Tx (List ApprovalRequest × Nat) :=
  list env workspaceId status limit offset

/-- `_require_reviewer` -/
def requireReviewer (request : ApprovalRequest) (actorUserId : String) : Tx Unit :=
  if request.reviewerUserIds ≠ [] ∧ actorUserId ∉ request.reviewerUserIds then
    throw (.notAuthorizedForDecisionError request.id actorUserId
      "user is not a listed reviewer for this request")
  else pure ()

/-- The check of `cancel_request`. -/
def requireCreator (requestId : String) (request : ApprovalRequest) (actorUserId : String) :
    Tx Unit :=
  if actorUserId ≠ request.createdByUserId then
    throw (.notAuthorizedForDecisionError requestId actorUserId
      "only the request's creator can cancel it")
  else pure ()

/-- The check that a decision makes on the request it was called for. -/
def requireEntitled (requestId : String) (request : ApprovalRequest) (actorUserId : String) :
    Decision → Tx Unit
  | .approve => requireReviewer request actorUserId
  | .reject => requireReviewer request actorUserId
  | .cancel => requireCreator requestId request actorUserId

/-- `details` of the audit entry of a decision: the comment and the reason that are not
`None`, or `None`. -/
def decisionDetails (comment reason : Option String) : Option Json :=
  match comment, reason with
  | none, none => none
  | some c, none => some (.obj [("comment", .str c)])
  | none, some r => some (.obj [("reason", .str r)])
  | some c, some r => some (.obj [("comment", .str c), ("reason", .str r)])

/-- `payload` of the event of a decision. -/
def decisionPayload (workspaceId requestId : String) (status : ApprovalStatus)
    (actorUserId : String) : Json :=
  .obj [("id", .str requestId), ("workspace_id", .str workspaceId),
    ("status", .str status.value), ("decided_by_user_id", .str actorUserId)]

/-- `_decide` -/
def decideInternal (env : Env) (workspaceId requestId : String) (newStatus : ApprovalStatus)
    (actorUserId : String) (comment reason : Option String) (auditAction : AuditAction)
    (eventType : OutboxEventType) : Tx ApprovalRequest := do
  let updated ← transition env workspaceId requestId newStatus actorUserId comment reason
  recordAuditEntry env workspaceId requestId actorUserId auditAction
    (decisionDetails comment reason)
  recordOutboxEvent env workspaceId requestId eventType.value
    (decisionPayload workspaceId requestId updated.status actorUserId)
  logRecord ⟨.info, logger, "approval request " ++ auditAction.value,
    [("workspace_id", workspaceId), ("request_id", requestId), ("actor_user_id", actorUserId),
      ("new_status", updated.status.value)], none⟩
  return updated

/-- What `approve_request`, `reject_request` and `cancel_request` have in common. -/
def decideRequest (env : Env) (decision : Decision) (workspaceId requestId actorUserId : String)
    (comment reason : Option String) : Tx ApprovalRequest := do
  let request ← getOrRaise env workspaceId requestId
  requireEntitled requestId request actorUserId decision
  decideInternal env workspaceId requestId decision.newStatus actorUserId comment reason
    decision.auditAction decision.eventType

def approveRequest (env : Env) (workspaceId requestId actorUserId : String)
    (comment : Option String) : Tx ApprovalRequest :=
  decideRequest env .approve workspaceId requestId actorUserId comment none

def rejectRequest (env : Env) (workspaceId requestId actorUserId reason : String) :
    Tx ApprovalRequest :=
  decideRequest env .reject workspaceId requestId actorUserId none (some reason)

def cancelRequest (env : Env) (workspaceId requestId actorUserId reason : String) :
    Tx ApprovalRequest :=
  decideRequest env .cancel workspaceId requestId actorUserId none (some reason)

end ApprovalService

end ContentApproval
