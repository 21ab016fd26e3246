import ContentApproval.Time.Instant
import ContentApproval.Json.Strict

/-!
# The domain of the approval service

The enumerations with the values they are stored and sent as, the entity
`ApprovalRequest`, entity ids, log records, validation errors, and every exception a request
can end in.
-/

namespace ContentApproval

/-! ## Enumerations -/

inductive SourceType
  | publication
  | scenario
  | edit
  | external
  deriving DecidableEq

namespace SourceType

def value : SourceType → String
  | publication => "publication"
  | scenario => "scenario"
  | edit => "edit"
  | external => "external"

def ofValue? (s : String) : Option SourceType :=
  [publication, scenario, edit, external].find? (fun t => t.value == s)

@[simp] theorem ofValue?_value (t : SourceType) : ofValue? t.value = some t := by
  cases t <;> rfl

theorem value_inj {t u : SourceType} (h : t.value = u.value) : t = u :=
  Option.some.inj (by rw [← ofValue?_value t, h, ofValue?_value])

end SourceType

inductive ApprovalStatus
  | pending
  | approved
  | rejected
  | cancelled
  deriving DecidableEq

namespace ApprovalStatus

def value : ApprovalStatus → String
  | pending => "pending"
  | approved => "approved"
  | rejected => "rejected"
  | cancelled => "cancelled"

def ofValue? (s : String) : Option ApprovalStatus :=
  [pending, approved, rejected, cancelled].find? (fun t => t.value == s)

@[simp] theorem ofValue?_value (t : ApprovalStatus) : ofValue? t.value = some t := by
  cases t <;> rfl

def isFinal (t : ApprovalStatus) : Bool := t != pending

end ApprovalStatus

inductive AuditAction
  | created
  | approved
  | rejected
  | cancelled
  deriving DecidableEq

def AuditAction.value : AuditAction → String
  | created => "created"
  | approved => "approved"
  | rejected => "rejected"
  | cancelled => "cancelled"

inductive OutboxEventType
  | approvalRequestCreated
  | approvalRequestApproved
  | approvalRequestRejected
  | approvalRequestCancelled
  deriving DecidableEq

def OutboxEventType.value : OutboxEventType → String
  | approvalRequestCreated => "approval_request.created"
  | approvalRequestApproved => "approval_request.approved"
  | approvalRequestRejected => "approval_request.rejected"
  | approvalRequestCancelled => "approval_request.cancelled"

theorem OutboxEventType.value_inj {t u : OutboxEventType} (h : t.value = u.value) : t = u := by
  cases t <;> cases u <;> first | rfl | exact absurd h (by decide)

/-! ## The entity -/

/-- An approval request as the service and the API see it. -/
structure ApprovalRequest where
  id : String
  workspaceId : String
  sourceType : SourceType
  sourceId : String
  title : String
  description : Option String
  reviewerUserIds : List String
  status : ApprovalStatus
  createdByUserId : String
  createdAt : Instant
  updatedAt : Instant
  decidedByUserId : Option String
  decidedAt : Option Instant
  decisionComment : Option String
  decisionReason : Option String
  deriving DecidableEq

/-- `token` is what `secrets.token_hex(12)` gave. -/
def generateId (kind token : String) : String := kind ++ "_" ++ token

/-! ## Log records -/

inductive LogLevel
  | info
  | warning
  | error
  deriving DecidableEq

/-- What is handed to a logger: its level and message, the `context` it carries, and the
traceback of the exception that is being handled. -/
structure LogRecord where
  level : LogLevel
  logger : String
  message : String
  context : List (String × String)
  excInfo : Option String
  deriving DecidableEq

/-! ## Validation errors -/

/-- One step of the path to the value that failed validation. -/
inductive Loc
  | field (name : String)
  | index (n : Nat)
  deriving DecidableEq

/-- An error of the validation of a JSON document of Unicode text. -/
structure ErrorItem where
  type : String
  loc : List Loc
  msg : String
  input : Json

namespace Errors

/-- One component of the path of an error. -/
inductive LocItem
  | name (s : PyStr)
  | index (n : Nat)

/-- `str(item)` -/
def LocItem.text : LocItem → PyStr
  | name s => s
  | index n => PyStr.ofString (toString n)

/-- A value of the `ctx` of an error; of an exception only its message is kept here. -/
inductive CtxValue
  | value (v : PyValue)
  | exception (message : String)

/-- An item of `RequestValidationError.errors()`. -/
structure ErrorDetails where
  type : String
  loc : List LocItem
  msg : String
  input : Option PyValue
  ctx : Option (List (String × CtxValue))

def LocItem.ofLoc : Loc → LocItem
  | .field s => .name (PyStr.ofString s)
  | .index n => .index n

/-- An error of the validation of a JSON document; its `ctx` is dropped before it is shown. -/
def ErrorDetails.ofItem (item : ErrorItem) : ErrorDetails :=
  ⟨item.type, item.loc.map .ofLoc, item.msg, some (.ofJson item.input), none⟩

end Errors

/-! ## Exceptions -/

/-- What a request can end in instead of an answer. -/
inductive Exn
  | httpException (statusCode : Nat) (detail : String)
  | requestValidationError (errors : List Errors.ErrorDetails)
  | approvalRequestNotFoundError (requestId : String)
  | invalidTransitionError (requestId : String) (currentStatus : ApprovalStatus)
  | notAuthorizedForDecisionError (requestId actorUserId reason : String)
  | integrityError
  /-- Any other exception. -/
  | unexpected (detail : String)

namespace Exn

/-- The validation of a JSON document of Unicode text has failed. -/
def invalid (errors : List ErrorItem) : Exn := requestValidationError (errors.map .ofItem)

/-- The status code of the response that the exception handlers give. -/
def statusCode : Exn → Nat
  | httpException statusCode _ => statusCode
  | requestValidationError _ => 422
  | approvalRequestNotFoundError _ => 404
  | invalidTransitionError _ _ => 409
  | notAuthorizedForDecisionError _ _ _ => 403
  | integrityError => 500
  | unexpected _ => 500

@[simp] theorem statusCode_invalid (errors : List ErrorItem) : (invalid errors).statusCode = 422 :=
  rfl

/-- The `detail` of that response. -/
def detail : Exn → String
  | httpException _ detail => detail
  | requestValidationError _ => "The request body or parameters failed validation."
  | approvalRequestNotFoundError requestId => "Approval request not found: " ++ requestId
  | invalidTransitionError requestId currentStatus =>
    "Approval request " ++ requestId ++ " is already " ++ currentStatus.value ++
      " and cannot be changed"
  | notAuthorizedForDecisionError requestId actorUserId reason =>
    reason ++ " (request " ++ requestId ++ ", user " ++ actorUserId ++ ")"
  | integrityError => "An unexpected error occurred."
  | unexpected _ => "An unexpected error occurred."

/-- No handler of the service is registered for the exception, so it is answered by the
one for `Exception`. -/
def Unhandled : Exn → Prop
  | integrityError => True
  | unexpected _ => True
  | _ => False

instance : DecidablePred Unhandled
  | httpException _ _ => .isFalse id
  | requestValidationError _ => .isFalse id
  | approvalRequestNotFoundError _ => .isFalse id
  | invalidTransitionError _ _ => .isFalse id
  | notAuthorizedForDecisionError _ _ _ => .isFalse id
  | integrityError => .isTrue trivial
  | unexpected _ => .isTrue trivial

end Exn

end ContentApproval
