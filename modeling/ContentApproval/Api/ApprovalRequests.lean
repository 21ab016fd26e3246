import ContentApproval.Api.Idempotency
import ContentApproval.Auth.Dependencies
import ContentApproval.Domain.Service
import ContentApproval.Transactions.World

/-!
# The endpoints

A `Call` is one HTTP request to the API with what it takes from outside. `request` is
its whole transaction: the body is parsed, the caller is authenticated and authorized,
the parameters and the body are validated, the endpoint runs, the answer is sent, and
then the session flushes what is still pending and commits.
-/

namespace ContentApproval

open Transactions AuthDependencies Idempotency

/-- What is deployed besides the service: the auth provider and SHA-256. -/
structure App where
  provider : AuthProvider
  sha256 : String → String

/-! ## Answers -/

inductive AnswerBody
  | request (out : ApprovalRequestOut)
  | list (out : ApprovalRequestListOut)
  deriving DecidableEq

/-- The answer of an endpoint that returned. -/
structure Answer where
  statusCode : Nat
  body : AnswerBody
  deriving DecidableEq

/-! ## Calls -/

/-- The body of a request, where it is of Unicode text and integers: none, one that is no JSON
text, or a JSON document. Bodies in bytes, and all that can be in them, are in `Api.Http`. -/
inductive RawBody
  | absent
  | malformed (pos : Nat)
  | json (document : Json)

/-- An integer parameter of the query string, with its text. -/
inductive QueryInt
  | absent
  | unparsable (raw : String)
  | value (raw : String) (n : Int)

/-- An endpoint with its parameters. What stands for the body of a request is a parameter. -/
inductive Operation (Body : Type := RawBody)
  /-- `POST .../approval-requests` -/
  | create (idempotencyKey : Option String) (body : Body)
  /-- `GET .../approval-requests` -/
  | list (status : Option String) (limit offset : QueryInt)
  /-- `GET .../approval-requests/{request_id}` -/
  | get (requestId : String)
  /-- `POST .../approval-requests/{request_id}/approve`, `/reject` and `/cancel` -/
  | decide (decision : Decision) (requestId : String) (idempotencyKey : Option String)
    (body : Body)

structure Call (Body : Type := RawBody) where
  env : Env
  authorization : Option String
  workspaceId : String
  operation : Operation Body

/-! ## Parameters -/

/-- The JSON document of a body; one that does not parse is rejected before anything
else. -/
def parseBody : RawBody → Tx (Option Json)
  | .absent => pure none
  | .malformed pos => throw (.invalid
    [⟨"json_invalid", [.field "body", .index pos], "JSON decode error", .obj []⟩])
  | .json document => pure (some document)

/-- The parameters of an endpoint, or `RequestValidationError`. -/
def orRequestValidationError {α : Type} : Validated α → Tx α
  | .ok a => pure a
  | .error errors => throw (.invalid errors)

def keyLoc : List Loc := [.field "header", .field "Idempotency-Key"]

/-- `_REQUIRED_IDEMPOTENCY_KEY` -/
def requiredIdempotencyKey : Option String → Validated String
  | none => errorItem "missing" keyLoc "Field required" .null
  | some key => validateLength 1 255 keyLoc key

/-- `_OPTIONAL_IDEMPOTENCY_KEY` -/
def optionalIdempotencyKey : Option String → Validated (Option String)
  | none => .ok none
  | some key => (validateLength 1 255 keyLoc key).map some

def statusQuery : Option String → Validated (Option ApprovalStatus)
  | none => .ok none
  | some s => match ApprovalStatus.ofValue? s with
    | some t => .ok (some t)
    | none => errorItem "enum" [.field "query", .field "status"]
      "Input should be 'pending', 'approved', 'rejected' or 'cancelled'" (.str s)

/-- `Query(default=..., ge=..., le=...)` of an integer. -/
def integerQuery (name : String) (default : Nat) (ge : Nat) (le : Option Nat) :
    QueryInt → Validated Nat
  | .absent => .ok default
  | .unparsable raw => errorItem "int_parsing" [.field "query", .field name]
    "Input should be a valid integer, unable to parse string as an integer" (.str raw)
  | .value raw n =>
    if n < ge then errorItem "greater_than_equal" [.field "query", .field name]
      ("Input should be greater than or equal to " ++ toString ge) (.str raw)
    else match le with
      | some le =>
        if (le : Int) < n then errorItem "less_than_equal" [.field "query", .field name]
          ("Input should be less than or equal to " ++ toString le) (.str raw)
        else .ok n.toNat
      | none => .ok n.toNat

/-! ## Endpoints -/

def createApprovalRequest (app : App) (env : Env) (workspaceId : String)
    (payload : ApprovalRequestCreate) (idempotencyKey : String) (principal : Principal) :
    Tx Answer := do
  let (result, statusCode) ← runIdempotent app.sha256 env workspaceId "create"
    (some idempotencyKey) payload.modelDump (do
      let request ← ApprovalService.createRequest env workspaceId principal.userId
        payload.sourceType payload.sourceId payload.title payload.description
        payload.reviewerUserIds
      return (ApprovalRequestOut.ofEntity request, 201))
  return ⟨statusCode, .request result⟩

def listApprovalRequests (env : Env) (workspaceId : String) (status : Option ApprovalStatus)
    (limit offset : Nat) : Tx Answer := do
  let (items, total) ← ApprovalService.listRequests env workspaceId status limit offset
  return ⟨200, .list ⟨items.map ApprovalRequestOut.ofEntity, total, limit, offset⟩⟩

def getApprovalRequest (env : Env) (workspaceId requestId : String) : Tx Answer := do
  let request ← ApprovalService.getRequest env workspaceId requestId
  return ⟨200, .request (ApprovalRequestOut.ofEntity request)⟩

/-- The last part of the path, which is also the first part of the logical route. -/
def Decision.routeName : Decision → String
  | approve => "approve"
  | reject => "reject"
  | cancel => "cancel"

/-- The logical route of a decision in the ledger. -/
def Decision.route (decision : Decision) (requestId : String) : String :=
  decision.routeName ++ ":" ++ requestId

/-- What the three decision endpoints have in common. -/
def decisionEndpoint (app : App) (env : Env) (decision : Decision) (workspaceId requestId : String)
    (payload : Json) (idempotencyKey : Option String) (service : Tx ApprovalRequest) :
    Tx Answer := do
  let (result, statusCode) ← runIdempotent app.sha256 env workspaceId (decision.route requestId)
    idempotencyKey payload (do
      let request ← service
      return (ApprovalRequestOut.ofEntity request, 200))
  return ⟨statusCode, .request result⟩

def approveApprovalRequest (app : App) (env : Env) (workspaceId requestId : String)
    (payload : ApproveRequest) (idempotencyKey : Option String) (principal : Principal) :
    Tx Answer :=
  decisionEndpoint app env .approve workspaceId requestId payload.modelDump idempotencyKey
    (ApprovalService.approveRequest env workspaceId requestId principal.userId payload.comment)

def rejectApprovalRequest (app : App) (env : Env) (workspaceId requestId : String)
    (payload : RejectRequest) (idempotencyKey : Option String) (principal : Principal) :
    Tx Answer :=
  decisionEndpoint app env .reject workspaceId requestId payload.modelDump idempotencyKey
    (ApprovalService.rejectRequest env workspaceId requestId principal.userId payload.reason)

def cancelApprovalRequest (app : App) (env : Env) (workspaceId requestId : String)
    (payload : CancelRequest) (idempotencyKey : Option String) (principal : Principal) :
    Tx Answer :=
  decisionEndpoint app env .cancel workspaceId requestId payload.modelDump idempotencyKey
    (ApprovalService.cancelRequest env workspaceId requestId principal.userId payload.reason)

/-! ## The whole request -/

/-- The action that an endpoint requires. -/
def Operation.requiredAction {Body : Type} : Operation Body → Action
  | create _ _ => .create
  | list _ _ _ => .read
  | get _ => .read
  | decide .approve _ _ _ => .decide
  | decide .reject _ _ _ => .decide
  | decide .cancel _ _ _ => .cancel

/-- The body of an operation; the reading ones have none. -/
def Operation.body : Operation → RawBody
  | create _ body => body
  | list _ _ _ => .absent
  | get _ => .absent
  | decide _ _ _ body => body

/-- The endpoint with its own parameters, after its dependencies. -/
def endpoint (app : App) (call : Call) (principal : Principal) (document : Option Json) :
    Tx Answer :=
  match call.operation with
  | .create idempotencyKey _ => do
    let (key, payload) ← orRequestValidationError
      ((requiredIdempotencyKey idempotencyKey).both
        (validateBody ApprovalRequestCreate.modelValidate document))
    createApprovalRequest app call.env call.workspaceId payload key principal
  | .list status limit offset => do
    let (status, limit, offset) ← orRequestValidationError
      ((statusQuery status).both ((integerQuery "limit" 20 1 (some 100) limit).both
        (integerQuery "offset" 0 0 none offset)))
    listApprovalRequests call.env call.workspaceId status limit offset
  | .get requestId => getApprovalRequest call.env call.workspaceId requestId
  | .decide .approve requestId idempotencyKey _ => do
    let (key, payload) ← orRequestValidationError
      ((optionalIdempotencyKey idempotencyKey).both
        (validateBody ApproveRequest.modelValidate document))
    approveApprovalRequest app call.env call.workspaceId requestId payload key principal
  | .decide .reject requestId idempotencyKey _ => do
    let (key, payload) ← orRequestValidationError
      ((optionalIdempotencyKey idempotencyKey).both
        (validateBody DecisionReasonRequest.modelValidate document))
    rejectApprovalRequest app call.env call.workspaceId requestId payload key principal
  | .decide .cancel requestId idempotencyKey _ => do
    let (key, payload) ← orRequestValidationError
      ((optionalIdempotencyKey idempotencyKey).both
        (validateBody DecisionReasonRequest.modelValidate document))
    cancelApprovalRequest app call.env call.workspaceId requestId payload key principal

/-- A call up to its answer. -/
def handle (app : App) (call : Call) : Tx Answer := do
  let document ← parseBody call.operation.body
  let principal ← requireAction call.operation.requiredAction app.provider call.authorization
    call.workspaceId
  endpoint app call principal document

/-- `get_db` around a call: after the answer the session flushes what is pending, and
the transaction commits. -/
def request (app : App) (call : Call) : Request Reply Exn Answer :=
  ((handle app call).run []).bind (fun p => .ret (p.1, AsyncSession.insertAll p.2))

/-- The requests of all calls, as a world of transactions. -/
abbrev ApiWorld (ι : Type) := World Reply Store Write Exn Answer ι

/-- No call has sent a statement yet. -/
def ApiWorld.start {ι : Type} (app : App) (call : ι → Call) (σ : Store) : ApiWorld ι :=
  World.start σ (fun i => request app (call i))

end ContentApproval
