import ContentApproval.Api.ApprovalRequests
import ContentApproval.Schemas.Values

/-!
# Requests over HTTP

The endpoints on bodies in bytes, with all that can be in them: bytes that are not sent as
JSON, JSON that cannot be read, numbers and strings that `Json` does not have. A body is read
before the dependencies of the endpoint run and validated after them.

A reviewer id that is no Unicode text passes the validation, but the driver of the database
cannot encode it, so a create with such an id ends when it flushes its rows
(`createRequest`).
-/

namespace ContentApproval

open Transactions AuthDependencies Idempotency

/-- What the interpreter makes of a JSON text: the values of floats, how many containers may
be open inside each other, and where and how a text that is no JSON is wrong. -/
structure Python where
  float : PyStr → PyFloat
  room : Nat
  decodeError : List UInt8 → Nat × String

/-- The body of an HTTP request. -/
structure HttpBody where
  /-- Its content type is JSON. -/
  isJson : Bool
  octets : List UInt8

/-- An HTTP request to the API. -/
abbrev HttpCall := Call HttpBody

namespace Http

/-! ## Reading and validating -/

def parsingError : Exn := .httpException 400 "There was an error parsing the body"

/-- `request.json()` of a body that is sent as JSON, and the bytes of any other one. -/
def readBody (python : Python) (body : HttpBody) : Except Exn (Option PyValue) :=
  if body.octets = [] then .ok none
  else if body.isJson then
    match Json.Reader.loads python.float python.room body.octets with
    | .ok value => .ok (some value)
    | .error .jsonDecodeError =>
      let (pos, msg) := python.decodeError body.octets
      .error (.requestValidationError [⟨"json_invalid",
        [.name (PyStr.ofString "body"), .index pos], "JSON decode error", some (.dict []),
        some [("error", .value (.str (PyStr.ofString msg)))]⟩])
    | .error _ => .error parsingError
  else .ok (some (.bytes body.octets))

/-- The body of an operation; the endpoints that read have none. -/
def readDocument (python : Python) : Operation HttpBody → Except Exn (Option PyValue)
  | .create _ body => readBody python body
  | .list _ _ _ => .ok none
  | .get _ => .ok none
  | .decide _ _ _ body => readBody python body

def orRaise {α : Type} : Except Exn α → Tx α
  | .ok a => pure a
  | .error e => throw e

/-- The parameters and the body of an endpoint, or `RequestValidationError`. -/
def orRequestValidationError {α : Type} : Values.Checked α → Tx α
  | .ok a => pure a
  | .error errors => throw (.requestValidationError errors)

/-- A parameter that is no part of the body. -/
def checked {α : Type} : Validated α → Values.Checked α
  | .ok a => .ok a
  | .error errors => .error (errors.map .ofItem)

/-! ## Endpoints -/

/-- `create_request`. A reviewer id that is no text is met when the row of the request has been
inserted. -/
def createRequest (env : Env) (workspaceId createdByUserId : String)
    (payload : Values.ApprovalRequestCreate) : Tx ApprovalRequest :=
  match payload.text? with
  | some p => ApprovalService.createRequest env workspaceId createdByUserId p.sourceType p.sourceId
    p.title p.description p.reviewerUserIds
  | none => do
    let _ ← SqlApprovalRequestRepository.create env env.requestId workspaceId createdByUserId
      payload.sourceType payload.sourceId payload.title payload.description []
    throw (.unexpected "UnicodeEncodeError")

def createApprovalRequest (app : App) (env : Env) (workspaceId : String)
    (payload : Values.ApprovalRequestCreate) (idempotencyKey : String) (principal : Principal) :
    Tx Answer := do
  let (result, statusCode) ← runIdempotentWith env workspaceId "create" (some idempotencyKey)
    (fingerprintValue app.sha256 (.dict payload.modelDump)) (do
      let request ← createRequest env workspaceId principal.userId payload
      return (ApprovalRequestOut.ofEntity request, 201))
  return ⟨statusCode, .request result⟩

/-- The endpoint with its own parameters, after its dependencies. -/
def endpoint (app : App) (call : HttpCall) (principal : Principal) (document : Option PyValue) :
    Tx Answer :=
  match call.operation with
  | .create idempotencyKey _ => do
    let (key, payload) ← orRequestValidationError
      ((checked (requiredIdempotencyKey idempotencyKey)).both
        (Errors.validateBodyValue Values.ApprovalRequestCreate.modelValidate document))
    createApprovalRequest app call.env call.workspaceId payload key principal
  | .list status limit offset => do
    let (status, limit, offset) ← orRequestValidationError
      (checked ((statusQuery status).both ((integerQuery "limit" 20 1 (some 100) limit).both
        (integerQuery "offset" 0 0 none offset))))
    listApprovalRequests call.env call.workspaceId status limit offset
  | .get requestId => getApprovalRequest call.env call.workspaceId requestId
  | .decide .approve requestId idempotencyKey _ => do
    let (key, payload) ← orRequestValidationError
      ((checked (optionalIdempotencyKey idempotencyKey)).both
        (Errors.validateBodyValue Values.ApproveRequest.modelValidate document))
    approveApprovalRequest app call.env call.workspaceId requestId payload key principal
  | .decide .reject requestId idempotencyKey _ => do
    let (key, payload) ← orRequestValidationError
      ((checked (optionalIdempotencyKey idempotencyKey)).both
        (Errors.validateBodyValue Values.DecisionReasonRequest.modelValidate document))
    rejectApprovalRequest app call.env call.workspaceId requestId payload key principal
  | .decide .cancel requestId idempotencyKey _ => do
    let (key, payload) ← orRequestValidationError
      ((checked (optionalIdempotencyKey idempotencyKey)).both
        (Errors.validateBodyValue Values.DecisionReasonRequest.modelValidate document))
    cancelApprovalRequest app call.env call.workspaceId requestId payload key principal

/-- A request up to its answer. -/
def handle (app : App) (python : Python) (call : HttpCall) : Tx Answer := do
  let document ← orRaise (readDocument python call.operation)
  let principal ← requireAction call.operation.requiredAction app.provider call.authorization
    call.workspaceId
  endpoint app call principal document

/-- The whole request, with the rest of its transaction after the answer. -/
def request (app : App) (python : Python) (call : HttpCall) : Request Reply Exn Answer :=
  ((handle app python call).run []).bind (fun p => .ret (p.1, AsyncSession.insertAll p.2))

end Http

end ContentApproval
