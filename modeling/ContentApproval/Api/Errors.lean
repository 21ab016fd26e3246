import ContentApproval.Api.ApprovalRequests

/-!
# The log of a call

The records that the service, auth and API code emit while a call is served: those that
its program sends, and the record of the handler for `Exception`, which runs when the call
ends in an exception that no other handler is registered for, also after the answer was
sent. What the traceback says is a parameter.
-/

namespace ContentApproval

open Transactions

/-- `request.method` -/
def Operation.method {Body : Type} : Operation Body → String
  | create _ _ => "POST"
  | list _ _ _ => "GET"
  | get _ => "GET"
  | decide _ _ _ _ => "POST"

/-- The path of an operation below that of the collection. -/
def Operation.subpath {Body : Type} : Operation Body → String
  | create _ _ => ""
  | list _ _ _ => ""
  | get requestId => "/" ++ requestId
  | decide decision requestId _ _ => "/" ++ requestId ++ "/" ++ decision.routeName

/-- `request.url.path` -/
def Call.path {Body : Type} (call : Call Body) : String :=
  "/api/v1/workspaces/" ++ call.workspaceId ++ "/approval-requests" ++ call.operation.subpath

namespace Errors

def logger : String := "app.api.errors"

/-- `_unhandled_exception_handler` -/
def unhandledException (call : Call) (traceback : String) : LogRecord :=
  ⟨.error, logger, "Unhandled exception while processing " ++ call.operation.method ++ " " ++
    call.path, [], some traceback⟩

end Errors

/-- The call ended in an exception that only the handler for `Exception` takes. After the
answer there is no other one. -/
def EndedUnhandled : Session Reply Write Exn Answer → Prop
  | .failed e => e.Unhandled
  | .lost _ => True
  | _ => False

instance : DecidablePred EndedUnhandled
  | .failed e => inferInstanceAs (Decidable e.Unhandled)
  | .lost _ => .isTrue trivial
  | .running _ _ => .isFalse id
  | .answered _ _ _ => .isFalse id
  | .committed _ _ => .isFalse id
  | .aborted => .isFalse id

/-- The record that a statement of a program stands for. -/
def Statement.record? : Statement → Option LogRecord
  | .log record => some record
  | _ => none

/-- The records of a call whose session has ended so after these statements. -/
def records (traceback : Call → String) (call : Call)
    (served : Session Reply Write Exn Answer × List Statement) : List LogRecord :=
  served.2.filterMap Statement.record? ++
    if EndedUnhandled served.1 then [Errors.unhandledException call (traceback call)] else []

end ContentApproval
