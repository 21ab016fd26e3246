import ContentApproval.Api.Problems
import ContentApproval.Observability.Logging

/-!
# The correlation id of a request

A request passes three layers around the routes, from the outside in: the one with the
handler for `Exception` (`serverErrorMiddleware`), `RequestIdMiddleware`, and the one with
the other exception handlers (`exceptionMiddleware`). What the routes do is a parameter
(`Inner`): the records they log and how they end.
-/

namespace ContentApproval

namespace Middleware

open JSONFormatter

/-! ## Requests and responses -/

structure HttpRequest where
  method : String
  path : String
  /-- The `X-Request-Id` header. -/
  requestId : Option String

/-- A response; the names of its headers are in lower case. -/
structure Response where
  statusCode : Nat
  headers : Dict String
  body : List UInt8

def header : String := "x-request-id"

def Response.ofSent (sent : Errors.Sent) : Response :=
  ⟨sent.statusCode, Dict.empty.set "content-type" sent.mediaType, sent.body⟩

/-- How a layer ends. -/
inductive Outcome
  | returned (response : Response)
  /-- An exception escapes before there is a response. -/
  | raised (e : Exn)
  /-- An exception escapes after the response was started. -/
  | failedAfter (response : Response)

/-- What the routes do with a request. -/
structure Inner where
  records : List (Record Json)
  outcome : Outcome

/-- The server: the context variable as the outermost layer sees it, and the objects of
the lines logged so far. -/
structure Server where
  requestIdVar : Option String
  lines : List (Dict Json)

def Server.log (server : Server) (record : Record Json) : Server :=
  { server with lines := server.lines ++ [payload .str server.requestIdVar record] }

/-! ## The layers -/

/-- Starlette's layer with the handlers of the service's exceptions. A response is rendered
in its handler. -/
def exceptionMiddleware : Outcome → Outcome
  | .raised e =>
    if e.Unhandled then .raised e
    else match (Errors.response e).rendered with
      | some sent => .returned (.ofSent sent)
      | none => .raised (.unexpected "response can not be rendered")
  | outcome => outcome

/-- `call_next`: the routes run in a task of their own, with the variable as it is set here. -/
def callNext (inner : Inner) (server : Server) : Server × Outcome :=
  (inner.records.foldl Server.log server, exceptionMiddleware inner.outcome)

/-- `request.headers.get(_HEADER) or str(uuid.uuid4())` -/
def correlationId (minted : String) : Option String → String
  | some id => if id = "" then minted else id
  | none => minted

def Response.setHeader (response : Response) (id : String) : Response :=
  { response with headers := response.headers.set header id }

/-- `RequestIdMiddleware.dispatch` -/
def dispatch (minted : String) (request : HttpRequest) (inner : Inner) (server : Server) :
    Server × Outcome :=
  let requestId := correlationId minted request.requestId
  let token := server.requestIdVar
  let (server, outcome) := callNext inner { server with requestIdVar := some requestId }
  -- `finally`
  let server := { server with requestIdVar := token }
  match outcome with
  | .returned response => (server, .returned (response.setHeader requestId))
  | .failedAfter response => (server, .failedAfter (response.setHeader requestId))
  | .raised e => (server, .raised e)

/-- The record of `_unhandled_exception_handler`. -/
def unhandledRecord (request : HttpRequest) (time traceback : String) : Record Json :=
  .ofLog .str time ⟨.error, "app.api.errors", "Unhandled exception while processing " ++
    request.method ++ " " ++ request.path, [], some traceback⟩

/-- Starlette's outermost layer, with the handler for `Exception`. Its response is sent if
none was started. -/
def serverErrorMiddleware (unhandled : Record Json) :
    Server × Outcome → Server × Option Response
  | (server, .returned response) => (server, some response)
  | (server, .raised _) =>
    (server.log unhandled, Errors.unhandledProblem.rendered.map .ofSent)
  | (server, .failedAfter response) => (server.log unhandled, some response)

/-- One request to the application. -/
def serve (minted : String) (request : HttpRequest) (unhandled : Record Json) (inner : Inner)
    (server : Server) : Server × Option Response :=
  serverErrorMiddleware unhandled (dispatch minted request inner server)

end Middleware

end ContentApproval
