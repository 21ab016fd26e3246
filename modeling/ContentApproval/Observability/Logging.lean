import ContentApproval.Domain.Entities
import ContentApproval.Json.Lines
import ContentApproval.Observability.Redaction

/-!
# Log lines

`payload` is the object that the formatter writes for a record, `format` its line. The
values that a context holds may be of any type that strings are among (`str`); what a line
is written for are JSON documents.
-/

namespace ContentApproval

/-- `levelname` -/
def LogLevel.name : LogLevel → String
  | info => "INFO"
  | warning => "WARNING"
  | error => "ERROR"

namespace JSONFormatter

open Redaction

/-- A `logging.LogRecord` as the formatter reads it, with its time formatted. -/
structure Record (Value : Type) where
  time : String
  levelname : String
  name : String
  message : String
  context : Option (Dict Value)
  excInfo : Option String

/-- The fields that the formatter sets itself before the context. -/
def ownFields {Value : Type} (str : String → Value) (requestId : Option String)
    (record : Record Value) : Dict Value :=
  let payload := (((Dict.empty.set "timestamp" (str record.time)).set "level"
    (str record.levelname)).set "logger" (str record.name)).set "message" (str record.message)
  match requestId with
  | some id => payload.set "request_id" (str id)
  | none => payload

/-- The object of the line. -/
def payload {Value : Type} (str : String → Value) (requestId : Option String)
    (record : Record Value) : Dict Value :=
  let payload := ownFields str requestId record
  let payload := match record.context with
    | some context => payload.update (redactMapping str context)
    | none => payload
  match record.excInfo with
  | some text => payload.set "exc_info" (str text)
  | none => payload

/-- What the handler of `configure_logging` has written when these objects were logged: their lines,
each with a newline after it. -/
def written (lines : List (Dict Json)) : List UInt8 :=
  Json.Reader.bytes (Json.stream (lines.map fun line => .obj line.entries))

/-- A record of the service, logged at a time. -/
def Record.ofLog {Value : Type} (str : String → Value) (time : String) (record : LogRecord) :
    Record Value where
  time := time
  levelname := record.level.name
  name := record.logger
  message := record.message
  context := some (Dict.ofList (record.context.map (fun (k, v) => (k, str v))))
  excInfo := record.excInfo

end JSONFormatter

end ContentApproval
