import ContentApproval.Domain.Entities
import ContentApproval.Observability.Redaction

/-!
# Problem responses

The bodies of the error responses. The errors of a `RequestValidationError` are cleaned
first: `ctx` is dropped, and `input` is replaced if the last component of the path looks
sensitive. A response is rendered when it is built; one that can not be rendered raises in
its handler, and then the handler for `Exception` answers (`sent`).
-/

namespace ContentApproval

namespace Errors

open Redaction

/-! ## Validation errors -/

/-- An error as it is shown to the client. -/
structure CleanedError where
  type : String
  loc : List LocItem
  msg : String
  input : Option PyValue

/-- `str(loc[-1]) if loc else ""` -/
def ErrorDetails.fieldName (error : ErrorDetails) : PyStr :=
  match error.loc.getLast? with
  | some item => item.text
  | none => []

/-- The body of the loop of `_clean_validation_errors`. -/
def cleanValidationError (error : ErrorDetails) : CleanedError where
  type := error.type
  loc := error.loc
  msg := error.msg
  input :=
    if looksSensitive error.fieldName then
      error.input.map (fun _ => .str (PyStr.ofString redacted))
    else error.input

/-- `_clean_validation_errors` -/
def cleanValidationErrors (errors : List ErrorDetails) : List CleanedError :=
  errors.map cleanValidationError

/-! ## Responses -/

def LocItem.toValue : LocItem → PyValue
  | name s => .str s
  | index n => .int n

def CleanedError.toValue (error : CleanedError) : PyValue :=
  .dict ([(PyStr.ofString "type", .str (PyStr.ofString error.type)),
    (PyStr.ofString "loc", .list (error.loc.map LocItem.toValue)),
    (PyStr.ofString "msg", .str (PyStr.ofString error.msg))] ++
      error.input.toList.map (fun v => (PyStr.ofString "input", v)))

structure JSONResponse where
  statusCode : Nat
  content : PyValue
  mediaType : String

def problemMediaType : String := "application/problem+json"

/-- `_TITLES.get(status_code, "Error")` -/
def title : Nat → String
  | 400 => "Bad Request"
  | 401 => "Unauthorized"
  | 403 => "Forbidden"
  | 404 => "Not Found"
  | 409 => "Conflict"
  | 422 => "Validation Error"
  | 500 => "Internal Server Error"
  | _ => "Error"

/-- `_problem` -/
def problem (statusCode : Nat) (detail : String) (extra : List (PyStr × PyValue)) :
    JSONResponse where
  statusCode := statusCode
  content := .dict ([(PyStr.ofString "type", .str (PyStr.ofString "about:blank")),
    (PyStr.ofString "title", .str (PyStr.ofString (title statusCode))),
    (PyStr.ofString "status", .int statusCode),
    (PyStr.ofString "detail", .str (PyStr.ofString detail))] ++ extra)
  mediaType := problemMediaType

/-- `_validation_exception_handler` -/
def validationExceptionHandler (errors : List ErrorDetails) : JSONResponse :=
  problem 422 "The request body or parameters failed validation."
    [(PyStr.ofString "errors", .list ((cleanValidationErrors errors).map CleanedError.toValue))]

/-- What `_unhandled_exception_handler` answers. -/
def unhandledProblem : JSONResponse := problem 500 "An unexpected error occurred." []

/-- What goes out to the client. -/
structure Sent where
  statusCode : Nat
  mediaType : String
  body : List UInt8

def JSONResponse.rendered (response : JSONResponse) : Option Sent :=
  response.content.render.map (fun body => ⟨response.statusCode, response.mediaType, body⟩)

/-- The response to an exception whose handler builds this one. -/
def JSONResponse.sent (response : JSONResponse) : Option Sent :=
  response.rendered.or unhandledProblem.rendered

/-! ## What raises a validation error -/

/-- A body against its model, whose fields `validate` reads. The body is nothing, what its
JSON was read as, or its bytes if it was not sent as JSON. -/
def validateBodyValue {Model : Type}
    (validate : List (PyStr × PyValue) → Except (List ErrorDetails) Model) :
    Option PyValue → Except (List ErrorDetails) Model
  | none | some .none => .error [⟨"missing", [.name (PyStr.ofString "body")], "Field required",
    some .none, none⟩]
  | some (.dict entries) => validate entries
  | some value => .error [⟨"model_attributes_type", [.name (PyStr.ofString "body")],
    "Input should be a valid dictionary or object to extract fields from", some value, none⟩]

/-- The response that the handler of an exception of the service builds. -/
def response : Exn → JSONResponse
  | .requestValidationError errors => validationExceptionHandler errors
  | e => problem e.statusCode e.detail []

end Errors

end ContentApproval
