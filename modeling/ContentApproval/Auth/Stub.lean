import ContentApproval.Auth.Dependencies
import ContentApproval.Encoding.Base64
import ContentApproval.Encoding.Unicode
import ContentApproval.Json.Line
import ContentApproval.Json.Reader
import Mathlib.Data.Finset.Dedup

/-!
# The stub auth provider

`authenticate` decodes `Bearer <base64url(json)>` into a `Principal`, and `encodeBearerToken`
builds such a header. A header is a Python string. Every exception on the way is kept with
its class, and `authenticate` catches those that are a `ValueError`.
-/

namespace ContentApproval

open PyStr Json.Reader

/-! ## The interpreter -/

/-- What of the interpreter the provider depends on: its case folding beyond ASCII, its
`float`, and how many containers the JSON reader may open inside each other before the
recursion limit is reached. -/
structure Interpreter where
  foldTable : CodePoint → PyStr
  float : PyStr → PyFloat
  room : Nat

/-- A letter of ASCII in lower case. -/
def asciiLower (c : CodePoint) : CodePoint :=
  if 0x41 ≤ c.val ∧ c.val ≤ 0x5a then .ofNat 0x110000 (c.val + 0x20) else c

/-- `str.casefold` -/
def Interpreter.casefold (py : Interpreter) (s : PyStr) : PyStr :=
  s.flatMap (fun c => if c.val < 0x80 then [asciiLower c] else py.foldTable c)

/-- `str.partition` with a separator of one character. -/
def partition (sep : CodePoint) (s : PyStr) : PyStr × PyStr × PyStr :=
  match s.dropWhile (· != sep) with
  | [] => (s, [], [])
  | _ :: after => (s.takeWhile (· != sep), [sep], after)

/-! ## The principal of a payload -/

/-- `Action(value)` -/
def Action.ofValue? (s : String) : Option Action :=
  [read, create, decide, cancel].find? (fun a => a.value == s)

namespace Principal

/-- `str = Field(min_length=1)`. A string with a length bound must be Unicode text. -/
def nonEmptyField (entries : List (PyStr × PyValue)) (name : String) : Option {s : String // s ≠ ""} :=
  match entries.lookup (ofString name) with
  | some (.str s) => (textOf? s).bind (fun t => if h : t ≠ "" then some ⟨t, h⟩ else none)
  | _ => none

def readAction : PyValue → Option Action
  | .str s => (textOf? s).bind Action.ofValue?
  | _ => none

/-- `frozenset[Action] = frozenset()` -/
def actionsField (entries : List (PyStr × PyValue)) : Option (Finset Action) :=
  match entries.lookup (ofString "actions") with
  | none => some ∅
  | some (.list items) => (items.mapM readAction).map List.toFinset
  | some _ => none

/-- `Principal.model_validate`; `none` is `ValidationError`. -/
def modelValidate : PyValue → Option Principal
  | .dict entries => do
    let workspaceId ← nonEmptyField entries "workspace_id"
    let userId ← nonEmptyField entries "user_id"
    let actions ← actionsField entries
    return ⟨workspaceId.val, userId.val, actions, workspaceId.property, userId.property⟩
  | _ => none

end Principal

namespace StubAuthProvider

/-! ## Decoding -/

/-- What `json.loads(_b64url_decode(token))` raises. -/
inductive TokenError
  | unicodeEncodeError
  | binasciiError
  | loads (e : LoadsError)
  deriving DecidableEq

/-- The class of the exception is a subclass of `ValueError`. -/
def TokenError.isValueError : TokenError → Bool
  | loads .recursionError => false
  | _ => true

/-- `_b64url_decode` -/
def b64urlDecode (token : PyStr) : Except TokenError (List UInt8) :=
  match encodeAscii (Base64.repad (codePoint '=') token) with
  | none => .error .unicodeEncodeError
  | some padded => match Base64.urlsafeB64decode padded with
    | none => .error .binasciiError
    | some raw => .ok raw

/-- `json.loads(_b64url_decode(token))` -/
def loadsToken (py : Interpreter) (token : PyStr) : Except TokenError PyValue :=
  match b64urlDecode token with
  | .error e => .error e
  | .ok raw => match loads py.float py.room raw with
    | .error e => .error (.loads e)
    | .ok data => .ok data

/-- The two `try` statements of `authenticate`, by what `json.loads` did. -/
def principalOf : Except TokenError PyValue → Except AuthError Principal
  | .error e =>
    if e.isValueError then .error (.invalidCredentials "Malformed bearer token")
    else .error (.other "maximum recursion depth exceeded")
  | .ok data => match Principal.modelValidate data with
    | none => .error (.invalidCredentials "Malformed bearer token")
    | some principal => .ok principal

/-- `StubAuthProvider.authenticate` -/
def authenticate (py : Interpreter) : Option PyStr → Except AuthError Principal
  | none => .error (.invalidCredentials "Missing Authorization header")
  | some header =>
    let (scheme, _, token) := partition (codePoint ' ') header
    if py.casefold scheme ≠ ofString "bearer" ∨ token = [] then
      .error (.invalidCredentials "Authorization header must be 'Bearer <token>'")
    else principalOf (loadsToken py token)

/-- The provider that the service uses. -/
def provider (py : Interpreter) : AuthProvider where
  authenticate authorization := authenticate py (authorization.map ofString)

/-! ## Encoding -/

def tokenPayload (workspaceId userId : String) (actions : List Action) : Json :=
  .obj [("workspace_id", .str workspaceId), ("user_id", .str userId),
    ("actions", .arr ((actions.map Action.value).map .str))]

/-- `base64.urlsafe_b64encode(json.dumps(payload).encode("utf-8")).decode("ascii")` -/
def paddedToken (workspaceId userId : String) (actions : List Action) : Option PyStr := do
  let raw ← encode ((Json.line (tokenPayload workspaceId userId actions)).map codePoint)
  decodeAscii (Base64.urlsafeB64encode raw)

/-- `encode_bearer_token`; an action is given as itself or as its value, which is the same
string, and `none` is the `ValueError` of an unknown one. -/
def encodeBearerToken (workspaceId userId : String) (actions : List String) : Option PyStr := do
  let actions ← actions.mapM Action.ofValue?
  let token ← paddedToken workspaceId userId actions
  return ofString "Bearer " ++ Base64.rstrip (codePoint '=') token

end StubAuthProvider

end ContentApproval
