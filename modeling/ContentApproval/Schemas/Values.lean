import ContentApproval.Api.Problems
import ContentApproval.Encoding.Trim
import ContentApproval.Json.Reader
import ContentApproval.Schemas.ApprovalRequest

/-!
# The request models on Python values

A request body comes to its model as a dict of Python values, and a Python string may have
surrogates that stand alone. A string field with a length has to be Unicode text; the items
of `reviewer_user_ids` have no length, and are taken as they are. What these models make of
a JSON document of Unicode text is what the models of `Schemas.ApprovalRequest` make of it.
-/

namespace PyStr

/-- A surrogate is no whitespace. -/
def isSpace (c : CodePoint) : Bool := (toChar? c).any ContentApproval.isSpace

/-- `str.strip` -/
def strip (s : PyStr) : PyStr := Trim.trim isSpace s

end PyStr

namespace ContentApproval

namespace Values

open PyStr Errors

/-! ## Validation of a field -/

/-- The value of a field, or the errors of the fields that were rejected. -/
abbrev Checked (α : Type) := Except (List ErrorDetails) α

/-- Errors of all fields are reported together. -/
def Checked.both {α β : Type} : Checked α → Checked β → Checked (α × β)
  | .ok a, .ok b => .ok (a, b)
  | .ok _, .error es => .error es
  | .error es, .ok _ => .error es
  | .error es, .error es' => .error (es ++ es')

def reject {α : Type} (type : String) (loc : List LocItem) (msg : String) (input : PyValue)
    (ctx : Option (List (String × CtxValue))) : Checked α :=
  .error [⟨type, loc, msg, some input, ctx⟩]

/-- A field of a dict, under its alias or its name. -/
def lookupEntry (entries : List (PyStr × PyValue)) (camel name : String) : Option PyValue :=
  (entries.lookup (ofString camel)).or (entries.lookup (ofString name))

/-- `str`. What is read from a JSON text is never `bytes`. -/
def validateStr (loc : List LocItem) : PyValue → Checked PyStr
  | .str s => .ok s
  | input => reject "string_type" loc "Input should be a valid string" input none

/-- The lengths of a text. -/
def validateLength (minLength maxLength : Nat) (loc : List LocItem) (value : PyValue) (t : String) :
    Checked String :=
  if maxLength < t.length then
    reject "string_too_long" loc
      ("String should have at most " ++ toString maxLength ++ " characters") value
      (some [("max_length", .value (.int maxLength))])
  else if t.length < minLength then
    reject "string_too_short" loc
      ("String should have at least " ++ toString minLength ++ " character") value
      (some [("min_length", .value (.int minLength))])
  else .ok t

/-- A string that is not Unicode text. -/
def rejectUnicode {α : Type} (loc : List LocItem) (value : PyValue) : Checked α :=
  reject "string_unicode" loc
    "Input should be a valid string, unable to parse raw data as a unicode string" value none

/-- `str = Field(min_length=..., max_length=...)` -/
def validateText (minLength maxLength : Nat) (loc : List LocItem) (value : PyValue) :
    Checked String := do
  let s ← validateStr loc value
  match textOf? s with
  | some t => validateLength minLength maxLength loc value t
  | none => rejectUnicode loc value

/-- `str = Field(min_length=..., max_length=...)` with `_strip_and_require_non_blank`. -/
def validateNonBlank (minLength maxLength : Nat) (loc : List LocItem) (value : PyValue) :
    Checked String := do
  let s ← validateText minLength maxLength loc value
  let stripped := ContentApproval.strip s
  if stripped = "" then
    reject "value_error" loc "Value error, must not be blank" value
      (some [("error", .exception "must not be blank")])
  else pure stripped

/-- `str | None = Field(max_length=...)` -/
def validateNullable (maxLength : Nat) (loc : List LocItem) : PyValue → Checked (Option String)
  | .none => .ok none
  | value => do
    let s ← validateText 0 maxLength loc value
    pure (some s)

def validateSourceType (loc : List LocItem) (value : PyValue) : Checked SourceType :=
  let error := reject "enum" loc "Input should be 'publication', 'scenario', 'edit' or 'external'"
    value (some [("expected",
      .value (.str (ofString "'publication', 'scenario', 'edit' or 'external'")))])
  match value with
  | .str s => match textOf? s with
    | some t => match SourceType.ofValue? t with
      | some sourceType => .ok sourceType
      | none => error
    | none => rejectUnicode loc value
  | _ => error

/-- The items of `list[str]`, each with its index. -/
def validateItems (loc : List LocItem) : Nat → List PyValue → Checked (List PyStr)
  | _, [] => .ok []
  | n, v :: vs =>
    match (validateStr (loc ++ [.index n]) v).both (validateItems loc (n + 1) vs) with
    | .ok (s, ss) => .ok (s :: ss)
    | .error es => .error es

/-- `list[str]` with `_validate_reviewer_ids`. -/
def validateReviewerIds (loc : List LocItem) (value : PyValue) : Checked (List PyStr) :=
  match value with
  | .list items => do
    let ids ← validateItems loc 0 items
    let stripped := ids.map PyStr.strip
    if [] ∈ stripped then
      reject "value_error" loc "Value error, reviewer_user_ids must not contain blank ids" value
        (some [("error", .exception "reviewer_user_ids must not contain blank ids")])
    else if ¬ stripped.Nodup then
      reject "value_error" loc "Value error, reviewer_user_ids must not contain duplicate ids" value
        (some [("error", .exception "reviewer_user_ids must not contain duplicate ids")])
    else pure stripped
  | _ => reject "list_type" loc "Input should be a valid list" value none

/-- The one of the two names that the client has used, which is the one in the path of an
error. -/
def usedName (entries : List (PyStr × PyValue)) (camel name : String) : String :=
  if (entries.lookup (ofString camel)).isSome then camel else name

def fieldLoc (name : String) : List LocItem :=
  [.name (ofString "body"), .name (ofString name)]

/-- A required field. One that is missing is reported under its alias. -/
def requiredField {α : Type} (entries : List (PyStr × PyValue)) (camel name : String)
    (validate : List LocItem → PyValue → Checked α) : Checked α :=
  match lookupEntry entries camel name with
  | some value => validate (fieldLoc (usedName entries camel name)) value
  | none => reject "missing" (fieldLoc camel) "Field required" (.dict entries) none

/-- A field with a default. -/
def optionalField {α : Type} (entries : List (PyStr × PyValue)) (camel name : String) (default : α)
    (validate : List LocItem → PyValue → Checked α) : Checked α :=
  match lookupEntry entries camel name with
  | some value => validate (fieldLoc (usedName entries camel name)) value
  | none => .ok default

/-! ## Bodies -/

/-- `ApprovalRequestCreate`, whose reviewer ids may be any Python strings. -/
structure ApprovalRequestCreate where
  sourceType : SourceType
  sourceId : String
  title : String
  description : Option String
  reviewerUserIds : List PyStr
  deriving DecidableEq

def ApprovalRequestCreate.modelValidate (entries : List (PyStr × PyValue)) :
    Checked ApprovalRequestCreate := do
  let (sourceType, sourceId, title, description, reviewerUserIds) ←
    (requiredField entries "sourceType" "source_type" validateSourceType).both
      ((requiredField entries "sourceId" "source_id" (validateNonBlank 1 200)).both
        ((requiredField entries "title" "title" (validateNonBlank 1 300)).both
          ((optionalField entries "description" "description" none (validateNullable 10000)).both
            (optionalField entries "reviewerUserIds" "reviewer_user_ids" [] validateReviewerIds))))
  pure ⟨sourceType, sourceId, title, description, reviewerUserIds⟩

/-- The payload with its reviewer ids as text, if they are. -/
def ApprovalRequestCreate.text? (p : ApprovalRequestCreate) :
    Option ContentApproval.ApprovalRequestCreate :=
  (p.reviewerUserIds.mapM textOf?).map (fun ids =>
    ⟨p.sourceType, p.sourceId, p.title, p.description, ids⟩)

/-- `None` is dumped as itself. -/
def dumpNullable : Option String → PyValue
  | some s => .str (ofString s)
  | none => .none

/-- `model_dump(mode="json")` -/
def ApprovalRequestCreate.modelDump (p : ApprovalRequestCreate) : List (PyStr × PyValue) :=
  [(ofString "source_type", .str (ofString p.sourceType.value)),
    (ofString "source_id", .str (ofString p.sourceId)), (ofString "title", .str (ofString p.title)),
    (ofString "description", dumpNullable p.description),
    (ofString "reviewer_user_ids", .list (p.reviewerUserIds.map .str))]

def ApproveRequest.modelValidate (entries : List (PyStr × PyValue)) : Checked ApproveRequest := do
  let comment ← optionalField entries "comment" "comment" none (validateNullable 2000)
  pure ⟨comment⟩

def DecisionReasonRequest.modelValidate (entries : List (PyStr × PyValue)) :
    Checked DecisionReasonRequest := do
  let reason ← requiredField entries "reason" "reason" (validateNonBlank 1 2000)
  pure ⟨reason⟩

/-- What the body of a create in bytes is accepted as. -/
def readCreate (float : PyStr → PyFloat) (room : Nat) (body : List UInt8) :
    Option ApprovalRequestCreate :=
  (Json.Reader.loads float room body).toOption.bind (fun document =>
    (validateBodyValue ApprovalRequestCreate.modelValidate (some document)).toOption)

end Values

end ContentApproval
