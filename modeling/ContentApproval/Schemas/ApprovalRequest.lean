import ContentApproval.Domain.Entities

/-!
# The request and response models

The models of the API bodies: what a JSON body is accepted as, with the errors of every
field that is not, and the JSON that a model is dumped to. Fields are read under their
camelCase alias or under their own name; a dump has the aliases (`byAlias`) for
responses and the names for the payload that is fingerprinted.

* `ApprovalRequestOut.modelValidate_modelDump`: a stored response body is read back as
  the response it was dumped from.
* `ApprovalRequestCreate.modelDump_injective` and its siblings: the normalized payload is
  determined by its canonical JSON.
-/

namespace ContentApproval

/-! ## Strings -/

/-- The characters that `str.strip` removes. -/
def isSpace (c : Char) : Bool :=
  let n := c.toNat
  (9 ≤ n && n ≤ 13) || (28 ≤ n && n ≤ 32) || n == 0x85 || n == 0xa0 || n == 0x1680 ||
    (0x2000 ≤ n && n ≤ 0x200a) || n == 0x2028 || n == 0x2029 || n == 0x202f || n == 0x205f ||
    n == 0x3000

def strip (s : String) : String :=
  String.ofList (((s.toList.dropWhile isSpace).reverse.dropWhile isSpace).reverse)

/-! ## Validation of a field -/

/-- The value of a field, or the errors of the fields that were rejected. -/
abbrev Validated (α : Type) := Except (List ErrorItem) α

/-- Errors of all fields are reported together. -/
def Validated.both {α β : Type} : Validated α → Validated β → Validated (α × β)
  | .ok a, .ok b => .ok (a, b)
  | .ok _, .error es => .error es
  | .error es, .ok _ => .error es
  | .error es, .error es' => .error (es ++ es')

def errorItem {α : Type} (type : String) (loc : List Loc) (msg : String) (input : Json) :
    Validated α :=
  .error [⟨type, loc, msg, input⟩]

/-- A field of an object, under its alias or its name. -/
def lookupField (fields : List (String × Json)) (camel name : String) : Option Json :=
  (fields.lookup camel).or (fields.lookup name)

def validateStr (loc : List Loc) : Json → Validated String
  | .str s => .ok s
  | input => errorItem "string_type" loc "Input should be a valid string" input

/-- `Field(min_length=..., max_length=...)`. -/
def validateLength (minLength maxLength : Nat) (loc : List Loc) (s : String) : Validated String :=
  if maxLength < s.length then
    errorItem "string_too_long" loc
      ("String should have at most " ++ toString maxLength ++ " characters") (.str s)
  else if s.length < minLength then
    errorItem "string_too_short" loc
      ("String should have at least " ++ toString minLength ++ " character") (.str s)
  else .ok s

/-- `_strip_and_require_non_blank`. -/
def stripAndRequireNonBlank (loc : List Loc) (value : String) : Validated String :=
  let stripped := strip value
  if stripped = "" then
    errorItem "value_error" loc "Value error, must not be blank" (.str value)
  else .ok stripped

/-- The one of the two names that the client has used, which is the one in the path of an
error. -/
def usedName (fields : List (String × Json)) (camel name : String) : String :=
  if (fields.lookup camel).isSome then camel else name

/-- A required field. One that is missing is reported under its alias. -/
def requiredField {α : Type} (fields : List (String × Json)) (camel name : String)
    (validate : List Loc → Json → Validated α) : Validated α :=
  match lookupField fields camel name with
  | some value => validate [.field "body", .field (usedName fields camel name)] value
  | none => errorItem "missing" [.field "body", .field camel] "Field required" (.obj fields)

/-- A field with a default. -/
def optionalField {α : Type} (fields : List (String × Json)) (camel name : String) (default : α)
    (validate : List Loc → Json → Validated α) : Validated α :=
  match lookupField fields camel name with
  | some value => validate [.field "body", .field (usedName fields camel name)] value
  | none => .ok default

/-- `str = Field(min_length=..., max_length=...)` with the non-blank validator. -/
def validateNonBlank (minLength maxLength : Nat) (loc : List Loc) (value : Json) :
    Validated String := do
  let s ← validateStr loc value
  let s ← validateLength minLength maxLength loc s
  stripAndRequireNonBlank loc s

/-- `str | None = Field(max_length=...)`. -/
def validateNullable (maxLength : Nat) (loc : List Loc) : Json → Validated (Option String)
  | .null => .ok none
  | value => do
    let s ← validateStr loc value
    let s ← validateLength 0 maxLength loc s
    pure (some s)

def validateSourceType (loc : List Loc) (value : Json) : Validated SourceType :=
  let error := errorItem "enum" loc
    "Input should be 'publication', 'scenario', 'edit' or 'external'" value
  match value with
  | .str s => match SourceType.ofValue? s with
    | some t => .ok t
    | none => error
  | _ => error

/-- The items of `list[str]`, each with its index. -/
def validateItems (loc : List Loc) : Nat → List Json → Validated (List String)
  | _, [] => .ok []
  | n, x :: xs =>
    match (validateStr (loc ++ [.index n]) x).both (validateItems loc (n + 1) xs) with
    | .ok (s, ss) => .ok (s :: ss)
    | .error es => .error es

/-- `_validate_reviewer_ids`. -/
def validateReviewerIds (loc : List Loc) (value : Json) : Validated (List String) :=
  match value with
  | .arr items => do
    let ids ← validateItems loc 0 items
    let stripped := ids.map strip
    if "" ∈ stripped then
      errorItem "value_error" loc "Value error, reviewer_user_ids must not contain blank ids" value
    else if ¬ stripped.Nodup then
      errorItem "value_error" loc "Value error, reviewer_user_ids must not contain duplicate ids"
        value
    else pure stripped
  | _ => errorItem "list_type" loc "Input should be a valid list" value

/-! ## Bodies -/

/-- The parsed body of a POST endpoint against its model. No body and `null` are the
same. -/
def validateBody {α : Type} (validate : List (String × Json) → Validated α) :
    Option Json → Validated α
  | none | some .null => errorItem "missing" [.field "body"] "Field required" .null
  | some (.obj fields) => validate fields
  | some document => errorItem "model_attributes_type" [.field "body"]
    "Input should be a valid dictionary or object to extract fields from" document

structure ApprovalRequestCreate where
  sourceType : SourceType
  sourceId : String
  title : String
  description : Option String
  reviewerUserIds : List String
  deriving DecidableEq

def ApprovalRequestCreate.modelValidate (fields : List (String × Json)) :
    Validated ApprovalRequestCreate := do
  let (sourceType, sourceId, title, description, reviewerUserIds) ←
    (requiredField fields "sourceType" "source_type" validateSourceType).both
      ((requiredField fields "sourceId" "source_id" (validateNonBlank 1 200)).both
        ((requiredField fields "title" "title" (validateNonBlank 1 300)).both
          ((optionalField fields "description" "description" none (validateNullable 10000)).both
            (optionalField fields "reviewerUserIds" "reviewer_user_ids" [] validateReviewerIds))))
  pure ⟨sourceType, sourceId, title, description, reviewerUserIds⟩

/-- `None` is dumped as `null`. -/
def dumpNullable : Option String → Json
  | some s => .str s
  | none => .null

def ApprovalRequestCreate.modelDump (p : ApprovalRequestCreate) : Json :=
  .obj [("source_type", .str p.sourceType.value), ("source_id", .str p.sourceId),
    ("title", .str p.title), ("description", dumpNullable p.description),
    ("reviewer_user_ids", .arr (p.reviewerUserIds.map .str))]

structure ApproveRequest where
  comment : Option String
  deriving DecidableEq

def ApproveRequest.modelValidate (fields : List (String × Json)) : Validated ApproveRequest := do
  let comment ← optionalField fields "comment" "comment" none (validateNullable 2000)
  pure ⟨comment⟩

def ApproveRequest.modelDump (p : ApproveRequest) : Json :=
  .obj [("comment", dumpNullable p.comment)]

structure DecisionReasonRequest where
  reason : String
  deriving DecidableEq

def DecisionReasonRequest.modelValidate (fields : List (String × Json)) :
    Validated DecisionReasonRequest := do
  let reason ← requiredField fields "reason" "reason" (validateNonBlank 1 2000)
  pure ⟨reason⟩

def DecisionReasonRequest.modelDump (p : DecisionReasonRequest) : Json :=
  .obj [("reason", .str p.reason)]

abbrev RejectRequest := DecisionReasonRequest

abbrev CancelRequest := DecisionReasonRequest

theorem dumpNullable_inj {a b : Option String} (h : dumpNullable a = dumpNullable b) : a = b := by
  cases a <;> cases b <;> simp_all [dumpNullable]

@[simp] theorem sortKeys_dumpNullable (a : Option String) :
    (dumpNullable a).sortKeys = dumpNullable a := by
  cases a <;> simp [dumpNullable, Json.sortKeys]

@[simp] theorem sortItems_str (ids : List String) :
    Json.sortItems (ids.map .str) = ids.map .str := by
  induction ids with
  | nil => rfl
  | cons s ids ih => simp [Json.sortItems, Json.sortKeys, ih]

theorem ApprovalRequestCreate.modelDump_injective {p q : ApprovalRequestCreate}
    (h : p.modelDump.canonical = q.modelDump.canonical) : p = q := by
  have hs := Json.sortKeys_eq_of_canonical h
  simp only [modelDump, Json.sortKeys, Json.sortFields, Json.insertField, sortKeys_dumpNullable,
    sortItems_str, String.reduceLT, if_true, if_false, Json.obj.injEq,
    List.cons.injEq, Prod.mk.injEq, true_and, and_true, Json.str.injEq, Json.arr.injEq] at hs
  obtain ⟨hd, hr, hi, ht, hn⟩ := hs
  cases p
  cases q
  simp only [mk.injEq]
  exact ⟨SourceType.value_inj ht, hi, hn, dumpNullable_inj hd,
    (List.map_injective_iff.mpr (fun _ _ h => Json.str.inj h)) hr⟩

theorem ApproveRequest.modelDump_injective {p q : ApproveRequest}
    (h : p.modelDump.canonical = q.modelDump.canonical) : p = q := by
  have hs := Json.sortKeys_eq_of_canonical h
  simp only [modelDump, Json.sortKeys, Json.sortFields, Json.insertField, sortKeys_dumpNullable,
    Json.obj.injEq, List.cons.injEq, Prod.mk.injEq, true_and, and_true] at hs
  cases p
  cases q
  exact congrArg mk (dumpNullable_inj hs)

theorem DecisionReasonRequest.modelDump_injective {p q : DecisionReasonRequest}
    (h : p.modelDump.canonical = q.modelDump.canonical) : p = q := by
  have hs := Json.sortKeys_eq_of_canonical h
  simp only [modelDump, Json.sortKeys, Json.sortFields, Json.insertField, Json.obj.injEq,
    List.cons.injEq, Prod.mk.injEq, true_and, and_true, Json.str.injEq] at hs
  cases p
  cases q
  exact congrArg mk hs

/-! ## Responses -/

structure ApprovalRequestOut where
  id : String
  workspaceId : String
  sourceType : SourceType
  sourceId : String
  title : String
  description : Option String
  reviewerUserIds : List String
  status : ApprovalStatus
  createdByUserId : String
  createdAt : Instant
  updatedAt : Instant
  decidedByUserId : Option String
  decidedAt : Option Instant
  decisionComment : Option String
  decisionReason : Option String
  deriving DecidableEq

/-- `ApprovalRequestOut.model_validate(entity)`, from the attributes of the entity. -/
def ApprovalRequestOut.ofEntity (r : ApprovalRequest) : ApprovalRequestOut where
  id := r.id
  workspaceId := r.workspaceId
  sourceType := r.sourceType
  sourceId := r.sourceId
  title := r.title
  description := r.description
  reviewerUserIds := r.reviewerUserIds
  status := r.status
  createdByUserId := r.createdByUserId
  createdAt := r.createdAt
  updatedAt := r.updatedAt
  decidedByUserId := r.decidedByUserId
  decidedAt := r.decidedAt
  decisionComment := r.decisionComment
  decisionReason := r.decisionReason

structure ApprovalRequestListOut where
  items : List ApprovalRequestOut
  total : Nat
  limit : Nat
  offset : Nat
  deriving DecidableEq

def dumpInstant? : Option Instant → Json
  | some t => .str t.isoformat
  | none => .null

/-- `model_dump(mode="json", by_alias=True)`. -/
def ApprovalRequestOut.modelDump (r : ApprovalRequestOut) : Json :=
  .obj [("id", .str r.id), ("workspaceId", .str r.workspaceId),
    ("sourceType", .str r.sourceType.value), ("sourceId", .str r.sourceId),
    ("title", .str r.title), ("description", dumpNullable r.description),
    ("reviewerUserIds", .arr (r.reviewerUserIds.map .str)), ("status", .str r.status.value),
    ("createdByUserId", .str r.createdByUserId), ("createdAt", .str r.createdAt.isoformat),
    ("updatedAt", .str r.updatedAt.isoformat),
    ("decidedByUserId", dumpNullable r.decidedByUserId), ("decidedAt", dumpInstant? r.decidedAt),
    ("decisionComment", dumpNullable r.decisionComment),
    ("decisionReason", dumpNullable r.decisionReason)]

/-! ### Reading a stored body -/

def readStr : Json → Option String
  | .str s => some s
  | _ => none

def readNullable {α : Type} (read : Json → Option α) : Json → Option (Option α)
  | .null => some none
  | x => (read x).map some

def readStrs : Json → Option (List String)
  | .arr items => items.mapM readStr
  | _ => none

def readInstant (x : Json) : Option Instant := readStr x >>= Instant.parse

def readSourceType (x : Json) : Option SourceType := readStr x >>= SourceType.ofValue?

def readStatus (x : Json) : Option ApprovalStatus := readStr x >>= ApprovalStatus.ofValue?

/-- `response_model.model_validate(body)`, from a stored JSON body. -/
def ApprovalRequestOut.modelValidate : Json → Option ApprovalRequestOut
  | .obj fields => do
    let field := lookupField fields
    let id ← field "id" "id" >>= readStr
    let workspaceId ← field "workspaceId" "workspace_id" >>= readStr
    let sourceType ← field "sourceType" "source_type" >>= readSourceType
    let sourceId ← field "sourceId" "source_id" >>= readStr
    let title ← field "title" "title" >>= readStr
    let description ← field "description" "description" >>= readNullable readStr
    let reviewerUserIds ← field "reviewerUserIds" "reviewer_user_ids" >>= readStrs
    let status ← field "status" "status" >>= readStatus
    let createdByUserId ← field "createdByUserId" "created_by_user_id" >>= readStr
    let createdAt ← field "createdAt" "created_at" >>= readInstant
    let updatedAt ← field "updatedAt" "updated_at" >>= readInstant
    let decidedByUserId ← field "decidedByUserId" "decided_by_user_id" >>= readNullable readStr
    let decidedAt ← field "decidedAt" "decided_at" >>= readNullable readInstant
    let decisionComment ← field "decisionComment" "decision_comment" >>= readNullable readStr
    let decisionReason ← field "decisionReason" "decision_reason" >>= readNullable readStr
    pure ⟨id, workspaceId, sourceType, sourceId, title, description, reviewerUserIds, status,
      createdByUserId, createdAt, updatedAt, decidedByUserId, decidedAt, decisionComment,
      decisionReason⟩
  | _ => none

@[simp] theorem nullable_dumpNullable (a : Option String) :
    readNullable readStr (dumpNullable a) = some a := by
  cases a <;> rfl

@[simp] theorem nullable_dumpInstant (a : Option Instant) :
    readNullable readInstant (dumpInstant? a) = some a := by
  cases a <;> simp [dumpInstant?, readNullable, readInstant, readStr, Instant.parse_isoformat]

@[simp] theorem strs_dump (ids : List String) : readStrs (.arr (ids.map .str)) = some ids := by
  simp only [readStrs]
  induction ids with
  | nil => rfl
  | cons s ids ih => simp [readStr, ih]

/-- **A stored body is read back as the response it came from.** -/
theorem ApprovalRequestOut.modelValidate_modelDump (r : ApprovalRequestOut) :
    modelValidate r.modelDump = some r := by
  simp [modelValidate, modelDump, lookupField, List.lookup_cons, readStr, readSourceType,
    readStatus, readInstant, Instant.parse_isoformat]

theorem ApprovalRequestOut.modelDump_injective {r s : ApprovalRequestOut}
    (h : r.modelDump = s.modelDump) : r = s :=
  Option.some.inj (by rw [← modelValidate_modelDump, h, modelValidate_modelDump])

end ContentApproval
