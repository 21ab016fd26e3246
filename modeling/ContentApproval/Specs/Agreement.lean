import ContentApproval.Specs.Endpoints
import ContentApproval.Specs.Values

/-!
# The two embeddings of the request models agree

`Schemas.ApprovalRequest` validates JSON documents of Unicode text, `Schemas.Values` Python
values. Of a document they make the same: both accept it, with the same payload, or both
reject it and then the client is shown the same errors (`ApprovalRequestCreate.agrees` and
its siblings). Payloads that are the same have one fingerprint (`fingerprint_ofPayload`).
-/

namespace ContentApproval

namespace Values

open PyStr Errors

/-- The one run accepts what the other accepts, up to `f`, or they reject with errors that
look the same to the client. -/
inductive Agrees {α β : Type} (f : β → α) : Checked α → Validated β → Prop
  | ok (b : β) : Agrees f (.ok (f b)) (.ok b)
  | error {es : List ErrorDetails} {es' : List ErrorItem}
      (h : cleanValidationErrors es = cleanValidationErrors (es'.map .ofItem)) :
      Agrees f (.error es) (.error es')

section Combinators

variable {α α' β β' : Type} {f : β → α} {g : β' → α'}

theorem Agrees.of_eq {b : β} {a : α} (h : a = f b) : Agrees f (.ok a) (.ok b) := h ▸ .ok b

theorem Agrees.bind {x : Checked α} {y : Validated β} {k : α → Checked α'} {l : β → Validated β'}
    (h : Agrees f x y) (hk : ∀ b, Agrees g (k (f b)) (l b)) : Agrees g (x >>= k) (y >>= l) := by
  cases h with
  | ok b => exact hk b
  | error h => exact .error h

theorem Agrees.map {x : Checked α} {y : Validated β} {k : α → α'} {l : β → β'} (h : Agrees f x y)
    (hk : ∀ b, k (f b) = g (l b)) : Agrees g (x.map k) (y.map l) := by
  cases h with
  | ok b => exact .of_eq (hk b)
  | error h => exact .error h

theorem Agrees.both {x : Checked α} {y : Validated β} {x' : Checked α'} {y' : Validated β'}
    (h : Agrees f x y) (h' : Agrees g x' y') : Agrees (Prod.map f g) (x.both x') (y.both y') := by
  cases h with
  | ok b =>
    cases h' with
    | ok b' => exact .ok (b, b')
    | error h' => exact .error h'
  | error h =>
    cases h' with
    | ok b' => exact .error h
    | error h' =>
      refine .error ?_
      have hboth := congrArg₂ (· ++ ·) h h'
      simpa only [cleanValidationErrors, List.map_append] using hboth

/-- The same value is rejected for the same reason. -/
theorem Agrees.reject {type msg : String} {loc : List Loc} {input : Json}
    {ctx : Option (List (String × CtxValue))} : Agrees f
      (Values.reject type (loc.map .ofLoc) msg (.ofJson input) ctx) (errorItem type loc msg input) :=
  .error rfl

end Combinators

/-! ## Fields -/

section Fields

theorem lookup_ofFields (fields : List (String × Json)) (name : String) :
    (PyValue.ofFields fields).lookup (ofString name) = (fields.lookup name).map PyValue.ofJson := by
  induction fields with
  | nil => rfl
  | cons field fields ih =>
    obtain ⟨k, x⟩ := field
    rw [PyValue.ofFields, List.lookup_cons, List.lookup_cons, ih]
    by_cases hname : name = k
    · simp [hname]
    · have hne : (ofString name == ofString k) = false := by
        rw [beq_eq_false_iff_ne]
        exact fun h => hname (ofString_injective h)
      have hne' : (name == k) = false := beq_eq_false_iff_ne.mpr hname
      rw [hne, hne']

theorem lookupEntry_ofFields (fields : List (String × Json)) (camel name : String) :
    lookupEntry (PyValue.ofFields fields) camel name =
      (lookupField fields camel name).map PyValue.ofJson := by
  rw [lookupEntry, lookup_ofFields, lookup_ofFields, lookupField]
  cases fields.lookup camel <;> rfl

/-- The client has used the same name. -/
theorem usedName_ofFields (fields : List (String × Json)) (camel name : String) :
    usedName (PyValue.ofFields fields) camel name =
      ContentApproval.usedName fields camel name := by
  rw [usedName, lookup_ofFields, Option.isSome_map, ContentApproval.usedName]

variable {minLength maxLength : Nat} {loc : List Loc}

theorem validateStr_agrees (x : Json) :
    Agrees ofString (validateStr (loc.map .ofLoc) (.ofJson x)) (ContentApproval.validateStr loc x) := by
  cases x with
  | str s => exact .ok s
  | _ => exact .reject

theorem validateLength_agrees (s : String) : Agrees id
    (validateLength minLength maxLength (loc.map .ofLoc) (.ofJson (.str s)) s)
    (ContentApproval.validateLength minLength maxLength loc s) := by
  unfold validateLength ContentApproval.validateLength
  split_ifs
  · exact .reject
  · exact .reject
  · exact .ok s

theorem ok_bind {ε α β : Type} (a : α) (k : α → Except ε β) : (Except.ok a >>= k) = k a := rfl

theorem validateNonBlank_agrees (x : Json) : Agrees id
    (validateNonBlank minLength maxLength (loc.map .ofLoc) (.ofJson x))
    (ContentApproval.validateNonBlank minLength maxLength loc x) := by
  cases x with
  | str s =>
    unfold validateNonBlank ContentApproval.validateNonBlank ContentApproval.validateStr
    rw [PyValue.ofJson, validateText_ofString, ok_bind]
    unfold validateLength ContentApproval.validateLength stripAndRequireNonBlank
    split_ifs with hlong hshort
    · exact .error rfl
    · exact .error rfl
    · rw [ok_bind, ok_bind]
      dsimp only
      split_ifs
      · exact .error rfl
      · exact .ok _
  | _ => exact .reject

theorem validateNullable_agrees (x : Json) : Agrees id
    (validateNullable maxLength (loc.map .ofLoc) (.ofJson x))
    (ContentApproval.validateNullable maxLength loc x) := by
  cases x with
  | null => exact .ok none
  | str s =>
    rw [PyValue.ofJson]
    unfold validateNullable ContentApproval.validateNullable ContentApproval.validateStr
    dsimp only
    rw [validateText_ofString, ok_bind]
    exact (validateLength_agrees s).bind fun t => .ok (some t)
  | _ => exact .reject

theorem validateSourceType_agrees (x : Json) : Agrees id
    (validateSourceType (loc.map .ofLoc) (.ofJson x)) (ContentApproval.validateSourceType loc x) := by
  cases x with
  | str s =>
    unfold validateSourceType ContentApproval.validateSourceType PyValue.ofJson
    dsimp only
    rw [textOf?_ofString]
    dsimp only
    cases SourceType.ofValue? s with
    | some t => exact .ok t
    | none => exact .error rfl
  | _ => exact .reject

theorem validateItems_ofJson_cons (n : Nat) (x : Json) (items : List Json) :
    ContentApproval.validateItems loc n (x :: items) =
      ((ContentApproval.validateStr (loc ++ [.index n]) x).both
        (ContentApproval.validateItems loc (n + 1) items)).map (fun p => p.1 :: p.2) := by
  rw [ContentApproval.validateItems]
  cases (ContentApproval.validateStr (loc ++ [.index n]) x).both
    (ContentApproval.validateItems loc (n + 1) items) <;> rfl

theorem validateItems_agrees (items : List Json) (n : Nat) : Agrees (List.map ofString)
    (validateItems (loc.map .ofLoc) n (PyValue.ofItems items))
    (ContentApproval.validateItems loc n items) := by
  induction items generalizing n with
  | nil => exact .ok []
  | cons x items ih =>
    have hx := @validateStr_agrees (loc ++ [.index n]) x
    rw [List.map_append, List.map_singleton] at hx
    rw [PyValue.ofItems, validateItems_cons, validateItems_ofJson_cons]
    apply Agrees.map (hx.both (ih (n + 1)))
    rintro ⟨s, ss⟩
    rfl

theorem mem_map_strip {ids : List String} :
    [] ∈ (ids.map ofString).map PyStr.strip ↔ "" ∈ ids.map ContentApproval.strip := by
  simp only [List.map_map, List.mem_map, Function.comp_apply, strip_ofString, ofString_eq_nil]

theorem map_strip (ids : List String) :
    (ids.map ofString).map PyStr.strip = (ids.map ContentApproval.strip).map ofString := by
  simp only [List.map_map, Function.comp_def, strip_ofString]

theorem validateReviewerIds_agrees (x : Json) : Agrees (List.map ofString)
    (validateReviewerIds (loc.map .ofLoc) (.ofJson x))
    (ContentApproval.validateReviewerIds loc x) := by
  cases x with
  | arr items =>
    refine (validateItems_agrees items 0).bind fun ids => ?_
    dsimp only
    have hdistinct : ((ids.map ofString).map PyStr.strip).Nodup ↔
        (ids.map ContentApproval.strip).Nodup := by
      rw [map_strip]
      exact List.nodup_map_iff ofString_injective
    by_cases hblank : "" ∈ ids.map ContentApproval.strip
    · rw [if_pos (mem_map_strip.mpr hblank), if_pos hblank]
      exact .reject
    rw [if_neg (mem_map_strip.not.mpr hblank), if_neg hblank]
    by_cases hnodup : (ids.map ContentApproval.strip).Nodup
    · rw [if_neg (not_not.mpr (hdistinct.mpr hnodup)), if_neg (not_not.mpr hnodup), map_strip]
      exact .ok _
    · rw [if_pos (hdistinct.not.mpr hnodup), if_pos hnodup]
      exact .reject
  | _ => exact .reject

variable {α β : Type} {f : β → α} {fields : List (String × Json)} {camel name : String}
  {validate : List LocItem → PyValue → Checked α} {validate' : List Loc → Json → Validated β}

theorem requiredField_agrees
    (h : ∀ loc x, Agrees f (validate (loc.map .ofLoc) (.ofJson x)) (validate' loc x)) :
    Agrees f (requiredField (PyValue.ofFields fields) camel name validate)
      (ContentApproval.requiredField fields camel name validate') := by
  unfold requiredField ContentApproval.requiredField
  rw [lookupEntry_ofFields, usedName_ofFields]
  cases lookupField fields camel name with
  | some x => exact h [.field "body", .field (ContentApproval.usedName fields camel name)] x
  | none => exact .error rfl

theorem optionalField_agrees {default : β}
    (h : ∀ loc x, Agrees f (validate (loc.map .ofLoc) (.ofJson x)) (validate' loc x)) :
    Agrees f (optionalField (PyValue.ofFields fields) camel name (f default) validate)
      (ContentApproval.optionalField fields camel name default validate') := by
  unfold optionalField ContentApproval.optionalField
  rw [lookupEntry_ofFields, usedName_ofFields]
  cases lookupField fields camel name with
  | some x => exact h [.field "body", .field (ContentApproval.usedName fields camel name)] x
  | none => exact .ok default

end Fields

/-! ## Bodies -/

/-- The payload with its reviewer ids as Python strings. -/
def ofPayload (p : ContentApproval.ApprovalRequestCreate) : ApprovalRequestCreate :=
  ⟨p.sourceType, p.sourceId, p.title, p.description, p.reviewerUserIds.map ofString⟩

/-- Both payloads are dumped as the same document. -/
theorem modelDump_ofPayload (p : ContentApproval.ApprovalRequestCreate) :
    PyValue.dict (ofPayload p).modelDump = .ofJson p.modelDump := by
  have hdescription : PyValue.ofJson (ContentApproval.dumpNullable p.description) =
      dumpNullable p.description := by
    cases p.description <;> rfl
  have hids : ∀ ids : List String,
      PyValue.ofItems (ids.map .str) = (ids.map ofString).map .str := by
    intro ids
    induction ids with
    | nil => rfl
    | cons id ids ih =>
      rw [List.map_cons, PyValue.ofItems, ih]
      rfl
  simp only [ContentApproval.ApprovalRequestCreate.modelDump, PyValue.ofJson, PyValue.ofFields,
    hdescription, hids]
  rfl

/-- The fingerprint of a payload of Unicode text is the one that the ledger is searched with. -/
theorem fingerprint_ofPayload (sha256 : String → String) (p : ContentApproval.ApprovalRequestCreate) :
    Idempotency.fingerprintValue sha256 (.dict (ofPayload p).modelDump) =
      Idempotency.fingerprint sha256 p.modelDump := by
  rw [modelDump_ofPayload, Idempotency.fingerprintValue_ofJson]

variable (fields : List (String × Json))

theorem ApprovalRequestCreate.agrees : Agrees ofPayload
    (ApprovalRequestCreate.modelValidate (PyValue.ofFields fields))
    (ContentApproval.ApprovalRequestCreate.modelValidate fields) := by
  have hdescription := @optionalField_agrees _ _ id fields "description" "description" _ _ none
    (fun loc => @validateNullable_agrees 10000 loc)
  have hreviewers := @optionalField_agrees _ _ (List.map ofString) fields "reviewerUserIds"
    "reviewer_user_ids" _ _ [] (fun _ => validateReviewerIds_agrees)
  unfold ApprovalRequestCreate.modelValidate ContentApproval.ApprovalRequestCreate.modelValidate
  refine Agrees.bind ((requiredField_agrees fun _ => validateSourceType_agrees).both
    ((requiredField_agrees fun _ => validateNonBlank_agrees).both
      ((requiredField_agrees fun _ => validateNonBlank_agrees).both
        (hdescription.both hreviewers)))) ?_
  rintro ⟨t, i, n, d, ids⟩
  exact .of_eq rfl

theorem ApproveRequest.agrees : Agrees id (ApproveRequest.modelValidate (PyValue.ofFields fields))
    (ContentApproval.ApproveRequest.modelValidate fields) := by
  have hcomment := @optionalField_agrees _ _ id fields "comment" "comment" _ _ none
    (fun loc => @validateNullable_agrees 2000 loc)
  exact hcomment.bind fun _ => .of_eq rfl

theorem DecisionReasonRequest.agrees : Agrees id
    (DecisionReasonRequest.modelValidate (PyValue.ofFields fields))
    (ContentApproval.DecisionReasonRequest.modelValidate fields) :=
  (requiredField_agrees fun _ => validateNonBlank_agrees).bind fun _ => .of_eq rfl

end Values

end ContentApproval
