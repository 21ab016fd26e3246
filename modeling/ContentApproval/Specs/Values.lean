import ContentApproval.Json.Reader
import ContentApproval.Schemas.Values

/-!
# What a create body of Python strings is accepted as

`RawCreate` is a create body with string fields. `modelValidate_iff`: it is accepted exactly if
it is `Allowed` and those of its strings that have a length are Unicode text, and what it is
accepted as is its normal form. An accepted payload is a body that is its own normal form
(`NormalForm.stable`).
-/

namespace ContentApproval

namespace Values

open PyStr Errors Json.Reader

/-! ## Stripping -/

theorem isSpace_codePoint (c : Char) :
    PyStr.isSpace (codePoint c) = ContentApproval.isSpace c := by
  rw [PyStr.isSpace, toChar?_codePoint, Option.any_some]

theorem isSpace_of_isSurrogate {c : CodePoint} (h : IsSurrogate c) : PyStr.isSpace c = false := by
  have htext := toChar?_isSome c
  unfold PyStr.isSpace
  cases hc : toChar? c with
  | none => rfl
  | some d =>
    rw [hc] at htext
    exact absurd h (htext.mp rfl)

theorem strip_ofString (s : String) :
    PyStr.strip (ofString s) = ofString (ContentApproval.strip s) := by
  change Trim.trim PyStr.isSpace (s.toList.map codePoint) =
    (String.ofList (Trim.trim ContentApproval.isSpace s.toList)).toList.map codePoint
  rw [String.toList_ofList, Trim.trim_map isSpace_codePoint]

theorem ofString_eq_nil {s : String} : ofString s = [] ↔ s = "" := by
  rw [ofString, List.map_eq_nil_iff, String.toList_eq_nil_iff]

theorem length_ofString (s : String) : (ofString s).length = s.length := by
  rw [ofString, List.length_map, String.length_toList]

/-! ## Fields -/

section Fields

variable {minLength maxLength : Nat} {loc : List LocItem} {s : PyStr} {t : String}

theorem both_eq_ok {α β : Type} {x : Checked α} {y : Checked β} {a : α} {b : β} :
    x.both y = .ok (a, b) ↔ x = .ok a ∧ y = .ok b := by
  cases x <;> cases y <;> simp [Checked.both]

theorem validateLength_iff {value : PyValue} {u : String} :
    validateLength minLength maxLength loc value u = .ok t ↔
      u = t ∧ minLength ≤ u.length ∧ u.length ≤ maxLength := by
  unfold validateLength
  split_ifs with hlong hshort
  · exact iff_of_false (fun h => by cases h) (by omega)
  · exact iff_of_false (fun h => by cases h) (by omega)
  · rw [Except.ok.injEq]
    exact ⟨fun h => ⟨h, by omega⟩, And.left⟩

theorem validateText_ofString (u : String) :
    validateText minLength maxLength loc (.str (ofString u)) =
      validateLength minLength maxLength loc (.str (ofString u)) u := by
  simp only [validateText, validateStr, bind, Except.bind, textOf?_ofString]

theorem validateText_iff : validateText minLength maxLength loc (.str s) = .ok t ↔
    s = ofString t ∧ minLength ≤ s.length ∧ s.length ≤ maxLength := by
  cases htext : textOf? s with
  | some u =>
    obtain rfl := textOf?_eq_some.mp htext
    rw [validateText_ofString, validateLength_iff, ofString_injective.eq_iff, length_ofString]
  | none =>
    have hrejected : ∀ t, validateText minLength maxLength loc (.str s) ≠ .ok t := by
      simp [validateText, validateStr, bind, Except.bind, htext, rejectUnicode, reject]
    refine iff_of_false (hrejected t) ?_
    rintro ⟨rfl, -⟩
    rw [textOf?_ofString] at htext
    cases htext

theorem validateNonBlank_iff : validateNonBlank minLength maxLength loc (.str s) = .ok t ↔
    s.Encodable ∧ (minLength ≤ s.length ∧ s.length ≤ maxLength) ∧ PyStr.strip s ≠ [] ∧
      ofString t = PyStr.strip s := by
  constructor
  · intro h
    obtain ⟨u, hu, h⟩ := bind_eq_ok.mp h
    obtain ⟨rfl, hlength⟩ := validateText_iff.mp hu
    dsimp only at h
    split_ifs at h with hblank
    · cases h
    · obtain rfl := Except.ok.inj h
      rw [strip_ofString, Ne, ofString_eq_nil]
      exact ⟨encodable_ofString u, hlength, hblank, rfl⟩
  · rintro ⟨hencodable, hlength, hblank, ht⟩
    obtain ⟨u, hu⟩ := Option.isSome_iff_exists.mp ((textOf?_isSome s).mpr hencodable)
    obtain rfl := textOf?_eq_some.mp hu
    rw [strip_ofString, Ne, ofString_eq_nil] at hblank
    rw [strip_ofString, ofString_injective.eq_iff] at ht
    refine bind_eq_ok.mpr ⟨u, validateText_iff.mpr ⟨rfl, hlength⟩, ?_⟩
    dsimp only
    rw [if_neg hblank, ht]
    rfl

/-- `None` or a string. -/
def nullable : Option PyStr → PyValue
  | some s => .str s
  | none => .none

theorem validateNullable_iff {d : Option PyStr} {r : Option String} :
    validateNullable maxLength loc (nullable d) = .ok r ↔
      d = r.map ofString ∧ ∀ s ∈ d, s.length ≤ maxLength := by
  cases d with
  | none =>
    change Except.ok none = Except.ok r ↔ _
    cases r <;> simp
  | some s =>
    constructor
    · intro h
      obtain ⟨u, hu, hr⟩ := bind_eq_ok.mp h
      obtain ⟨rfl, hlength⟩ := validateText_iff.mp hu
      obtain rfl : some u = r := Except.ok.inj hr
      exact ⟨rfl, fun s hs => Option.some.inj hs ▸ hlength.2⟩
    · rintro ⟨hr, hlength⟩
      obtain ⟨u, rfl, rfl⟩ := Option.map_eq_some_iff.mp hr.symm
      refine bind_eq_ok.mpr ⟨u, validateText_iff.mpr ⟨rfl, Nat.zero_le _, hlength _ rfl⟩, rfl⟩

theorem validateSourceType_iff {sourceType : SourceType} :
    validateSourceType loc (.str s) = .ok sourceType ↔ s = ofString sourceType.value := by
  constructor
  · intro h
    unfold validateSourceType at h
    dsimp only at h
    cases ht : textOf? s with
    | none =>
      rw [ht] at h
      cases h
    | some t =>
      obtain rfl := textOf?_eq_some.mp ht
      rw [ht] at h
      dsimp only at h
      split at h
      · rename_i sourceType' hvalue
        obtain rfl := Except.ok.inj h
        unfold SourceType.ofValue? at hvalue
        have hname := List.find?_some hvalue
        rw [beq_iff_eq.mp hname]
      · cases h
  · rintro rfl
    unfold validateSourceType
    dsimp only
    rw [textOf?_ofString]
    dsimp only
    rw [SourceType.ofValue?_value]

theorem validateItems_cons (n : Nat) (v : PyValue) (vs : List PyValue) :
    validateItems loc n (v :: vs) =
      ((validateStr (loc ++ [.index n]) v).both (validateItems loc (n + 1) vs)).map
        (fun p => p.1 :: p.2) := by
  rw [validateItems]
  cases Checked.both (validateStr (loc ++ [.index n]) v) (validateItems loc (n + 1) vs) <;> rfl

theorem validateItems_str (n : Nat) (ids : List PyStr) :
    validateItems loc n (ids.map .str) = .ok ids := by
  induction ids generalizing n with
  | nil => rfl
  | cons id ids ih =>
    rw [List.map_cons, validateItems, ih]
    rfl

theorem validateReviewerIds_iff {ids out : List PyStr} :
    validateReviewerIds loc (.list (ids.map .str)) = .ok out ↔
      [] ∉ ids.map PyStr.strip ∧ (ids.map PyStr.strip).Nodup ∧ out = ids.map PyStr.strip := by
  constructor
  · intro h
    obtain ⟨ids', hids, h⟩ := bind_eq_ok.mp h
    rw [validateItems_str] at hids
    obtain rfl := Except.ok.inj hids
    dsimp only at h
    split_ifs at h with hblank hdistinct
    · cases h
    · exact ⟨hblank, hdistinct, (Except.ok.inj h).symm⟩
    · cases h
  · rintro ⟨hblank, hdistinct, rfl⟩
    refine bind_eq_ok.mpr ⟨ids, validateItems_str 0 ids, ?_⟩
    dsimp only
    rw [if_neg hblank, if_neg (not_not.mpr hdistinct)]
    rfl

end Fields

/-! ## Create bodies -/

/-- The fields of a create body with string fields, before they are validated. -/
structure RawCreate where
  sourceType : PyStr
  sourceId : PyStr
  title : PyStr
  description : Option PyStr
  reviewerUserIds : List PyStr

namespace RawCreate

/-- The body has these fields, under their names or their aliases. -/
structure In (raw : RawCreate) (entries : List (PyStr × PyValue)) : Prop where
  sourceType : lookupEntry entries "sourceType" "source_type" = some (.str raw.sourceType)
  sourceId : lookupEntry entries "sourceId" "source_id" = some (.str raw.sourceId)
  title : lookupEntry entries "title" "title" = some (.str raw.title)
  description : lookupEntry entries "description" "description" = some (nullable raw.description) ∨
    lookupEntry entries "description" "description" = none ∧ raw.description = none
  reviewerUserIds : lookupEntry entries "reviewerUserIds" "reviewer_user_ids" =
      some (.list (raw.reviewerUserIds.map .str)) ∨
    lookupEntry entries "reviewerUserIds" "reviewer_user_ids" = none ∧ raw.reviewerUserIds = []

/-- The conditions on the fields: the lengths are those of the raw strings, and what must not
be blank or equal is what is left of them after trimming. -/
structure Allowed (raw : RawCreate) : Prop where
  sourceType : ∃ t : SourceType, raw.sourceType = ofString t.value
  sourceId_length : 1 ≤ raw.sourceId.length ∧ raw.sourceId.length ≤ 200
  sourceId_nonblank : ∃ c ∈ raw.sourceId, PyStr.isSpace c = false
  title_length : 1 ≤ raw.title.length ∧ raw.title.length ≤ 300
  title_nonblank : ∃ c ∈ raw.title, PyStr.isSpace c = false
  description_length : ∀ s ∈ raw.description, s.length ≤ 10000
  reviewers_nonblank : ∀ id ∈ raw.reviewerUserIds, PyStr.strip id ≠ []
  reviewers_distinct : (raw.reviewerUserIds.map PyStr.strip).Nodup

/-- The strings that have a length are Unicode text. -/
structure IsText (raw : RawCreate) : Prop where
  sourceId : raw.sourceId.Encodable
  title : raw.title.Encodable
  description : ∀ s ∈ raw.description, s.Encodable

/-- The payload has the trimmed fields. -/
structure NormalForm (raw : RawCreate) (p : ApprovalRequestCreate) : Prop where
  sourceType : raw.sourceType = ofString p.sourceType.value
  sourceId : ofString p.sourceId = PyStr.strip raw.sourceId
  title : ofString p.title = PyStr.strip raw.title
  description : raw.description = p.description.map ofString
  reviewerUserIds : p.reviewerUserIds = raw.reviewerUserIds.map PyStr.strip

end RawCreate

theorem strip_ne_nil {s : PyStr} : PyStr.strip s ≠ [] ↔ ∃ c ∈ s, PyStr.isSpace c = false := by
  rw [Ne, PyStr.strip, Trim.trim_eq_nil_iff]
  simp

section Create

variable {raw : RawCreate} {entries : List (PyStr × PyValue)} {p : ApprovalRequestCreate}

theorem requiredField_eq {α : Type} {camel name : String} {value : PyValue}
    {validate : List LocItem → PyValue → Checked α} (h : lookupEntry entries camel name = some value) :
    requiredField entries camel name validate =
      validate (fieldLoc (usedName entries camel name)) value := by
  unfold requiredField
  rw [h]

theorem optionalField_eq {α : Type} {camel name : String} {value : PyValue} {default : α}
    {validate : List LocItem → PyValue → Checked α} (h : lookupEntry entries camel name = some value) :
    optionalField entries camel name default validate =
      validate (fieldLoc (usedName entries camel name)) value := by
  unfold optionalField
  rw [h]

theorem optionalField_none {α : Type} {camel name : String} {default : α}
    {validate : List LocItem → PyValue → Checked α} (h : lookupEntry entries camel name = none) :
    optionalField entries camel name default validate = .ok default := by
  unfold optionalField
  rw [h]

theorem description_iff (h : raw.In entries) {d : Option String} :
    optionalField entries "description" "description" none (validateNullable 10000) = .ok d ↔
      raw.description = d.map ofString ∧ ∀ s ∈ raw.description, s.length ≤ 10000 := by
  rcases h.description with hd | ⟨hd, hnone⟩
  · rw [optionalField_eq hd, validateNullable_iff]
  · rw [optionalField_none hd, hnone]
    cases d <;> simp

theorem reviewers_iff (h : raw.In entries) {ids : List PyStr} :
    optionalField entries "reviewerUserIds" "reviewer_user_ids" [] validateReviewerIds = .ok ids ↔
      [] ∉ raw.reviewerUserIds.map PyStr.strip ∧ (raw.reviewerUserIds.map PyStr.strip).Nodup ∧
        ids = raw.reviewerUserIds.map PyStr.strip := by
  rcases h.reviewerUserIds with hr | ⟨hr, hnil⟩
  · rw [optionalField_eq hr, validateReviewerIds_iff]
  · rw [optionalField_none hr, hnil]
    simp [eq_comm]

/-- **What a create body is accepted as.** -/
theorem modelValidate_iff (h : raw.In entries) : ApprovalRequestCreate.modelValidate entries = .ok p ↔
    (raw.Allowed ∧ raw.IsText) ∧ raw.NormalForm p := by
  have hfields : ApprovalRequestCreate.modelValidate entries = .ok p ↔
      requiredField entries "sourceType" "source_type" validateSourceType = .ok p.sourceType ∧
      requiredField entries "sourceId" "source_id" (validateNonBlank 1 200) = .ok p.sourceId ∧
      requiredField entries "title" "title" (validateNonBlank 1 300) = .ok p.title ∧
      optionalField entries "description" "description" none (validateNullable 10000) =
        .ok p.description ∧
      optionalField entries "reviewerUserIds" "reviewer_user_ids" [] validateReviewerIds =
        .ok p.reviewerUserIds := by
    constructor
    · intro hp
      obtain ⟨⟨t, i, n, d, ids⟩, hall, hp⟩ := bind_eq_ok.mp hp
      obtain rfl := Except.ok.inj hp
      simpa only [both_eq_ok] using hall
    · intro hall
      refine bind_eq_ok.mpr ⟨(p.sourceType, p.sourceId, p.title, p.description, p.reviewerUserIds),
        ?_, rfl⟩
      simpa only [both_eq_ok] using hall
  rw [hfields, requiredField_eq h.sourceType, requiredField_eq h.sourceId, requiredField_eq h.title,
    validateSourceType_iff, validateNonBlank_iff, validateNonBlank_iff, description_iff h,
    reviewers_iff h]
  constructor
  · rintro ⟨ht, ⟨hsi, hsl, hsb, hs⟩, ⟨hti, htl, htb, htt⟩, ⟨hd, hdl⟩, hblank, hdistinct, hids⟩
    refine ⟨⟨⟨⟨_, ht⟩, hsl, strip_ne_nil.mp hsb, htl, strip_ne_nil.mp htb, hdl, ?_, hdistinct⟩,
      ⟨hsi, hti, ?_⟩⟩, ⟨ht, hs, htt, hd, hids⟩⟩
    · intro id hid hempty
      exact hblank (hempty ▸ List.mem_map_of_mem hid)
    · intro s hs
      rw [hd] at hs
      obtain ⟨u, -, rfl⟩ := Option.map_eq_some_iff.mp hs
      exact encodable_ofString u
  · rintro ⟨⟨hallowed, htext⟩, hnormal⟩
    refine ⟨hnormal.sourceType, ⟨htext.sourceId, hallowed.sourceId_length,
      strip_ne_nil.mpr hallowed.sourceId_nonblank, hnormal.sourceId⟩, ⟨htext.title,
      hallowed.title_length, strip_ne_nil.mpr hallowed.title_nonblank, hnormal.title⟩,
      ⟨hnormal.description, hallowed.description_length⟩, ?_, hallowed.reviewers_distinct,
      hnormal.reviewerUserIds⟩
    intro hempty
    obtain ⟨id, hid, hnil⟩ := List.mem_map.mp hempty
    exact hallowed.reviewers_nonblank id hid hnil

/-- A body that is allowed and text has a normal form. -/
theorem RawCreate.exists_normalForm (hallowed : raw.Allowed) (htext : raw.IsText) :
    ∃ p, raw.NormalForm p := by
  have hstring : ∀ s : PyStr, s.Encodable → ∃ t, s = ofString t := by
    intro s hs
    obtain ⟨t, ht⟩ := Option.isSome_iff_exists.mp ((textOf?_isSome s).mpr hs)
    exact ⟨t, textOf?_eq_some.mp ht⟩
  obtain ⟨t, ht⟩ := hallowed.sourceType
  obtain ⟨i, hi⟩ := hstring _ htext.sourceId
  obtain ⟨n, hn⟩ := hstring _ htext.title
  obtain ⟨d, hd⟩ : ∃ d : Option String, raw.description = d.map ofString := by
    cases hraw : raw.description with
    | none => exact ⟨none, rfl⟩
    | some s =>
      obtain ⟨d, hd⟩ := hstring s (htext.description s hraw)
      exact ⟨some d, congrArg some hd⟩
  refine ⟨⟨t, ContentApproval.strip i, ContentApproval.strip n, d, _⟩, ht, ?_, ?_, hd, rfl⟩
  · rw [hi, strip_ofString]
  · rw [hn, strip_ofString]

end Create

/-! ## Payloads -/

/-- The payload as a body. -/
def ApprovalRequestCreate.raw (p : ApprovalRequestCreate) : RawCreate where
  sourceType := ofString p.sourceType.value
  sourceId := ofString p.sourceId
  title := ofString p.title
  description := p.description.map ofString
  reviewerUserIds := p.reviewerUserIds

/-- The bodies differ at most in the whitespace around their strings. -/
structure RawCreate.Same (raw raw' : RawCreate) : Prop where
  sourceType : raw.sourceType = raw'.sourceType
  sourceId : PyStr.strip raw.sourceId = PyStr.strip raw'.sourceId
  title : PyStr.strip raw.title = PyStr.strip raw'.title
  description : raw.description = raw'.description
  reviewerUserIds : raw.reviewerUserIds.map PyStr.strip = raw'.reviewerUserIds.map PyStr.strip

section Payloads

variable {raw raw' : RawCreate} {p q : ApprovalRequestCreate}

theorem strip_idempotent (s : PyStr) : PyStr.strip (PyStr.strip s) = PyStr.strip s :=
  Trim.trim_trim _ _

theorem length_strip_le (s : PyStr) : (PyStr.strip s).length ≤ s.length := Trim.length_trim_le _ _

/-- What is left of a string that is not blank is not blank, and not longer. -/
theorem bounded_strip {s : PyStr} {maxLength : Nat} (hlength : 1 ≤ s.length ∧ s.length ≤ maxLength)
    (hblank : ∃ c ∈ s, PyStr.isSpace c = false) :
    (1 ≤ (PyStr.strip s).length ∧ (PyStr.strip s).length ≤ maxLength) ∧
      ∃ c ∈ PyStr.strip s, PyStr.isSpace c = false := by
  have hne := strip_ne_nil.mpr hblank
  refine ⟨⟨List.length_pos_of_ne_nil hne, (length_strip_le s).trans hlength.2⟩, ?_⟩
  rw [← strip_ne_nil, strip_idempotent]
  exact hne

/-- **A normal form is its own normal form**, and allowed. -/
theorem RawCreate.NormalForm.stable (h : raw.NormalForm p) (hallowed : raw.Allowed) :
    (p.raw.Allowed ∧ p.raw.IsText) ∧ p.raw.NormalForm p := by
  obtain ⟨hsl, hsb⟩ := bounded_strip hallowed.sourceId_length hallowed.sourceId_nonblank
  obtain ⟨htl, htb⟩ := bounded_strip hallowed.title_length hallowed.title_nonblank
  have hids : p.reviewerUserIds.map PyStr.strip = p.reviewerUserIds := by
    rw [h.reviewerUserIds, List.map_map]
    exact List.map_congr_left fun id _ => strip_idempotent id
  rw [← h.sourceId] at hsl hsb
  rw [← h.title] at htl htb
  refine ⟨⟨⟨⟨_, rfl⟩, hsl, hsb, htl, htb, ?_, ?_, ?_⟩, ?_⟩, ?_⟩
  · change ∀ s ∈ p.description.map ofString, _
    rw [← h.description]
    exact hallowed.description_length
  · intro id hid
    change id ∈ p.reviewerUserIds at hid
    rw [h.reviewerUserIds] at hid
    obtain ⟨id', hid', rfl⟩ := List.mem_map.mp hid
    rw [strip_idempotent]
    exact hallowed.reviewers_nonblank id' hid'
  · change (p.reviewerUserIds.map PyStr.strip).Nodup
    rw [hids, h.reviewerUserIds]
    exact hallowed.reviewers_distinct
  · refine ⟨encodable_ofString _, encodable_ofString _, ?_⟩
    intro s hs
    obtain ⟨u, -, rfl⟩ := Option.map_eq_some_iff.mp hs
    exact encodable_ofString u
  · refine ⟨rfl, ?_, ?_, rfl, hids.symm⟩
    · change ofString p.sourceId = PyStr.strip (ofString p.sourceId)
      rw [h.sourceId, strip_idempotent]
    · change ofString p.title = PyStr.strip (ofString p.title)
      rw [h.title, strip_idempotent]

/-- Bodies have the same normal form exactly if they are the same up to whitespace. -/
theorem RawCreate.NormalForm.eq_iff (hp : raw.NormalForm p) (hq : raw'.NormalForm q) :
    p = q ↔ raw.Same raw' := by
  constructor
  · rintro rfl
    exact ⟨hp.sourceType.trans hq.sourceType.symm, hp.sourceId.symm.trans hq.sourceId,
      hp.title.symm.trans hq.title, hp.description.trans hq.description.symm,
      hp.reviewerUserIds.symm.trans hq.reviewerUserIds⟩
  · intro h
    have htype : p.sourceType = q.sourceType := by
      have hvalue := hp.sourceType.symm.trans (h.sourceType.trans hq.sourceType)
      exact SourceType.value_inj (ofString_injective hvalue)
    have hid := ofString_injective (hp.sourceId.trans (h.sourceId.trans hq.sourceId.symm))
    have htitle := ofString_injective (hp.title.trans (h.title.trans hq.title.symm))
    have hdescription := Option.map_injective ofString_injective
      (hp.description.symm.trans (h.description.trans hq.description))
    have hreviewers := hp.reviewerUserIds.trans (h.reviewerUserIds.trans hq.reviewerUserIds.symm)
    cases p
    cases q
    simp only [ApprovalRequestCreate.mk.injEq]
    exact ⟨htype, hid, htitle, hdescription, hreviewers⟩

theorem ApprovalRequestCreate.raw_in_modelDump (p : ApprovalRequestCreate) :
    p.raw.In p.modelDump := by
  refine ⟨rfl, rfl, rfl, Or.inl ?_, Or.inl rfl⟩
  change some (dumpNullable p.description) = some (nullable (p.description.map ofString))
  cases p.description <;> rfl

end Payloads

end Values

end ContentApproval
