import ContentApproval.Json.Ascii
import ContentApproval.Specs.Values

/-!
# The canonical text of a payload

`canonical_eq_iff`: the canonical text of a create payload determines all of it except the
spelling of the reviewer ids, of which it determines the UTF-16 code units. Conversely every
accepted body has string fields (`exists_raw`, `exists_reason`), so that what it is accepted
as is described by its raw fields.
-/

namespace ContentApproval

namespace Values

open PyStr Errors Json.Reader
open PyValue (asciiQuoted asciiQuoted_cancel asciiQuoted_eq_iff asciiDumps asciiMore asciiMoreEntries
  sortKeys sortItems sortEntries insertEntry ofString_lt canonical)

/-! ## Texts -/

section Cancel

variable {r r' : List Char}

theorem text_cancel {s t : String}
    (h : asciiQuoted (ofString s) ++ r = asciiQuoted (ofString t) ++ r') : s = t ∧ r = r' := by
  obtain ⟨hunits, hr⟩ := asciiQuoted_cancel h
  have hsame := utf16_injOn (encodable_ofString s) (encodable_ofString t) hunits
  exact ⟨ofString_injective hsame, hr⟩

theorem dumpNullable_cancel {a b : Option String}
    (h : asciiDumps (dumpNullable a) ++ r = asciiDumps (dumpNullable b) ++ r') : a = b ∧ r = r' := by
  cases a with
  | none =>
    cases b with
    | none => exact ⟨rfl, List.append_cancel_left h⟩
    | some t => cases h
  | some s =>
    cases b with
    | none => cases h
    | some t =>
      obtain ⟨rfl, hr⟩ := text_cancel (List.cons.inj h).2
      exact ⟨rfl, hr⟩

theorem asciiMore_cancel {ids ids' : List PyStr}
    (h : asciiMore (ids.map .str) ++ r = asciiMore (ids'.map .str) ++ r') :
    ids.map utf16 = ids'.map utf16 ∧ r = r' := by
  induction ids generalizing ids' with
  | nil =>
    cases ids' with
    | nil => exact ⟨rfl, List.append_cancel_left h⟩
    | cons id' ids' => cases h
  | cons id ids ih =>
    cases ids' with
    | nil => cases h
    | cons id' ids' =>
      simp only [List.map_cons, asciiMore, asciiDumps, List.cons_append, List.append_assoc,
        List.cons.injEq, true_and] at h
      obtain ⟨hunits, hrest⟩ := asciiQuoted_cancel h
      obtain ⟨hmore, hr⟩ := ih hrest
      exact ⟨by rw [List.map_cons, List.map_cons, hunits, hmore], hr⟩

theorem reviewers_cancel {ids ids' : List PyStr}
    (h : asciiDumps (.list (ids.map .str)) ++ r = asciiDumps (.list (ids'.map .str)) ++ r') :
    ids.map utf16 = ids'.map utf16 ∧ r = r' := by
  cases ids with
  | nil =>
    cases ids' with
    | nil => exact ⟨rfl, List.append_cancel_left h⟩
    | cons id' ids' => cases h
  | cons id ids =>
    cases ids' with
    | nil => cases h
    | cons id' ids' =>
      simp only [List.map_cons, asciiDumps, List.cons_append, List.append_assoc, List.cons.injEq,
        true_and] at h
      obtain ⟨hunits, hrest⟩ := asciiQuoted_cancel h
      obtain ⟨hmore, hr⟩ := asciiMore_cancel hrest
      exact ⟨by rw [List.map_cons, List.map_cons, hunits, hmore], hr⟩

/-- The text of the reviewer ids is made of their code units. -/
theorem asciiMore_congr {ids ids' : List PyStr} (h : ids.map utf16 = ids'.map utf16) :
    asciiMore (ids.map .str) = asciiMore (ids'.map .str) := by
  induction ids generalizing ids' with
  | nil =>
    obtain rfl := List.map_eq_nil_iff.mp h.symm
    rfl
  | cons id ids ih =>
    cases ids' with
    | nil => cases h
    | cons id' ids' =>
      obtain ⟨hunits, hmore⟩ := List.cons.inj h
      rw [List.map_cons, List.map_cons, asciiMore, asciiMore, asciiDumps, asciiDumps,
        asciiQuoted_eq_iff.mpr hunits, ih hmore]

theorem reviewers_congr {ids ids' : List PyStr} (h : ids.map utf16 = ids'.map utf16) :
    asciiDumps (.list (ids.map .str)) = asciiDumps (.list (ids'.map .str)) := by
  cases ids with
  | nil =>
    obtain rfl := List.map_eq_nil_iff.mp h.symm
    rfl
  | cons id ids =>
    cases ids' with
    | nil => cases h
    | cons id' ids' =>
      obtain ⟨hunits, hmore⟩ := List.cons.inj h
      rw [List.map_cons, List.map_cons, asciiDumps, asciiDumps, asciiDumps, asciiDumps,
        asciiQuoted_eq_iff.mpr hunits, asciiMore_congr hmore]

end Cancel

/-! ## Create payloads -/

/-- The payloads are equal, but for the spelling of their reviewer ids. -/
structure ApprovalRequestCreate.SameUnits (p q : ApprovalRequestCreate) : Prop where
  sourceType : p.sourceType = q.sourceType
  sourceId : p.sourceId = q.sourceId
  title : p.title = q.title
  description : p.description = q.description
  reviewerUserIds : p.reviewerUserIds.map utf16 = q.reviewerUserIds.map utf16

theorem sortKeys_dumpNullable (a : Option String) : sortKeys (dumpNullable a) = dumpNullable a := by
  cases a <;> rfl

theorem sortItems_str (ids : List PyStr) : sortItems (ids.map .str) = ids.map .str := by
  induction ids with
  | nil => rfl
  | cons id ids ih =>
    rw [List.map_cons, sortItems, ih]
    rfl

theorem sortKeys_modelDump (p : ApprovalRequestCreate) : sortKeys (.dict p.modelDump) =
    .dict [(ofString "description", dumpNullable p.description),
      (ofString "reviewer_user_ids", .list (p.reviewerUserIds.map .str)),
      (ofString "source_id", .str (ofString p.sourceId)),
      (ofString "source_type", .str (ofString p.sourceType.value)),
      (ofString "title", .str (ofString p.title))] := by
  simp only [ApprovalRequestCreate.modelDump, sortKeys, sortEntries, insertEntry, ofString_lt,
    String.reduceLT, if_true, if_false, sortKeys_dumpNullable, sortItems_str]

/-- **What the canonical text of a create payload determines.** -/
theorem canonical_eq_iff {p q : ApprovalRequestCreate} :
    canonical (.dict p.modelDump) = canonical (.dict q.modelDump) ↔ p.SameUnits q := by
  rw [canonical, canonical, sortKeys_modelDump, sortKeys_modelDump, String.ofList_inj]
  constructor
  · intro h
    simp only [asciiDumps, asciiMoreEntries, List.cons_append, List.cons.injEq, true_and,
      List.append_cancel_left_eq] at h
    obtain ⟨hdescription, h⟩ := dumpNullable_cancel h
    simp only [List.cons.injEq, true_and, List.append_cancel_left_eq] at h
    obtain ⟨hreviewers, h⟩ := reviewers_cancel h
    simp only [List.cons.injEq, true_and, List.append_cancel_left_eq] at h
    obtain ⟨hid, h⟩ := text_cancel h
    simp only [List.cons.injEq, true_and, List.append_cancel_left_eq] at h
    obtain ⟨htype, h⟩ := text_cancel h
    simp only [List.cons.injEq, true_and, List.append_cancel_left_eq] at h
    obtain ⟨htitle, -⟩ := text_cancel h
    exact ⟨SourceType.value_inj htype, hid, htitle, hdescription, hreviewers⟩
  · rintro ⟨htype, hid, htitle, hdescription, hreviewers⟩
    rw [htype, hid, htitle, hdescription]
    simp only [asciiDumps, asciiMoreEntries]
    rw [reviewers_congr hreviewers]

/-! ## The fields of an accepted body -/

section Accepted

variable {minLength maxLength : Nat} {loc : List LocItem} {value : PyValue}

theorem eq_str_of_validateText {t : String}
    (h : validateText minLength maxLength loc value = .ok t) : ∃ s, value = .str s := by
  cases value with
  | str s => exact ⟨s, rfl⟩
  | _ => cases h

theorem eq_str_of_validateNonBlank {t : String}
    (h : validateNonBlank minLength maxLength loc value = .ok t) : ∃ s, value = .str s := by
  obtain ⟨u, hu, -⟩ := bind_eq_ok.mp h
  exact eq_str_of_validateText hu

theorem eq_nullable_of_validateNullable {d : Option String}
    (h : validateNullable maxLength loc value = .ok d) : ∃ s, value = nullable s := by
  cases value with
  | none => exact ⟨none, rfl⟩
  | str s => exact ⟨some s, rfl⟩
  | _ => cases h

theorem eq_str_of_validateSourceType {t : SourceType}
    (h : validateSourceType loc value = .ok t) : ∃ s, value = .str s := by
  cases value with
  | str s => exact ⟨s, rfl⟩
  | _ => cases h

theorem eq_strs_of_validateItems {items : List PyValue} {n : Nat} {ids : List PyStr}
    (h : validateItems loc n items = .ok ids) : items = ids.map .str := by
  induction items generalizing n ids with
  | nil =>
    obtain rfl := Except.ok.inj h
    rfl
  | cons v items ih =>
    rw [validateItems_cons] at h
    obtain ⟨⟨s, ss⟩, hboth, rfl⟩ := map_eq_ok.mp h
    obtain ⟨hv, hitems⟩ := both_eq_ok.mp hboth
    rw [List.map_cons, ← ih hitems]
    cases v with
    | str s' => rw [Except.ok.inj hv]
    | _ => cases hv

theorem eq_list_of_validateReviewerIds {ids : List PyStr}
    (h : validateReviewerIds loc value = .ok ids) :
    ∃ raw : List PyStr, value = .list (raw.map .str) := by
  cases value with
  | list items =>
    obtain ⟨raw, hraw, -⟩ := bind_eq_ok.mp h
    exact ⟨raw, congrArg PyValue.list (eq_strs_of_validateItems hraw)⟩
  | _ => cases h

variable {α : Type} {entries : List (PyStr × PyValue)} {camel name : String}
  {validate : List LocItem → PyValue → Checked α} {a : α}

theorem lookup_of_requiredField (h : requiredField entries camel name validate = .ok a) :
    ∃ value, lookupEntry entries camel name = some value ∧
      validate (fieldLoc (usedName entries camel name)) value = .ok a := by
  unfold requiredField at h
  split at h
  · rename_i value hvalue
    exact ⟨value, hvalue, h⟩
  · cases h

theorem lookup_of_optionalField {default : α}
    (h : optionalField entries camel name default validate = .ok a) :
    (∃ value, lookupEntry entries camel name = some value ∧
      validate (fieldLoc (usedName entries camel name)) value = .ok a) ∨ lookupEntry entries camel name = none := by
  unfold optionalField at h
  split at h
  · rename_i value hvalue
    exact Or.inl ⟨value, hvalue, h⟩
  · rename_i hnone
    exact Or.inr hnone

/-- **An accepted create body has string fields.** -/
theorem exists_raw {p : ApprovalRequestCreate}
    (h : ApprovalRequestCreate.modelValidate entries = .ok p) : ∃ raw : RawCreate, raw.In entries := by
  obtain ⟨⟨t, i, n, d, ids⟩, hfields, -⟩ := bind_eq_ok.mp h
  simp only [both_eq_ok] at hfields
  obtain ⟨ht, hi, hn, hd, hids⟩ := hfields
  obtain ⟨_, ht, ht'⟩ := lookup_of_requiredField ht
  obtain ⟨st, rfl⟩ := eq_str_of_validateSourceType ht'
  obtain ⟨_, hi, hi'⟩ := lookup_of_requiredField hi
  obtain ⟨si, rfl⟩ := eq_str_of_validateNonBlank hi'
  obtain ⟨_, hn, hn'⟩ := lookup_of_requiredField hn
  obtain ⟨sn, rfl⟩ := eq_str_of_validateNonBlank hn'
  obtain ⟨sd, hd⟩ : ∃ sd, lookupEntry entries "description" "description" = some (nullable sd) ∨
      lookupEntry entries "description" "description" = none ∧ sd = none := by
    rcases lookup_of_optionalField hd with ⟨value, hd, hd'⟩ | hd
    · obtain ⟨sd, rfl⟩ := eq_nullable_of_validateNullable hd'
      exact ⟨sd, Or.inl hd⟩
    · exact ⟨none, Or.inr ⟨hd, rfl⟩⟩
  obtain ⟨sr, hr⟩ : ∃ sr : List PyStr, lookupEntry entries "reviewerUserIds" "reviewer_user_ids" =
        some (.list (sr.map .str)) ∨
      lookupEntry entries "reviewerUserIds" "reviewer_user_ids" = none ∧ sr = [] := by
    rcases lookup_of_optionalField hids with ⟨value, hr, hr'⟩ | hr
    · obtain ⟨sr, rfl⟩ := eq_list_of_validateReviewerIds hr'
      exact ⟨sr, Or.inl hr⟩
    · exact ⟨[], Or.inr ⟨hr, rfl⟩⟩
  exact ⟨⟨st, si, sn, sd, sr⟩, ht, hi, hn, hd, hr⟩

/-- An accepted decision has a reason that is a string, and its payload is the trimmed one. -/
theorem exists_reason {p : DecisionReasonRequest}
    (h : DecisionReasonRequest.modelValidate entries = .ok p) :
    ∃ s, lookupEntry entries "reason" "reason" = some (.str s) ∧ ofString p.reason = PyStr.strip s := by
  obtain ⟨reason, hreason, hp⟩ := bind_eq_ok.mp h
  obtain rfl := Except.ok.inj hp
  obtain ⟨_, hlookup, hvalid⟩ := lookup_of_requiredField hreason
  obtain ⟨s, rfl⟩ := eq_str_of_validateNonBlank hvalid
  exact ⟨s, hlookup, (validateNonBlank_iff.mp hvalid).2.2.2⟩

end Accepted

end Values

end ContentApproval
