import ContentApproval.Encoding.Trim
import ContentApproval.Specs.Endpoints

/-!
# What an accepted body looks like

The texts of an accepted body that must not be blank are stripped, and the reviewer ids of
an accepted create are stripped and distinct (`ApprovalRequestCreate.modelValidate_ok`,
`DecisionReasonRequest.modelValidate_ok`).
-/

namespace ContentApproval

/-- A text that is not blank and that stripping leaves as it is. -/
structure Trimmed (s : String) : Prop where
  ne_empty : s ≠ ""
  strip_eq : strip s = s

theorem strip_strip (s : String) : strip (strip s) = strip s := by
  change String.ofList (Trim.trim isSpace (String.ofList (Trim.trim isSpace s.toList)).toList) = _
  rw [String.toList_ofList, Trim.trim_trim]
  rfl

theorem trimmed_strip {s : String} (h : strip s ≠ "") : Trimmed (strip s) := ⟨h, strip_strip s⟩

namespace Validated

variable {α β : Type}

theorem bind_ok {x : Validated α} {f : α → Validated β} {b : β} (h : x >>= f = .ok b) :
    ∃ a, x = .ok a ∧ f a = .ok b := by
  cases x with
  | error es => cases h
  | ok a => exact ⟨a, rfl, h⟩

end Validated

section Fields

variable {α : Type} {fields : List (String × Json)} {camel name : String}
  {validate : List Loc → Json → Validated α} {a : α}

theorem requiredField_ok (h : requiredField fields camel name validate = .ok a) :
    ∃ loc value, validate loc value = .ok a := by
  unfold requiredField at h
  split at h
  · exact ⟨_, _, h⟩
  · cases h

theorem optionalField_ok {default : α}
    (h : optionalField fields camel name default validate = .ok a) :
    a = default ∨ ∃ loc value, validate loc value = .ok a := by
  unfold optionalField at h
  split at h
  · exact Or.inr ⟨_, _, h⟩
  · exact Or.inl (Except.ok.inj h).symm

theorem validateNonBlank_ok {minLength maxLength : Nat} {loc : List Loc} {value : Json} {s : String}
    (h : validateNonBlank minLength maxLength loc value = .ok s) : Trimmed s := by
  obtain ⟨raw, -, h⟩ := Validated.bind_ok h
  obtain ⟨bounded, -, h⟩ := Validated.bind_ok h
  unfold stripAndRequireNonBlank at h
  dsimp only at h
  split_ifs at h with hblank
  · cases h
  · rw [← Except.ok.inj h]
    exact trimmed_strip hblank

theorem validateReviewerIds_ok {loc : List Loc} {value : Json} {ids : List String}
    (h : validateReviewerIds loc value = .ok ids) : ids.Nodup ∧ ∀ id ∈ ids, Trimmed id := by
  unfold validateReviewerIds at h
  split at h
  · obtain ⟨raw, -, hchecks⟩ := Validated.bind_ok h
    dsimp only at hchecks
    split_ifs at hchecks with hblank hnodup
    · cases hchecks
    · obtain rfl := Except.ok.inj hchecks
      refine ⟨hnodup, fun id hid => ?_⟩
      obtain ⟨rawId, -, rfl⟩ := List.mem_map.mp hid
      refine trimmed_strip fun hempty => ?_
      rw [hempty] at hid
      exact hblank hid
    · cases hchecks
  · cases h

end Fields

/-- What the validators of a create promise of its payload. -/
structure ApprovalRequestCreate.Valid (p : ApprovalRequestCreate) : Prop where
  sourceId : Trimmed p.sourceId
  title : Trimmed p.title
  reviewers_nodup : p.reviewerUserIds.Nodup
  reviewers : ∀ id ∈ p.reviewerUserIds, Trimmed id

theorem ApprovalRequestCreate.modelValidate_ok {fields : List (String × Json)}
    {p : ApprovalRequestCreate} (h : ApprovalRequestCreate.modelValidate fields = .ok p) :
    p.Valid := by
  obtain ⟨⟨sourceType, sourceId, title, description, reviewers⟩, hfields, h⟩ := Validated.bind_ok h
  obtain rfl := Except.ok.inj h
  obtain ⟨-, hfields⟩ := both_ok hfields
  obtain ⟨hsourceId, hfields⟩ := both_ok hfields
  obtain ⟨htitle, hfields⟩ := both_ok hfields
  obtain ⟨-, hreviewers⟩ := both_ok hfields
  obtain ⟨_, _, hsourceId⟩ := requiredField_ok hsourceId
  obtain ⟨_, _, htitle⟩ := requiredField_ok htitle
  have hids : reviewers.Nodup ∧ ∀ id ∈ reviewers, Trimmed id := by
    rcases optionalField_ok hreviewers with rfl | ⟨_, _, hreviewers⟩
    · exact ⟨List.nodup_nil, fun id hid => absurd hid List.not_mem_nil⟩
    · exact validateReviewerIds_ok hreviewers
  exact ⟨validateNonBlank_ok hsourceId, validateNonBlank_ok htitle, hids.1, hids.2⟩

theorem Creation.valid (c : Creation) : c.payload.Valid :=
  c.accepted.elim fun _ h => ApprovalRequestCreate.modelValidate_ok h

theorem DecisionReasonRequest.modelValidate_ok {fields : List (String × Json)}
    {p : DecisionReasonRequest} (h : DecisionReasonRequest.modelValidate fields = .ok p) :
    Trimmed p.reason := by
  obtain ⟨reason, hreason, h⟩ := Validated.bind_ok h
  obtain rfl := Except.ok.inj h
  obtain ⟨_, _, hreason⟩ := requiredField_ok hreason
  exact validateNonBlank_ok hreason

end ContentApproval
