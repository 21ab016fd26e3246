import ContentApproval.Api.Problems
import ContentApproval.Schemas.ApprovalRequest

/-!
# Whether a validation failure is answered 422

The handler of a validation failure shows the inputs of its errors to a strict serializer.
`answered_422_iff` says for which errors that succeeds; for the others the client gets the
500 of the handler for `Exception`. The errors of a JSON document of Unicode text with
integer numbers are among the former (`renderable_ofItems`).
-/

namespace ContentApproval

namespace Errors

open Redaction PyStr

/-- What is shown of the error can be rendered. -/
def ErrorDetails.Showable (error : ErrorDetails) : Prop :=
  (∀ item ∈ error.loc, item.text.Encodable) ∧
    (looksSensitive error.fieldName = true ∨ ∀ v ∈ error.input, v.Strict)

theorem LocItem.strict_toValue (item : LocItem) : item.toValue.Strict ↔ item.text.Encodable := by
  cases item with
  | name s => rw [toValue, PyValue.Strict, text]
  | index n => simp [toValue, PyValue.Strict, text, encodable_ofString]

theorem ErrorDetails.strict_clean (error : ErrorDetails) :
    (cleanValidationError error).toValue.Strict ↔ error.Showable := by
  have hinput : (∀ v ∈ (cleanValidationError error).input, v.Strict) ↔
      looksSensitive error.fieldName = true ∨ ∀ v ∈ error.input, v.Strict := by
    unfold cleanValidationError
    by_cases hname : looksSensitive error.fieldName = true
    · simp [hname, PyValue.Strict, encodable_ofString]
    · simp [hname]
  have hloc : (∀ v ∈ error.loc.map LocItem.toValue, v.Strict) ↔
      ∀ item ∈ error.loc, item.text.Encodable := by
    simp [LocItem.strict_toValue]
  rw [Showable, ← hinput, ← hloc]
  simp only [CleanedError.toValue, PyValue.Strict, PyValue.strictEntries_iff]
  cases (cleanValidationError error).input <;>
    simp [PyValue.Strict, PyValue.strictItems_iff, encodable_ofString, cleanValidationError]

/-- A problem response can be rendered if what is added to it can. -/
theorem strict_problem (statusCode : Nat) (detail : String) (extra : List (PyStr × PyValue)) :
    (problem statusCode detail extra).content.Strict ↔ ∀ e ∈ extra, e.1.Encodable ∧ e.2.Strict := by
  simp only [problem, PyValue.Strict, PyValue.strictEntries_iff, List.forall_mem_append]
  simp [PyValue.Strict, encodable_ofString]

theorem strict_validation (errors : List ErrorDetails) :
    (validationExceptionHandler errors).content.Strict ↔ ∀ error ∈ errors, error.Showable := by
  rw [validationExceptionHandler, strict_problem]
  simp [PyValue.Strict, PyValue.strictItems_iff, encodable_ofString, cleanValidationErrors,
    ErrorDetails.strict_clean]

/-- A response that can be rendered goes out, any other one gives a 500. -/
theorem sent_statusCode (response : JSONResponse) (hmedia : response.mediaType = problemMediaType) :
    ∃ s, response.sent = some s ∧ s.mediaType = problemMediaType ∧
      (response.content.Strict → s.statusCode = response.statusCode) ∧
      (¬ response.content.Strict → s.statusCode = 500) := by
  rw [← PyValue.render_isSome, JSONResponse.sent, JSONResponse.rendered]
  cases response.content.render with
  | some body => exact ⟨_, rfl, hmedia, fun _ => rfl, fun h => absurd rfl h⟩
  | none =>
    have hsome : unhandledProblem.content.render.isSome := by
      rw [PyValue.render_isSome, unhandledProblem, strict_problem]
      simp
    obtain ⟨body, hbody⟩ := Option.isSome_iff_exists.mp hsome
    rw [Option.map_none, Option.none_or, JSONResponse.rendered, hbody]
    exact ⟨_, rfl, rfl, fun h => (by cases h), fun _ => rfl⟩

/-- The response to the exception can be rendered, which is so unless it is a validation
failure that shows what can not be. -/
def Renderable : Exn → Prop
  | .requestValidationError errors => ∀ error ∈ errors, error.Showable
  | _ => True

theorem response_strict (e : Exn) : (response e).content.Strict ↔ Renderable e := by
  cases e with
  | requestValidationError errors => exact strict_validation errors
  | _ => exact iff_of_true ((strict_problem _ _ _).mpr (by simp)) trivial

theorem response_unrendered {e : Exn} (h : ¬ Renderable e) : (response e).rendered = none := by
  rw [← response_strict, ← PyValue.render_isSome, Option.not_isSome_iff_eq_none] at h
  rw [JSONResponse.rendered, h, Option.map_none]

/-- **An exception whose response can be rendered is answered with its own status.** -/
theorem response_rendered {e : Exn} (h : Renderable e) : ∃ s, (response e).rendered = some s ∧
    s.statusCode = e.statusCode ∧ s.mediaType = problemMediaType := by
  obtain ⟨body, hbody⟩ :=
    Option.isSome_iff_exists.mp ((PyValue.render_isSome _).mpr ((response_strict e).mpr h))
  rw [JSONResponse.rendered, hbody]
  refine ⟨_, rfl, ?_, ?_⟩ <;> cases e <;> rfl

/-- The errors of a JSON document of Unicode text can be shown. -/
theorem showable_ofItem (item : ErrorItem) : (ErrorDetails.ofItem item).Showable := by
  refine ⟨?_, Or.inr fun v hv => ?_⟩
  · intro loc hloc
    obtain ⟨l, -, rfl⟩ := List.mem_map.mp hloc
    cases l <;> exact encodable_ofString _
  · obtain rfl := Option.some.inj hv
    exact PyValue.ofJson_strict _

theorem renderable_ofItems (items : List ErrorItem) :
    Renderable (.invalid items) := by
  intro error herror
  obtain ⟨item, -, rfl⟩ := List.mem_map.mp herror
  exact showable_ofItem item

/-- **Which validation failures are answered 422.** Every validation failure is answered by
a problem document, and its status is 422 exactly if what each error shows can be rendered:
its path has no surrogate, and its input is replaced, or has no bytes, no float that is not
finite and no surrogate at any depth. Otherwise it is 500. -/
theorem answered_422_iff (errors : List ErrorDetails) :
    ∃ s, (validationExceptionHandler errors).sent = some s ∧ s.mediaType = problemMediaType ∧
      (s.statusCode = 422 ↔ ∀ error ∈ errors, error.Showable) ∧
      (s.statusCode ≠ 422 → s.statusCode = 500) := by
  obtain ⟨s, hs, hmedia, hstrict, hno⟩ := sent_statusCode (validationExceptionHandler errors) rfl
  rw [strict_validation] at hstrict hno
  refine ⟨s, hs, hmedia, ⟨fun h => ?_, hstrict⟩, fun h => hno fun hshow => h (hstrict hshow)⟩
  by_contra hshow
  rw [hno hshow] at h
  cases h

/-- The body `NaN`: for every body model the validation error shows it, and the answer
is 500. -/
theorem nan_body_unanswered : ∃ errors s,
    (∀ validate : List (PyStr × PyValue) → Except (List ErrorDetails) ApprovalRequestCreate,
      validateBodyValue validate (some (.float .nan)) = .error errors) ∧
    (validationExceptionHandler errors).sent = some s ∧ s.statusCode = 500 := by
  let errors : List ErrorDetails := [⟨"model_attributes_type", [.name (ofString "body")],
    "Input should be a valid dictionary or object to extract fields from", some (.float .nan), none⟩]
  obtain ⟨s, hs, -, -, hno⟩ := sent_statusCode (validationExceptionHandler errors) rfl
  refine ⟨errors, s, fun _ => rfl, hs, hno ?_⟩
  rw [strict_validation]
  intro hshow
  rcases (hshow _ List.mem_cons_self).2 with hname | hinput
  · exact absurd hname (by change ¬ looksSensitive (ofString "body") = true; decide)
  · simpa [PyValue.Strict] using hinput _ rfl

end Errors

end ContentApproval
