import ContentApproval.Api.Problems
import ContentApproval.Json.Hidden
import ContentApproval.Schemas.ApprovalRequest

/-!
# What a 422 body shows of sensitive fields

`ErrorDetails.hide` takes out of an error whatever is stored under a key that looks
sensitive, on its path or at any depth of its input. `clean_determined_iff` says for which
errors the cleaned ones depend on nothing else: the code replaces an input only if the last
component of the path looks sensitive, so an input must not lie below or contain another
such key.
-/

namespace ContentApproval

namespace Errors

open Redaction

/-- Some component of the path looks sensitive. -/
def ErrorDetails.below (error : ErrorDetails) : Bool :=
  error.loc.any (fun item => looksSensitive item.text)

/-- An input without its sensitive values; below a sensitive key all of it is one. -/
def hideInput (below : Bool) (v : PyValue) : PyValue :=
  if below then .none else v.hide looksSensitive

/-- The error without the values that are stored under keys that look sensitive. -/
def ErrorDetails.hide (error : ErrorDetails) : ErrorDetails :=
  { error with input := error.input.map (hideInput error.below) }

/-- The error has no input, or its input is replaced, or it neither lies below a key that
looks sensitive nor has one. -/
def ErrorDetails.Guarded (error : ErrorDetails) : Prop :=
  ∀ v ∈ error.input, looksSensitive error.fieldName = true ∨
    (error.below = false ∧ v.Plain looksSensitive)

/-- An input is determined by what is not hidden exactly if nothing is. -/
theorem hideInput_unique_iff (below : Bool) (v : PyValue) :
    (∀ w, hideInput below w = hideInput below v → w = v) ↔
      below = false ∧ v.Plain looksSensitive := by
  cases below with
  | true =>
    simp only [hideInput, if_true, true_implies, Bool.true_eq_false, false_and, iff_false]
    intro h
    obtain ⟨w, hne⟩ := v.exists_other
    exact hne (h w)
  | false =>
    simp only [hideInput, Bool.false_eq_true, if_false, true_and]
    exact PyValue.hide_unique_iff v

/-- **One error.** What is not sensitive determines how it is shown exactly if it is
guarded. -/
theorem cleanValidationError_determined_iff (error : ErrorDetails) :
    (∀ error', error'.hide = error.hide →
      cleanValidationError error' = cleanValidationError error) ↔ error.Guarded := by
  constructor
  · intro h v hv
    rw [or_iff_not_imp_left, ← hideInput_unique_iff]
    intro hname w hw
    have hsame : ({ error with input := some w } : ErrorDetails).hide = error.hide := by
      unfold ErrorDetails.hide
      rw [show error.input = some v from hv]
      exact congrArg (fun x => { error with input := some x }) hw
    have hshown := congrArg CleanedError.input (h _ hsame)
    unfold cleanValidationError at hshown
    rw [show ErrorDetails.fieldName { error with input := some w } = error.fieldName from rfl,
      if_neg hname, if_neg hname, show error.input = some v from hv] at hshown
    exact Option.some.inj hshown
  · intro hguard error' h
    obtain ⟨type, loc, msg, input, ctx⟩ := error
    obtain ⟨type', loc', msg', input', ctx'⟩ := error'
    obtain ⟨rfl, rfl, rfl, hinput, -⟩ := ErrorDetails.mk.inj h
    cases input with
    | none =>
      obtain rfl : input' = none := Option.map_eq_none_iff.mp hinput
      rfl
    | some v =>
      obtain ⟨w, rfl, hw⟩ := Option.map_eq_some_iff.mp hinput
      rcases hguard v rfl with hname | hplain
      · unfold cleanValidationError
        rw [show ErrorDetails.fieldName ⟨type', loc', msg', some w, ctx'⟩ =
          ErrorDetails.fieldName ⟨type', loc', msg', some v, ctx⟩ from rfl, if_pos hname, if_pos hname]
        rfl
      · rw [(hideInput_unique_iff _ v).mpr hplain w hw]
        rfl

/-- A list is determined up to `g` by its values under `f` exactly if every item is. -/
theorem map_determined_iff {α β γ : Type} (f : α → β) (g : α → γ) (l : List α) :
    (∀ l' : List α, l'.map f = l.map f → l'.map g = l.map g) ↔ ∀ a ∈ l, ∀ a', f a' = f a → g a' = g a := by
  constructor
  · intro h a ha a' hf
    obtain ⟨before, after, rfl⟩ := List.append_of_mem ha
    have hg := h (before ++ a' :: after) (by simp [hf])
    simpa using hg
  · intro h l'
    induction l generalizing l' with
    | nil =>
      intro hl
      rw [List.map_eq_nil_iff.mp hl]
    | cons a l ih =>
      intro hl
      obtain ⟨a', l'', rfl, ha, hrest⟩ := List.map_eq_cons_iff.mp hl
      rw [List.map_cons, List.map_cons, h a List.mem_cons_self a' ha,
        ih (fun b hb => h b (List.mem_cons_of_mem _ hb)) l'' hrest]

/-- **Whether a 422 body depends on sensitive values.** Every list of errors that differs
from this one only in values stored under keys that look sensitive is cleaned to the same
result exactly if every error of the list is guarded. -/
theorem clean_determined_iff (errors : List ErrorDetails) :
    (∀ errors', errors'.map ErrorDetails.hide = errors.map ErrorDetails.hide →
      cleanValidationErrors errors' = cleanValidationErrors errors) ↔
        ∀ error ∈ errors, error.Guarded := by
  unfold cleanValidationErrors
  rw [map_determined_iff]
  exact forall₂_congr fun error _ => cleanValidationError_determined_iff error

/-! ## A body with a password -/

/-- A create without its source type, and with a password. -/
def bodyWithPassword (password : String) : List (String × Json) :=
  [("sourceId", .str "pub_1"), ("title", .str "T"), ("password", .str password)]

/-- The error of the missing field. -/
def missingSourceType (password : String) : ErrorItem :=
  ⟨"missing", [.field "body", .field "sourceType"], "Field required",
    .obj (bodyWithPassword password)⟩

/-- `sourceType` does not look sensitive, so the body is shown. -/
theorem input_missingSourceType (password : String) :
    (cleanValidationError (.ofItem (missingSourceType password))).input =
      some (.ofJson (.obj (bodyWithPassword password))) := by
  have hname : looksSensitive (ErrorDetails.ofItem (missingSourceType password)).fieldName = false := by
    change looksSensitive (PyStr.ofString "sourceType") = false
    decide
  unfold cleanValidationError
  rw [if_neg (by rw [hname]; decide)]
  rfl

/-- The error of the missing source type shows the whole body, with the password. -/
theorem password_echoed :
    (∀ password, ApprovalRequestCreate.modelValidate (bodyWithPassword password) =
      .error [missingSourceType password]) ∧
    ∃ errors errors', errors = [ErrorDetails.ofItem (missingSourceType "hunter2")] ∧
      errors' = [ErrorDetails.ofItem (missingSourceType "hunter3")] ∧
      errors'.map ErrorDetails.hide = errors.map ErrorDetails.hide ∧
      cleanValidationErrors errors' ≠ cleanValidationErrors errors := by
  refine ⟨fun password => rfl, _, _, rfl, rfl, ?_, ?_⟩
  · have hhide : ∀ password, (ErrorDetails.ofItem (missingSourceType password)).hide =
        { ErrorDetails.ofItem (missingSourceType "hunter2") with
          input := some (hideInput false (.ofJson (.obj (bodyWithPassword password)))) } := by
      intro password
      have hbelow : (ErrorDetails.ofItem (missingSourceType password)).below = false := by
        change [LocItem.name (PyStr.ofString "body"), .name (PyStr.ofString "sourceType")].any _ =
          false
        decide
      unfold ErrorDetails.hide
      rw [hbelow]
      rfl
    have hkey : looksSensitive (PyStr.ofString "password") = true := by decide
    rw [List.map_singleton, List.map_singleton, hhide, hhide]
    simp [hideInput, bodyWithPassword, PyValue.ofJson, PyValue.ofFields, PyValue.hide,
      PyValue.hideEntries, hkey]
  · intro h
    have hinput := congrArg CleanedError.input (List.cons.inj h).1
    rw [input_missingSourceType, input_missingSourceType] at hinput
    simp [bodyWithPassword, PyValue.ofJson, PyValue.ofFields] at hinput
    exact absurd hinput (by decide)

end Errors

end ContentApproval
