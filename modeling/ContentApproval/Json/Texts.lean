import ContentApproval.Json.Canonical

/-!
# The texts of a JSON document

`Json.texts` lists the strings of a document and the keys of its objects, at any depth.
-/

namespace Json

mutual

def texts : Json → List String
  | .str s => [s]
  | .arr items => itemTexts items
  | .obj fields => fieldTexts fields
  | _ => []

def itemTexts : List Json → List String
  | [] => []
  | item :: items => texts item ++ itemTexts items

def fieldTexts : List (String × Json) → List String
  | [] => []
  | (key, value) :: fields => key :: (texts value ++ fieldTexts fields)

end

@[simp] theorem itemTexts_str (ids : List String) : itemTexts (ids.map .str) = ids := by
  induction ids with
  | nil => rw [List.map_nil, itemTexts]
  | cons id ids ih => rw [List.map_cons, itemTexts, ih, texts, List.singleton_append]

/-- The keys and the values of an object. -/
theorem forall_texts_obj {P : String → Prop} {fields : List (String × Json)} :
    (∀ t ∈ texts (.obj fields), P t) ↔
      (∀ key ∈ fields.map Prod.fst, P key) ∧ ∀ value ∈ fields.map Prod.snd, ∀ t ∈ value.texts, P t := by
  rw [texts]
  induction fields with
  | nil => simp [fieldTexts]
  | cons field fields ih =>
    simp only [fieldTexts, List.forall_mem_cons, List.forall_mem_append, List.map_cons, ih]
    tauto

end Json
