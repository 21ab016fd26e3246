import Mathlib.Data.List.DropRight

/-!
# Trimming

`trim p l` is the list without the elements at its two ends that satisfy `p`. Trimming twice
is trimming once (`trim_trim`), nothing is left of a list exactly if `p` holds throughout
(`trim_eq_nil_iff`), and trimming commutes with a map that respects `p` (`trim_map`).
-/

namespace Trim

variable {α β : Type} (p : α → Bool) (l : List α)

def trim : List α := ((l.dropWhile p).reverse.dropWhile p).reverse

theorem trim_eq_rdropWhile : trim p l = (l.dropWhile p).rdropWhile p := rfl

theorem trim_trim : trim p (trim p l) = trim p l := by
  -- what is left at the front was not dropped before
  have hfront : (trim p l).dropWhile p = trim p l := by
    rw [List.dropWhile_eq_self_iff]
    intro hl
    have hinit : trim p l <+: l.dropWhile p := List.rdropWhile_prefix p _
    have hlen := Nat.lt_of_lt_of_le hl hinit.length_le
    rw [hinit.getElem hl]
    exact List.dropWhile_get_zero_not p l hlen
  calc trim p (trim p l) = (trim p l).rdropWhile p := by rw [trim_eq_rdropWhile, hfront]
    _ = trim p l := List.rdropWhile_idempotent p _

theorem trim_eq_nil_iff : trim p l = [] ↔ ∀ a ∈ l, p a = true := by
  rw [trim_eq_rdropWhile, List.rdropWhile_eq_nil_iff]
  constructor
  · intro h a ha
    by_contra hp
    -- the first element that is not dropped
    have hne : l.dropWhile p ≠ [] := by
      rw [Ne, List.dropWhile_eq_nil_iff]
      exact fun hall => hp (hall a ha)
    have hlen := List.length_pos_of_ne_nil hne
    exact List.dropWhile_get_zero_not p l hlen (h _ (List.getElem_mem hlen))
  · intro h a ha
    exact h a (List.dropWhile_subset p ha)

theorem length_trim_le : (trim p l).length ≤ l.length := by
  have hinit : trim p l <+: l.dropWhile p := List.rdropWhile_prefix p _
  exact hinit.length_le.trans (List.dropWhile_sublist p).length_le

variable {p l} in
theorem trim_map {q : β → Bool} {f : α → β} (h : ∀ a, q (f a) = p a) :
    trim q (l.map f) = (trim p l).map f := by
  have hsame : q ∘ f = p := funext h
  rw [trim, trim, List.dropWhile_map, hsame, ← List.map_reverse, List.dropWhile_map, hsame,
    List.map_reverse]

end Trim
