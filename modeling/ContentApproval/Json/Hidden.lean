import ContentApproval.Json.Strict

/-!
# Values that differ only under some keys

For a predicate `p` on keys, `hide p v` is the value `v` without what it stores under the
keys with `p`, at any depth. Two values with the same `hide p` differ at most there.
`hide_unique_iff`: a value is determined by `hide p` exactly if it has no such key.
-/

namespace PyValue

variable (p : PyStr → Bool)

mutual

/-- The value with everything under a key with `p` taken out. -/
def hide : PyValue → PyValue
  | .list items => .list (hideItems items)
  | .dict entries => .dict (hideEntries entries)
  | v => v

def hideItems : List PyValue → List PyValue
  | [] => []
  | v :: vs => hide v :: hideItems vs

def hideEntries : List (PyStr × PyValue) → List (PyStr × PyValue)
  | [] => []
  | (k, v) :: es => (k, if p k then .none else hide v) :: hideEntries es

end

mutual

/-- No key of the value has `p`, at any depth. -/
def Plain : PyValue → Prop
  | .list items => PlainItems items
  | .dict entries => PlainEntries entries
  | _ => True

def PlainItems : List PyValue → Prop
  | [] => True
  | v :: vs => Plain v ∧ PlainItems vs

def PlainEntries : List (PyStr × PyValue) → Prop
  | [] => True
  | (k, v) :: es => p k = false ∧ Plain v ∧ PlainEntries es

end

variable {p}

/-- Hiding keeps the constructor of a value. -/
theorem hide_eq_list {w : PyValue} {items : List PyValue} (h : hide p w = .list items) :
    ∃ vs, w = .list vs ∧ hideItems p vs = items := by
  cases w with
  | list vs => exact ⟨vs, rfl, by simpa [hide] using h⟩
  | _ => simp [hide] at h

theorem hide_eq_dict {w : PyValue} {entries : List (PyStr × PyValue)}
    (h : hide p w = .dict entries) : ∃ es, w = .dict es ∧ hideEntries p es = entries := by
  cases w with
  | dict es => exact ⟨es, rfl, by simpa [hide] using h⟩
  | _ => simp [hide] at h

theorem hideEntries_eq_cons {fs entries : List (PyStr × PyValue)} {k : PyStr} {x : PyValue}
    (h : hideEntries p fs = (k, x) :: entries) :
    ∃ w gs, fs = (k, w) :: gs ∧ (if p k then .none else hide p w) = x ∧
      hideEntries p gs = entries := by
  cases fs with
  | nil => simp [hideEntries] at h
  | cons f gs =>
    obtain ⟨l, w⟩ := f
    simp only [hideEntries, List.cons.injEq, Prod.mk.injEq] at h
    obtain ⟨⟨rfl, hx⟩, hentries⟩ := h
    exact ⟨w, gs, rfl, hx, hentries⟩

mutual

/-- Only a plain value looks like itself with everything hidden. -/
theorem eq_of_plain : ∀ {v w : PyValue}, v.Plain p → hide p w = hide p v → w = v
  | .list vs, w, hv, h => by
    rw [hide] at h
    obtain ⟨ws, rfl, hws⟩ := hide_eq_list h
    rw [Plain] at hv
    rw [eq_of_plainItems hv hws]
  | .dict es, w, hv, h => by
    rw [hide] at h
    obtain ⟨fs, rfl, hfs⟩ := hide_eq_dict h
    rw [Plain] at hv
    rw [eq_of_plainEntries hv hfs]
  | .none, w, _, h | .bool _, w, _, h | .int _, w, _, h | .float _, w, _, h | .str _, w, _, h
  | .bytes _, w, _, h => by
    cases w <;> simp_all [hide]

theorem eq_of_plainItems : ∀ {vs ws : List PyValue}, PlainItems p vs →
    hideItems p ws = hideItems p vs → ws = vs
  | [], ws, _, h => by
    cases ws with
    | nil => rfl
    | cons w ws => simp [hideItems] at h
  | v :: vs, ws, hv, h => by
    cases ws with
    | nil => simp [hideItems] at h
    | cons w ws =>
      simp only [hideItems, List.cons.injEq] at h
      rw [PlainItems] at hv
      rw [eq_of_plain hv.1 h.1, eq_of_plainItems hv.2 h.2]

theorem eq_of_plainEntries : ∀ {es fs : List (PyStr × PyValue)}, PlainEntries p es →
    hideEntries p fs = hideEntries p es → fs = es
  | [], fs, _, h => by
    cases fs with
    | nil => rfl
    | cons f fs => simp [hideEntries] at h
  | (k, v) :: es, fs, hv, h => by
    rw [PlainEntries] at hv
    rw [hideEntries, hv.1] at h
    obtain ⟨w, gs, rfl, hw, hgs⟩ := hideEntries_eq_cons h
    rw [if_neg (by simp [hv.1])] at hw
    rw [eq_of_plain hv.2.1 hw, eq_of_plainEntries hv.2.2 hgs]

end

/-- There is another value than this one. -/
theorem exists_other (v : PyValue) : ∃ w, w ≠ v := by
  cases v with
  | none => exact ⟨.bool true, by simp⟩
  | _ => exact ⟨.none, by simp⟩

mutual

/-- A value with such a key is not the only one that looks so. -/
theorem exists_alike : ∀ {v : PyValue}, ¬ v.Plain p → ∃ w, w ≠ v ∧ hide p w = hide p v
  | .list vs, hv => by
    rw [Plain] at hv
    obtain ⟨ws, hne, hws⟩ := exists_alikeItems hv
    exact ⟨.list ws, by simpa using hne, by rw [hide, hide, hws]⟩
  | .dict es, hv => by
    rw [Plain] at hv
    obtain ⟨fs, hne, hfs⟩ := exists_alikeEntries hv
    exact ⟨.dict fs, by simpa using hne, by rw [hide, hide, hfs]⟩
  | .none, hv | .bool _, hv | .int _, hv | .float _, hv | .str _, hv | .bytes _, hv => by
    simp [Plain] at hv

theorem exists_alikeItems : ∀ {vs : List PyValue}, ¬ PlainItems p vs →
    ∃ ws, ws ≠ vs ∧ hideItems p ws = hideItems p vs
  | [], hv => by simp [PlainItems] at hv
  | v :: vs, hv => by
    rw [PlainItems, not_and_or] at hv
    rcases hv with hv | hv
    · obtain ⟨w, hne, hw⟩ := exists_alike hv
      exact ⟨w :: vs, by simpa using hne, by rw [hideItems, hideItems, hw]⟩
    · obtain ⟨ws, hne, hws⟩ := exists_alikeItems hv
      exact ⟨v :: ws, by simpa using hne, by rw [hideItems, hideItems, hws]⟩

theorem exists_alikeEntries : ∀ {es : List (PyStr × PyValue)}, ¬ PlainEntries p es →
    ∃ fs, fs ≠ es ∧ hideEntries p fs = hideEntries p es
  | [], hv => by simp [PlainEntries] at hv
  | (k, v) :: es, hv => by
    rw [PlainEntries, not_and_or, not_and_or, Bool.not_eq_false] at hv
    rcases hv with hk | hv | hv
    · obtain ⟨w, hne⟩ := exists_other v
      exact ⟨(k, w) :: es, by simpa using hne, by rw [hideEntries, hideEntries, if_pos hk, if_pos hk]⟩
    · obtain ⟨w, hne, hw⟩ := exists_alike hv
      exact ⟨(k, w) :: es, by simpa using hne, by rw [hideEntries, hideEntries, hw]⟩
    · obtain ⟨fs, hne, hfs⟩ := exists_alikeEntries hv
      exact ⟨(k, v) :: fs, by simpa using hne, by rw [hideEntries, hideEntries, hfs]⟩

end

/-- **A value is determined by what is not hidden exactly if nothing in it is.** -/
theorem hide_unique_iff (v : PyValue) : (∀ w, hide p w = hide p v → w = v) ↔ v.Plain p := by
  constructor
  · intro h
    by_contra hv
    obtain ⟨w, hne, hw⟩ := exists_alike hv
    exact hne (h w hw)
  · exact fun hv w => eq_of_plain hv

end PyValue
