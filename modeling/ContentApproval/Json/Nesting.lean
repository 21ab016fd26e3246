import ContentApproval.Json.Reader

/-!
# Texts that nest too deeply

`Nests n s` says of a text, without running the reader on it, that it opens more than `n`
containers inside each other before anything in it is malformed. `scanOnce_error_iff`: these are
the texts at which the reader raises `RecursionError` when it may open `n`.

With more room the reader gives the same result, unless it had too little (`refines_scanOnce`).
-/

namespace Json.Reader

open PyStr

/-! ## Where `RecursionError` comes from -/

theorem scanString_error {n : Nat} {s : PyStr} {e : LoadsError} (h : scanString n s = .error e) :
    e = .jsonDecodeError := by
  induction s generalizing n with
  | nil => cases n <;> cases h <;> rfl
  | cons c s ih =>
    cases n with
    | succ n => exact ih h
    | zero =>
      rw [scanString] at h
      split_ifs at h
      · split at h
        · cases h
          rfl
        · exact ih (map_eq_error.mp h)
      · cases h
        rfl
      · exact ih (map_eq_error.mp h)

theorem scanKey_error {s : PyStr} {e : LoadsError} (h : scanKey s = .error e) :
    e = .jsonDecodeError := by
  cases s with
  | nil =>
    cases h
    rfl
  | cons c s =>
    rw [scanKey] at h
    split_ifs at h
    · rcases bind_eq_error.mp h with h | ⟨p, -, h⟩
      · exact scanString_error h
      · dsimp only at h
        split at h
        · cases h
          rfl
        · split_ifs at h
          cases h
          rfl
    · cases h
      rfl

section Scanners

variable (float : PyStr → PyFloat)

theorem scanAtom_ne_recursionError (s : PyStr) : scanAtom float s ≠ .error .recursionError := by
  unfold scanAtom matchNumber
  dsimp only
  split
  · exact fun h => by cases h
  · split
    · exact fun h => by cases h
    · split_ifs <;> exact fun h => by cases h

/-- A closing bracket or brace is no value. -/
theorem scanOnce_close (room : Nat) {c : CodePoint} (hc : c = codePoint ']' ∨ c = codePoint '}')
    (r : PyStr) : scanOnce float room (c :: r) = .error .jsonDecodeError := by
  have hvalue : ∀ inner, scanValue float inner (c :: r) = .error .jsonDecodeError := by
    intro inner
    rcases hc with rfl | rfl <;> rfl
  cases room <;> exact hvalue _

/-! ## More room -/

/-- Where the one scanner has room enough, the other gives the same. -/
def Refines {α : Type} (scan scan' : PyStr → Read α) : Prop :=
  ∀ s, scan s = .error .recursionError ∨ scan' s = scan s

section Containers

variable {scan scan' : PyStr → Read PyValue}

theorem Refines.scanItems (h : Refines scan scan') (n : Nat) :
    Refines (scanItems scan n) (scanItems scan' n) := by
  induction n with
  | zero => exact fun _ => Or.inr rfl
  | succ n ih =>
    intro s
    rw [Reader.scanItems, Reader.scanItems]
    rcases h s with hs | hs
    · rw [hs]
      exact Or.inl rfl
    · rw [hs]
      cases scan s with
      | error e => exact Or.inr rfl
      | ok p =>
        obtain ⟨item, r⟩ := p
        simp only [Except.bind]
        split
        · exact Or.inr rfl
        · rename_i c r' _
          split_ifs
          · exact Or.inr rfl
          · rcases ih (skip r') with hr | hr
            · rw [hr]
              exact Or.inl rfl
            · rw [hr]
              exact Or.inr rfl
          · exact Or.inr rfl

theorem Refines.scanMembers (h : Refines scan scan') (n : Nat) :
    Refines (scanMembers scan n) (scanMembers scan' n) := by
  induction n with
  | zero => exact fun _ => Or.inr rfl
  | succ n ih =>
    intro s
    rw [Reader.scanMembers, Reader.scanMembers]
    cases scanKey s with
    | error e => exact Or.inr rfl
    | ok p =>
      obtain ⟨key, r⟩ := p
      simp only [Except.bind]
      rcases h r with hr | hr
      · rw [hr]
        exact Or.inl rfl
      · rw [hr]
        cases scan r with
        | error e => exact Or.inr rfl
        | ok p =>
          obtain ⟨value, r'⟩ := p
          dsimp only
          split
          · exact Or.inr rfl
          · rename_i c r'' _
            split_ifs
            · exact Or.inr rfl
            · rcases ih (skip r'') with hr | hr
              · rw [hr]
                exact Or.inl rfl
              · rw [hr]
                exact Or.inr rfl
            · exact Or.inr rfl

theorem Refines.scanArray (h : Refines scan scan') : Refines (scanArray scan) (scanArray scan') := by
  intro s
  unfold Reader.scanArray
  split
  · exact Or.inr rfl
  · rename_i c r _
    split_ifs
    · exact Or.inr rfl
    · rcases h.scanItems (c :: r).length (c :: r) with hr | hr
      · rw [hr]
        exact Or.inl rfl
      · rw [hr]
        exact Or.inr rfl

theorem Refines.scanObject (h : Refines scan scan') :
    Refines (scanObject scan) (scanObject scan') := by
  intro s
  unfold Reader.scanObject
  split
  · exact Or.inr rfl
  · rename_i c r _
    split_ifs
    · exact Or.inr rfl
    · rcases h.scanMembers (c :: r).length (c :: r) with hr | hr
      · rw [hr]
        exact Or.inl rfl
      · rw [hr]
        exact Or.inr rfl

theorem Refines.scanValue (h : Refines scan scan') :
    Refines (scanValue float (some scan)) (scanValue float (some scan')) := by
  intro s
  cases s with
  | nil => exact Or.inr rfl
  | cons c s =>
    rw [Reader.scanValue, Reader.scanValue]
    split_ifs
    · exact Or.inr rfl
    · exact h.scanArray s
    · exact h.scanObject s
    · exact Or.inr rfl

theorem refines_none : Refines (scanValue float none) (scanValue float (some scan)) := by
  intro s
  cases s with
  | nil => exact Or.inr rfl
  | cons c s =>
    rw [Reader.scanValue, Reader.scanValue]
    split_ifs
    · exact Or.inr rfl
    · exact Or.inl rfl
    · exact Or.inl rfl
    · exact Or.inr rfl

end Containers

theorem refines_succ (room : Nat) : Refines (scanOnce float room) (scanOnce float (room + 1)) := by
  induction room with
  | zero => exact refines_none float
  | succ room ih => exact ih.scanValue float

/-- **More room changes a result only if there was too little.** -/
theorem refines_scanOnce {room room' : Nat} (h : room ≤ room') :
    Refines (scanOnce float room) (scanOnce float room') := by
  induction h with
  | refl => exact fun _ => Or.inr rfl
  | @step room' _ ih =>
    intro s
    rcases ih s with hs | hs
    · exact Or.inl hs
    · rcases refines_succ float room' s with hs' | hs'
      · exact Or.inl (hs.symm.trans hs')
      · exact Or.inr (hs'.trans hs)

/-! ## Nesting -/

/-- The text begins with a value, which the reader can read if it has room enough. -/
def Reads (s : PyStr) (v : PyValue) (r : PyStr) : Prop := ∃ room, scanOnce float room s = .ok (v, r)

/-- Some items and their commas lead from one place in an array to another. -/
inductive ItemAt : PyStr → PyStr → Prop
  | here (s : PyStr) : ItemAt s s
  | next {s r r' t : PyStr} {v : PyValue} : Reads float s v r → skip r = codePoint ',' :: r' →
      ItemAt (skip r') t → ItemAt s t

/-- Some members and the name of another one lead from one place in an object to a value. -/
inductive MemberAt : PyStr → PyStr → Prop
  | here {s t key : PyStr} : scanKey s = .ok (key, t) → MemberAt s t
  | next {s key r r' r'' t : PyStr} {v : PyValue} : scanKey s = .ok (key, r) → Reads float r v r' →
      skip r' = codePoint ',' :: r'' → MemberAt (skip r'') t → MemberAt s t

/-- The text opens more than `n` containers inside each other before anything in it is
malformed. -/
inductive Nests : Nat → PyStr → Prop
  | array {r : PyStr} : Nests 0 (codePoint '[' :: r)
  | object {r : PyStr} : Nests 0 (codePoint '{' :: r)
  | item {n : Nat} {r t : PyStr} : ItemAt float (skip r) t → Nests n t →
      Nests (n + 1) (codePoint '[' :: r)
  | member {n : Nat} {r t : PyStr} : MemberAt float (skip r) t → Nests n t →
      Nests (n + 1) (codePoint '{' :: r)

variable {float}

/-- A value is read with any room, or there is too little. -/
theorem Reads.scanOnce {s r : PyStr} {v : PyValue} (h : Reads float s v r) (room : Nat) :
    scanOnce float room s = .error .recursionError ∨ scanOnce float room s = .ok (v, r) := by
  obtain ⟨room', h⟩ := h
  rcases Nat.le_total room room' with hle | hle
  · exact (refines_scanOnce float hle s).imp_right fun hs => hs.symm.trans h
  · rcases refines_scanOnce float hle s with hs | hs
    · rw [h] at hs
      cases hs
    · exact Or.inr (hs.trans h)

theorem Reads.length {s r : PyStr} {v : PyValue} (h : Reads float s v r) : r.length < s.length := by
  obtain ⟨room, h⟩ := h
  exact scanOnce_length float room h

theorem Reads.ne_close {s r : PyStr} {v : PyValue} {c : CodePoint} (h : Reads float (c :: s) v r) :
    ¬ (c = codePoint ']' ∨ c = codePoint '}') := by
  obtain ⟨room, h⟩ := h
  intro hc
  rw [scanOnce_close float room hc] at h
  cases h

theorem nests_ne_close {room : Nat} {s : PyStr} {c : CodePoint}
    (h : scanOnce float room (c :: s) = .error .recursionError) :
    ¬ (c = codePoint ']' ∨ c = codePoint '}') := by
  intro hc
  rw [scanOnce_close float room hc] at h
  cases h

/-! ### A text that nests raises -/

variable {room : Nat}

theorem ItemAt.scanItems {s t : PyStr} (h : ItemAt float s t)
    (ht : scanOnce float room t = .error .recursionError) {n : Nat} (hn : s.length ≤ n) :
    scanItems (scanOnce float room) n s = .error .recursionError := by
  induction h generalizing n with
  | here s =>
    cases n with
    | zero =>
      rw [List.eq_nil_of_length_eq_zero (Nat.le_zero.mp hn)] at ht
      cases room <;> cases ht
    | succ n =>
      rw [Reader.scanItems, ht]
      rfl
  | @next s r r' t v hreads hskip _ ih =>
    have hlen := hreads.length
    have hrest := length_of_skip hskip
    have hle := length_skip_le r'
    cases n with
    | zero => omega
    | succ n =>
      rcases hreads.scanOnce room with hs | hs
      · rw [Reader.scanItems, hs]
        rfl
      · rw [scanItems_next hs hskip, ih ht (by omega)]
        rfl

theorem MemberAt.scanMembers {s t : PyStr} (h : MemberAt float s t)
    (ht : scanOnce float room t = .error .recursionError) {n : Nat} (hn : s.length ≤ n) :
    scanMembers (scanOnce float room) n s = .error .recursionError := by
  induction h generalizing n with
  | @here s t key hkey =>
    have hlen := scanKey_length hkey
    cases n with
    | zero => omega
    | succ n =>
      rw [Reader.scanMembers, hkey]
      simp only [Except.bind, ht]
  | @next s key r r' r'' t v hkey hreads hskip _ ih =>
    have hlen := scanKey_length hkey
    have hlen' := hreads.length
    have hrest := length_of_skip hskip
    have hle := length_skip_le r''
    cases n with
    | zero => omega
    | succ n =>
      rcases hreads.scanOnce room with hs | hs
      · rw [Reader.scanMembers, hkey]
        simp only [Except.bind, hs]
      · rw [scanMembers_next hkey hs hskip, ih ht (by omega)]
        rfl

theorem ItemAt.head {s t : PyStr} (h : ItemAt float s t)
    (ht : scanOnce float room t = .error .recursionError) :
    ∃ c r, s = c :: r ∧ c ≠ codePoint ']' := by
  cases h with
  | here s =>
    cases s with
    | nil => cases room <;> cases ht
    | cons c r => exact ⟨c, r, rfl, fun hc => nests_ne_close ht (Or.inl hc)⟩
  | next hreads _ _ =>
    cases s with
    | nil => exact absurd hreads.length (Nat.not_lt_zero _)
    | cons c r => exact ⟨c, r, rfl, fun hc => hreads.ne_close (Or.inl hc)⟩

theorem MemberAt.head {s t : PyStr} (h : MemberAt float s t) :
    ∃ c r, s = c :: r ∧ c ≠ codePoint '}' := by
  have hkey : ∀ {key r}, scanKey s = .ok (key, r) → ∃ c r, s = c :: r ∧ c ≠ codePoint '}' := by
    intro key r hkey
    cases s with
    | nil => cases hkey
    | cons c s =>
      refine ⟨c, s, rfl, ?_⟩
      rintro rfl
      cases hkey
  cases h with
  | here h => exact hkey h
  | next h _ _ _ => exact hkey h

theorem Nests.scanOnce {s : PyStr} (h : Nests float room s) :
    scanOnce float room s = .error .recursionError := by
  induction h with
  | array => rfl
  | object => rfl
  | @item n r t hitem _ ih =>
    obtain ⟨c, r', hr, hc⟩ := hitem.head ih
    change scanArray (Reader.scanOnce float n) r = _
    rw [scanArray_items hr hc, hitem.scanItems ih (Nat.le_refl _)]
    rfl
  | @member n r t hmember _ ih =>
    obtain ⟨c, r', hr, hc⟩ := hmember.head
    change scanObject (Reader.scanOnce float n) r = _
    rw [scanObject_members hr hc, hmember.scanMembers ih (Nat.le_refl _)]
    rfl

/-! ### A text that raises nests -/

theorem itemAt_of_error {n : Nat} {s : PyStr}
    (h : scanItems (scanOnce float room) n s = .error .recursionError) :
    ∃ t, ItemAt float s t ∧ scanOnce float room t = .error .recursionError := by
  induction n generalizing s with
  | zero => cases h
  | succ n ih =>
    rcases bind_eq_error.mp h with h | ⟨⟨item, r⟩, hitem, h⟩
    · exact ⟨s, .here s, h⟩
    · dsimp only at h
      split at h
      · cases h
      · rename_i c r' hskip
        split_ifs at h with hclose hcomma
        · obtain ⟨t, hat, ht⟩ := ih (map_eq_error.mp h)
          exact ⟨t, .next ⟨room, hitem⟩ (by rw [hskip, hcomma]) hat, ht⟩
        · cases h

theorem memberAt_of_error {n : Nat} {s : PyStr}
    (h : scanMembers (scanOnce float room) n s = .error .recursionError) :
    ∃ t, MemberAt float s t ∧ scanOnce float room t = .error .recursionError := by
  induction n generalizing s with
  | zero => cases h
  | succ n ih =>
    rcases bind_eq_error.mp h with h | ⟨⟨key, r⟩, hkey, h⟩
    · cases scanKey_error h
    · rcases bind_eq_error.mp h with h | ⟨⟨value, r'⟩, hvalue, h⟩
      · exact ⟨r, .here hkey, h⟩
      · dsimp only at h
        split at h
        · cases h
        · rename_i c r'' hskip
          split_ifs at h with hclose hcomma
          · obtain ⟨t, hat, ht⟩ := ih (map_eq_error.mp h)
            exact ⟨t, .next hkey ⟨room, hvalue⟩ (by rw [hskip, hcomma]) hat, ht⟩
          · cases h

theorem nests_of_error {s : PyStr} (h : scanOnce float room s = .error .recursionError) :
    Nests float room s := by
  induction room generalizing s with
  | zero =>
    cases s with
    | nil => cases h
    | cons c s =>
      rw [scanOnce, scanValue] at h
      split_ifs at h with hquote hbracket hbrace
      · cases scanString_error (map_eq_error.mp h)
      · exact hbracket ▸ .array
      · exact hbrace ▸ .object
      · exact absurd h (scanAtom_ne_recursionError float _)
  | succ room ih =>
    cases s with
    | nil => cases h
    | cons c s =>
      rw [scanOnce, scanValue] at h
      split_ifs at h with hquote hbracket hbrace
      · cases scanString_error (map_eq_error.mp h)
      · change scanArray _ s = _ at h
        unfold scanArray at h
        split at h
        · cases h
        · rename_i c' r hskip
          split_ifs at h
          obtain ⟨t, hat, ht⟩ := itemAt_of_error (map_eq_error.mp h)
          rw [← hskip] at hat
          exact hbracket ▸ .item hat (ih ht)
      · change scanObject _ s = _ at h
        unfold scanObject at h
        split at h
        · cases h
        · rename_i c' r hskip
          split_ifs at h
          obtain ⟨t, hat, ht⟩ := memberAt_of_error (map_eq_error.mp h)
          rw [← hskip] at hat
          exact hbrace ▸ .member hat (ih ht)
      · exact absurd h (scanAtom_ne_recursionError float _)

/-- **Which texts nest too deeply.** -/
theorem scanOnce_error_iff {s : PyStr} :
    scanOnce float room s = .error .recursionError ↔ Nests float room s :=
  ⟨nests_of_error, Nests.scanOnce⟩

/-- `json.loads` raises `RecursionError` exactly if the text, after its leading whitespace,
nests too deeply. -/
theorem loads_error_iff {bs : List UInt8} : loads float room bs = .error .recursionError ↔
    ∃ text, decode bs (detectEncoding bs) = some text ∧ Nests float room (skip text) := by
  unfold loads
  split
  · rename_i hdecode
    simp [hdecode]
  · rename_i text hdecode
    simp only [hdecode, Option.some.injEq, exists_eq_left']
    rw [← scanOnce_error_iff, decodeText]
    constructor
    · intro h
      rcases bind_eq_error.mp h with h | ⟨p, -, h⟩
      · exact h
      · dsimp only at h
        split_ifs at h
        cases h
    · intro h
      rw [h]
      rfl

end Scanners

end Json.Reader
