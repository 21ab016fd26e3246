import ContentApproval.Json.Line
import ContentApproval.Json.Reader
import Mathlib.Data.List.Nodup

/-!
# Reading what was written

`decodeText_line`: the reader reads the line of a document as the document, if it may open
as many containers as the document nests, no number of it has too many digits and no object
of it has a key twice (`Readable`). The line is ASCII, and its bytes are read in the same way
(`loads_line`).
-/

namespace Json.Reader

open PyStr

/-- A text as the reader sees it. -/
def text (cs : List Char) : PyStr := cs.map codePoint

@[simp] theorem text_nil : text [] = [] := rfl

@[simp] theorem text_cons (c : Char) (cs : List Char) : text (c :: cs) = codePoint c :: text cs := rfl

@[simp] theorem text_append (cs ds : List Char) : text (cs ++ ds) = text cs ++ text ds :=
  List.map_append

@[simp] theorem length_text (cs : List Char) : (text cs).length = cs.length := List.length_map _

theorem isWhitespace_codePoint (c : Char) : isWhitespace (codePoint c) =
    (c == ' ' || c == '\t' || c == '\n' || c == '\r') := by
  simp only [isWhitespace, beq_eq_decide, codePoint_inj]

theorem skip_text {c : Char} {cs : List Char} (h : c ≠ ' ' ∧ c ≠ '\t' ∧ c ≠ '\n' ∧ c ≠ '\r') :
    skip (text (c :: cs)) = text (c :: cs) := by
  have hc : isWhitespace (codePoint c) = false := by
    rw [isWhitespace_codePoint]
    simpa [and_assoc] using h
  rw [skip, text_cons, List.dropWhile_cons, hc]
  rfl

theorem skip_blank (cs : List Char) : skip (text (' ' :: cs)) = skip (text cs) := by
  rw [skip, text_cons, List.dropWhile_cons_of_pos (by decide)]
  rfl

/-! ## Strings -/

theorem ofNat_codePoint {n : Nat} {c : Char} (h : n = c.toNat) :
    (.ofNat 0x110000 n : CodePoint) = codePoint c := by
  subst h
  refine Fin.ext ?_
  exact Nat.mod_eq_of_lt (codePoint c).isLt

theorem hexValue?_digitChar {d : Nat} (h : d < 16) :
    hexValue? (codePoint (Nat.digitChar d)) = some d := by
  have key : ∀ e < 16, hexValue? (codePoint (Nat.digitChar e)) = some e := by decide
  exact key d h

theorem decodeUXXXX_hex4 {n : Nat} (h : n < 65536) (r : List Char) :
    decodeUXXXX (text (hex4 n ++ r)) = some n := by
  simp only [hex4, List.cons_append, List.nil_append, text_cons, decodeUXXXX]
  rw [hexValue?_digitChar (Nat.mod_lt _ (by decide)), hexValue?_digitChar (Nat.mod_lt _ (by decide)),
    hexValue?_digitChar (Nat.mod_lt _ (by decide)), hexValue?_digitChar (Nat.mod_lt _ (by decide))]
  simp only [Option.bind_eq_bind, Option.bind_some, Option.pure_def, Option.some.injEq]
  omega

theorem backslash_shortEscape {c e : Char} (h : shortEscape c = some e) :
    backslash (codePoint e) = some (codePoint c) := by
  unfold shortEscape at h
  split_ifs at h <;> cases h <;> subst_vars <;> decide

theorem printable_of_escape {c : Char} (h : escape c = [c]) : 0x20 ≤ c.toNat := by
  unfold escape at h
  split at h
  · simp at h
  · split_ifs at h with hplain hunit
    · exact hplain.1
    · simp [codeUnit] at h
    · simp [codeUnit] at h

theorem scanEscape_short {e d : Char} (hu : e ≠ 'u') (h : backslash (codePoint e) = some (codePoint d))
    (r : PyStr) : scanEscape (codePoint e :: r) = some (codePoint d, 1) := by
  rw [scanEscape, if_neg (by rwa [codePoint_inj]), h]
  rfl

theorem scanEscape_unit {n : Nat} (h : n < 0xd800 ∨ 0xdfff < n) (hn : n < 65536) (r : List Char) :
    scanEscape (text ('u' :: (hex4 n ++ r))) = some (.ofNat 0x110000 n, 5) := by
  rw [text_cons, scanEscape, if_pos rfl, decodeUXXXX_hex4 hn, Option.bind_some, if_neg]
  rintro ⟨hhigh, -⟩
  unfold IsHigh at hhigh
  omega

theorem scanEscape_pair {hi lo : Nat} (hhi : IsHigh hi) (hlo : IsLow lo) (r : List Char) :
    scanEscape (text ('u' :: (hex4 hi ++ (codeUnit lo ++ r)))) =
      some (.ofNat 0x110000 (joinSurrogates hi lo), 11) := by
  have hhi' := hhi
  have hlo' := hlo
  unfold IsHigh at hhi'
  unfold IsLow at hlo'
  have hdrop : (text (hex4 hi ++ (codeUnit lo ++ r))).drop 6 = text (hex4 lo ++ r) := rfl
  have hstart : [codePoint '\\', codePoint 'u'].isPrefixOf
      ((text (hex4 hi ++ (codeUnit lo ++ r))).drop 4) = true := rfl
  rw [text_cons, scanEscape, if_pos rfl, decodeUXXXX_hex4 (by omega), Option.bind_some,
    if_pos ⟨hhi, hstart⟩, hdrop, decodeUXXXX_hex4 (by omega), Option.map_some, if_pos hlo]

theorem scanString_backslash {s : PyStr} {d : CodePoint} {n : Nat} (h : scanEscape s = some (d, n)) :
    scanString 0 (codePoint '\\' :: s) = (scanString n s).map (fun p => (d :: p.1, p.2)) := by
  rw [scanString, if_neg (by decide), if_pos rfl, h]

/-- An escaped character is read as the character. -/
theorem scanString_escape (c : Char) (r : List Char) : scanString 0 (text (escape c ++ r)) =
    (scanString 0 (text r)).map (fun p => (codePoint c :: p.1, p.2)) := by
  rcases escape_cases c with ⟨e, he, ec⟩ | ⟨hb, hq, ec⟩ | ⟨hs, hl, ec⟩ | ⟨hl, hu, ec⟩
  · have hshort := scanEscape_short (shortEscape_ne_u he) (backslash_shortEscape he) (text r)
    rw [ec]
    exact scanString_backslash hshort
  · have hlow : ¬ (codePoint c).val < 0x20 := Nat.not_lt.mpr (printable_of_escape ec)
    rw [ec, List.singleton_append, text_cons, scanString, if_neg (by rwa [codePoint_inj]),
      if_neg (by rwa [codePoint_inj]), if_neg hlow]
  · have hunit := scanEscape_unit hs hl r
    rw [ofNat_codePoint rfl] at hunit
    rw [ec]
    exact scanString_backslash hunit
  · have hhi : IsHigh (0xd800 + (c.toNat - 0x10000) / 0x400) := by
      unfold IsHigh
      omega
    have hlo : IsLow (0xdc00 + (c.toNat - 0x10000) % 0x400) := by
      unfold IsLow
      omega
    have hpair := scanEscape_pair hhi hlo r
    rw [ofNat_codePoint (c := c) (by unfold joinSurrogates; omega)] at hpair
    rw [ec, List.append_assoc]
    exact scanString_backslash hpair

theorem scanString_quoted (cs r : List Char) :
    scanString 0 (text (quoted cs ++ r)) = .ok (text cs, text r) := by
  induction cs with
  | nil => rfl
  | cons c cs ih =>
    rw [quoted, List.append_assoc, scanString_escape, ih]
    rfl

/-! ## Numbers -/

/-- What may follow a value: nothing, a comma or a closing bracket or brace. -/
def Ends (r : List Char) : Prop := ∀ c, r.head? = some c → c = ',' ∨ c = ']' ∨ c = '}'

theorem isDigit_codePoint (c : Char) : isDigit (codePoint c) = c.isDigit := by
  change (decide (0x30 ≤ c.toNat) && decide (c.toNat ≤ 0x39)) = c.isDigit
  simp only [Char.isDigit, ge_iff_le, UInt32.le_iff_toNat_le]
  rfl

theorem digitsValue_toDigits (n : Nat) : digitsValue (text (Nat.toDigits 10 n)) = n := by
  have hvalue : ∀ (cs : List Char) (init : Nat),
      (text cs).foldl (fun n d => n * 10 + (d.val - 0x30)) init = Nat.ofDigitChars 10 cs init := by
    intro cs
    induction cs with
    | nil => intro init; rfl
    | cons c cs ih =>
      intro init
      rw [text_cons, List.foldl_cons, ih, Nat.ofDigitChars_cons, Nat.mul_comm]
      rfl
  rw [digitsValue, hvalue, Nat.ofDigitChars_ten_toDigits]

/-- The digits of a number begin with a zero only if they are nothing else. -/
theorem toDigits_head (n : Nat) : Nat.toDigits 10 n = ['0'] ∨
    ∃ d ds, Nat.toDigits 10 n = d :: ds ∧ d ≠ '0' := by
  induction n using Nat.strongRecOn with
  | _ n ih =>
    rw [Nat.toDigits_eq_if (by decide)]
    split_ifs with hn
    · have hdigit : ∀ m < 10, Nat.digitChar m = '0' ∨ Nat.digitChar m ≠ '0' := fun m _ => em _
      rcases hdigit n hn with h | h
      · exact Or.inl (by rw [h])
      · exact Or.inr ⟨_, _, rfl, h⟩
    · rcases ih (n / 10) (by omega) with h | ⟨d, ds, h, hd⟩
      · have hzero := Nat.ofDigitChars_ten_toDigits (n := n / 10)
        rw [h] at hzero
        change 0 = n / 10 at hzero
        omega
      · exact Or.inr ⟨d, ds ++ [_], by rw [h]; rfl, hd⟩

theorem span_digits {ds : List Char} (hds : ∀ d ∈ ds, d.isDigit = true) {r : List Char}
    (hr : Ends r) : (text (ds ++ r)).takeWhile isDigit = text ds ∧
      (text (ds ++ r)).dropWhile isDigit = text r := by
  have hstop : (text r).takeWhile isDigit = [] ∧ (text r).dropWhile isDigit = text r := by
    cases r with
    | nil => exact ⟨rfl, rfl⟩
    | cons c r =>
      have hc : isDigit (codePoint c) = false := by
        rcases hr c rfl with rfl | rfl | rfl <;> rfl
      rw [text_cons, List.takeWhile_cons, List.dropWhile_cons, hc]
      exact ⟨rfl, rfl⟩
  have hall : ∀ d ∈ text ds, isDigit d = true := by
    intro d hd
    obtain ⟨c, hc, rfl⟩ := List.mem_map.mp hd
    rw [isDigit_codePoint, hds c hc]
  rw [text_append, List.takeWhile_append_of_pos hall, List.dropWhile_append_of_pos hall,
    hstop.1, hstop.2, List.append_nil]
  exact ⟨rfl, rfl⟩

theorem matchInteger_toDigits (n : Nat) {r : List Char} (hr : Ends r) :
    matchInteger (text (Nat.toDigits 10 n ++ r)) = some (text (Nat.toDigits 10 n), text r) := by
  rcases toDigits_head n with h | ⟨d, ds, h, hd⟩
  · rw [h]
    rfl
  · have hall : ∀ c ∈ d :: ds, c.isDigit = true := h ▸ isDigit_toDigits
    obtain ⟨hdigit, hds⟩ := List.forall_mem_cons.mp hall
    obtain ⟨htake, hdrop⟩ := span_digits hds hr
    rw [h, List.cons_append, text_cons, matchInteger, if_neg (by rwa [codePoint_inj]),
      if_pos (by rw [isDigit_codePoint, hdigit]), htake, hdrop]
    rfl

theorem matchFraction_ends {r : List Char} (hr : Ends r) : matchFraction (text r) = ([], text r) := by
  rcases r with _ | ⟨c, _ | ⟨d, r⟩⟩
  · rfl
  · rfl
  · rw [text_cons, text_cons, matchFraction, if_neg]
    rintro ⟨hc, -⟩
    rw [codePoint_inj] at hc
    rcases hr c rfl with rfl | rfl | rfl <;> cases hc

theorem matchExponent_ends {r : List Char} (hr : Ends r) : matchExponent (text r) = ([], text r) := by
  cases r with
  | nil => rfl
  | cons c r =>
    rw [text_cons, matchExponent]
    dsimp only
    rw [if_neg]
    rintro ⟨hc, -⟩
    rw [codePoint_inj, codePoint_inj] at hc
    rcases hr c rfl with rfl | rfl | rfl <;> rcases hc with hc | hc <;> cases hc

theorem matchNumber_digits (float : PyStr → PyFloat) {s minus : PyStr} {n : Nat} {r : List Char}
    (hr : Ends r) (hn : (Nat.toDigits 10 n).length ≤ maxStrDigits)
    (hsign : matchSign ['-'] s = (minus, text (Nat.toDigits 10 n ++ r))) :
    matchNumber float s = .ok (.int (if minus = [] then n else -n), text r) := by
  unfold matchNumber
  rw [hsign]
  dsimp only
  rw [matchInteger_toDigits n hr]
  dsimp only
  rw [matchFraction_ends hr]
  dsimp only
  rw [matchExponent_ends hr]
  dsimp only
  rw [if_pos ⟨rfl, rfl⟩, length_text, if_neg (Nat.not_lt.mpr hn), digitsValue_toDigits]

theorem matchNumber_numeral (float : PyStr → PyFloat) {n : Int} {r : List Char} (hr : Ends r)
    (hn : (Nat.toDigits 10 n.natAbs).length ≤ maxStrDigits) :
    matchNumber float (text (numeral n ++ r)) = .ok (.int n, text r) := by
  cases n with
  | ofNat n =>
    have hsign : matchSign ['-'] (text (numeral (.ofNat n) ++ r)) =
        ([], text (Nat.toDigits 10 n ++ r)) := by
      cases hd : Nat.toDigits 10 n with
      | nil => exact absurd hd Nat.toDigits_ne_nil
      | cons d ds =>
        have hdigit := isDigit_toDigits (n := n) d (by simp [hd])
        rw [numeral, hd, List.cons_append, text_cons, matchSign, if_neg]
        simp only [List.map_cons, List.map_nil, List.mem_singleton, codePoint_inj]
        rintro rfl
        cases hdigit
    exact matchNumber_digits float hr hn hsign
  | negSucc n =>
    have hsign : matchSign ['-'] (text (numeral (.negSucc n) ++ r)) =
        ([codePoint '-'], text (Nat.toDigits 10 (n + 1) ++ r)) := rfl
    exact matchNumber_digits float hr hn hsign

/-! ## Dictionaries -/

theorem setEntry_fresh {key : PyStr} {value : PyValue} {es : List (PyStr × PyValue)}
    (h : key ∉ es.map Prod.fst) : setEntry key value es = es ++ [(key, value)] := by
  induction es with
  | nil => rfl
  | cons e es ih =>
    obtain ⟨k, v⟩ := e
    rw [List.map_cons, List.mem_cons, not_or] at h
    rw [setEntry, if_neg (Ne.symm h.1), ih h.2]
    rfl

/-- Members with different keys are the entries of the dictionary. -/
theorem dictOf_nodup {members : List (PyStr × PyValue)} (h : (members.map Prod.fst).Nodup) :
    dictOf members = members := by
  have hgrow : ∀ (ms es : List (PyStr × PyValue)), ((es ++ ms).map Prod.fst).Nodup →
      ms.foldl (fun es m => setEntry m.1 m.2 es) es = es ++ ms := by
    intro ms
    induction ms with
    | nil =>
      intro es _
      rw [List.append_nil]
      rfl
    | cons m ms ih =>
      intro es hes
      have hfresh : m.1 ∉ es.map Prod.fst := by
        intro hmem
        rw [List.map_append, List.nodup_append] at hes
        exact hes.2.2 m.1 hmem m.1 (by simp) rfl
      rw [List.foldl_cons, setEntry_fresh hfresh, ih _ (by simpa using hes)]
      simp
  exact hgrow members [] h

theorem ofFields_keys (fs : List (String × Json)) :
    (PyValue.ofFields fs).map Prod.fst = (fs.map Prod.fst).map ofString := by
  induction fs with
  | nil => rfl
  | cons f fs ih =>
    obtain ⟨k, x⟩ := f
    rw [PyValue.ofFields, List.map_cons, ih]
    rfl

theorem dictOf_ofFields {fs : List (String × Json)} (h : (fs.map Prod.fst).Nodup) :
    dictOf (PyValue.ofFields fs) = PyValue.ofFields fs := by
  refine dictOf_nodup ?_
  rw [ofFields_keys]
  exact List.Nodup.map ofString_injective h

/-! ## Documents -/

mutual

/-- The reader can read the line of the document if it may open `room` containers. -/
def Readable : Nat → Json → Prop
  | _, .null => True
  | _, .bool _ => True
  | _, .num n => (Nat.toDigits 10 n.natAbs).length ≤ maxStrDigits
  | _, .str _ => True
  | room, .arr items => ∃ inner, room = inner + 1 ∧ ReadableItems inner items
  | room, .obj fields =>
    (fields.map Prod.fst).Nodup ∧ ∃ inner, room = inner + 1 ∧ ReadableFields inner fields

def ReadableItems : Nat → List Json → Prop
  | _, [] => True
  | room, x :: xs => Readable room x ∧ ReadableItems room xs

def ReadableFields : Nat → List (String × Json) → Prop
  | _, [] => True
  | room, (_, x) :: fs => Readable room x ∧ ReadableFields room fs

end

/-- The line of a document begins as its compact text does. -/
theorem line_lead (x : Json) : ∃ c cs, line x = c :: cs ∧ x.kind.Leads c := by
  cases x with
  | null => exact ⟨_, _, by rw [line, dumps], rfl⟩
  | bool b => cases b <;> exact ⟨_, _, by rw [line, dumps], rfl⟩
  | num n =>
    obtain ⟨c, cs, hn, hc⟩ := numeral_head n
    exact ⟨c, cs, by rw [line, dumps, hn], hc⟩
  | str s => exact ⟨_, _, by rw [line, dumps], rfl⟩
  | arr xs =>
    cases xs with
    | nil => exact ⟨_, _, by rw [line, dumps], rfl⟩
    | cons x xs => exact ⟨_, _, by rw [line], rfl⟩
  | obj fs =>
    cases fs with
    | nil => exact ⟨_, _, by rw [line, dumps], rfl⟩
    | cons f fs => exact ⟨_, _, by rw [line], rfl⟩

/-- No document begins with whitespace or with a closing bracket or brace. -/
theorem leads_plain {k : Kind} {c : Char} (h : k.Leads c) :
    (c ≠ ' ' ∧ c ≠ '\t' ∧ c ≠ '\n' ∧ c ≠ '\r') ∧ c ≠ ']' ∧ c ≠ '}' := by
  have hnum : Kind.num.Leads c →
      (c ≠ ' ' ∧ c ≠ '\t' ∧ c ≠ '\n' ∧ c ≠ '\r') ∧ c ≠ ']' ∧ c ≠ '}' := by
    rintro (rfl | hdigit)
    · decide
    · refine ⟨⟨?_, ?_, ?_, ?_⟩, ?_, ?_⟩ <;> rintro rfl <;> exact absurd hdigit (by decide)
  cases k with
  | num => exact hnum h
  | _ => rw [show c = _ from h]; decide

theorem skip_line (x : Json) (r : List Char) : skip (text (line x ++ r)) = text (line x ++ r) := by
  obtain ⟨c, cs, hx, hc⟩ := line_lead x
  rw [hx, List.cons_append, skip_text (leads_plain hc).1]

theorem ends_moreLine (xs : List Json) (r : List Char) : Ends (moreLine xs ++ r) := by
  cases xs <;> simp [moreLine, Ends]

theorem ends_moreFieldsLine (fs : List (String × Json)) (r : List Char) :
    Ends (moreFieldsLine fs ++ r) := by
  rcases fs with _ | ⟨⟨k, x⟩, fs⟩ <;> simp [moreFieldsLine, Ends]

/-- No name stands at the front of a number. -/
theorem find_names_digit {d : Char} (hd : d.isDigit = true) (s : PyStr) :
    names.find? (fun name => (ofString name.1).isPrefixOf (codePoint d :: s)) = none ∧
      names.find? (fun name =>
        (ofString name.1).isPrefixOf (codePoint '-' :: codePoint d :: s)) = none := by
  have hne : ∀ e : Char, e.isDigit = false → codePoint e ≠ codePoint d := by
    intro e he h
    rw [codePoint_inj] at h
    rw [h, hd] at he
    cases he
  rw [List.find?_eq_none, List.find?_eq_none]
  simp [names, ofString, codePoint_inj, hne]

theorem scanValue_digit (float : PyStr → PyFloat) (inner : Option (PyStr → Read PyValue)) {c : Char}
    (hc : c = '-' ∨ c.isDigit = true) (s : PyStr) :
    scanValue float inner (codePoint c :: s) = scanAtom float (codePoint c :: s) := by
  have hne : ∀ d : Char, d.isDigit = false → d ≠ '-' → codePoint c ≠ codePoint d := by
    intro d hd hm h
    rw [codePoint_inj] at h
    subst h
    rcases hc with hc | hc
    · exact hm hc
    · rw [hd] at hc
      cases hc
  rw [scanValue, if_neg (hne '"' rfl (by decide)), if_neg (hne '[' rfl (by decide)),
    if_neg (hne '{' rfl (by decide))]

theorem scanValue_numeral (float : PyStr → PyFloat) (inner : Option (PyStr → Read PyValue)) {n : Int}
    {r : List Char} (hr : Ends r) (hn : (Nat.toDigits 10 n.natAbs).length ≤ maxStrDigits) :
    scanValue float inner (text (numeral n ++ r)) = .ok (.int n, text r) := by
  obtain ⟨c, cs, hnum, hc⟩ := numeral_head n
  have hnames : names.find? (fun name => (ofString name.1).isPrefixOf (text (numeral n ++ r))) =
      none := by
    cases n with
    | ofNat n =>
      cases hd : Nat.toDigits 10 n with
      | nil => exact absurd hd Nat.toDigits_ne_nil
      | cons d ds =>
        rw [numeral, hd]
        exact (find_names_digit (isDigit_toDigits (n := n) d (by simp [hd])) _).1
    | negSucc n =>
      cases hd : Nat.toDigits 10 (n + 1) with
      | nil => exact absurd hd Nat.toDigits_ne_nil
      | cons d ds =>
        rw [numeral, hd]
        exact (find_names_digit (isDigit_toDigits (n := n + 1) d (by simp [hd])) _).2
  have hatom : scanAtom float (text (numeral n ++ r)) = .ok (.int n, text r) := by
    rw [scanAtom, hnames]
    exact matchNumber_numeral float hr hn
  rw [hnum, List.cons_append, text_cons] at hatom ⊢
  rw [scanValue_digit float inner hc, hatom]

/-- A value that needs no room is read with any. -/
theorem scanOnce_of_scanValue {float : PyStr → PyFloat} {s : PyStr} {result : Read PyValue}
    (h : ∀ inner, scanValue float inner s = result) (room : Nat) :
    scanOnce float room s = result := by
  cases room <;> exact h _

section Lines

variable (float : PyStr → PyFloat)

theorem scanOnce_array {room : Nat} (s : PyStr) :
    scanOnce float (room + 1) (codePoint '[' :: s) = scanArray (scanOnce float room) s := rfl

theorem scanOnce_object {room : Nat} (s : PyStr) :
    scanOnce float (room + 1) (codePoint '{' :: s) = scanObject (scanOnce float room) s := rfl

theorem scanKey_quoted (k r : List Char) (hr : skip (text r) = text r) :
    scanKey (text ('"' :: (quoted k ++ ':' :: ' ' :: r))) = .ok (text k, text r) := by
  rw [text_cons, scanKey, if_pos rfl, scanString_quoted]
  simp only [Except.bind]
  rw [skip_text (by decide), text_cons]
  dsimp only
  rw [if_pos rfl, skip_blank, hr]

theorem length_moreLine (xs : List Json) : xs.length < (moreLine xs).length := by
  induction xs with
  | nil => simp [moreLine]
  | cons x xs ih =>
    simp only [moreLine, List.length_cons, List.length_append]
    omega

theorem length_moreFieldsLine (fs : List (String × Json)) :
    fs.length < (moreFieldsLine fs).length := by
  induction fs with
  | nil => simp [moreFieldsLine]
  | cons f fs ih =>
    obtain ⟨k, x⟩ := f
    simp only [moreFieldsLine, List.length_cons, List.length_append]
    omega

mutual

/-- The line of a document is read as the document. -/
theorem scanOnce_line : ∀ (x : Json) {room : Nat} {r : List Char}, Readable room x → Ends r →
    scanOnce float room (text (line x ++ r)) = .ok (.ofJson x, text r)
  | .null, room, r, _, _ => scanOnce_of_scanValue (fun _ => rfl) room
  | .bool true, room, r, _, _ => scanOnce_of_scanValue (fun _ => rfl) room
  | .bool false, room, r, _, _ => scanOnce_of_scanValue (fun _ => rfl) room
  | .num n, room, r, h, hr => by
    rw [line, dumps, PyValue.ofJson]
    exact scanOnce_of_scanValue (fun inner => scanValue_numeral float inner hr h) room
  | .str s, room, r, _, _ => by
    refine scanOnce_of_scanValue (fun inner => ?_) room
    rw [line, dumps, List.cons_append, text_cons, scanValue, if_pos rfl, scanString_quoted]
    rfl
  | .arr [], room, r, h, _ => by
    obtain ⟨inner, rfl, -⟩ := h
    rfl
  | .arr (x :: xs), room, r, h, _ => by
    obtain ⟨inner, rfl, hx, hxs⟩ := h
    obtain ⟨c, cs, hline, hc⟩ := line_lead x
    have hskip := skip_line x (moreLine xs ++ r)
    have hhead : skip (text (line x ++ (moreLine xs ++ r))) =
        codePoint c :: text (cs ++ (moreLine xs ++ r)) := by
      rw [hskip, hline]
      rfl
    have hclose : codePoint c ≠ codePoint ']' := fun h => (leads_plain hc).2.1 (codePoint_inj.mp h)
    have hlen := length_moreLine xs
    have hitems := scanItems_moreLine xs hxs
      (show xs.length < (text (line x ++ (moreLine xs ++ r))).length by
        simp only [length_text, List.length_append]
        omega) (scanOnce_line x hx (ends_moreLine xs r))
    rw [line, List.cons_append, List.append_assoc, text_cons, scanOnce_array,
      scanArray_items hhead hclose, hskip, hitems]
    rfl
  | .obj [], room, r, h, _ => by
    obtain ⟨-, inner, rfl, -⟩ := h
    rfl
  | .obj ((k, x) :: fs), room, r, h, _ => by
    obtain ⟨hnodup, inner, rfl, hx, hfs⟩ := h
    have hkey := scanKey_quoted k.toList _ (skip_line x (moreFieldsLine fs ++ r))
    have hlen := length_moreFieldsLine fs
    have hmembers := scanMembers_moreFieldsLine fs hfs
      (show fs.length < (text ('"' :: (quoted k.toList ++ ':' :: ' ' ::
          (line x ++ (moreFieldsLine fs ++ r))))).length by
        simp only [length_text, List.length_cons, List.length_append]
        omega) hkey (scanOnce_line x hx (ends_moreFieldsLine fs r))
    have hskip : skip (text ('"' :: (quoted k.toList ++ ':' :: ' ' ::
        (line x ++ (moreFieldsLine fs ++ r))))) = _ := skip_text (by decide)
    rw [line]
    simp only [List.cons_append, List.append_assoc]
    rw [text_cons, scanOnce_object, scanObject_members (hskip.trans (text_cons _ _)) (by decide),
      hskip, hmembers]
    exact congrArg (fun es => Except.ok (PyValue.dict es, text r)) (dictOf_ofFields hnodup)

theorem scanItems_moreLine : ∀ (xs : List Json) {room n : Nat} {r : List Char} {s : PyStr}
    {v : PyValue}, ReadableItems room xs → xs.length < n →
    scanOnce float room s = .ok (v, text (moreLine xs ++ r)) →
    scanItems (scanOnce float room) n s = .ok (v :: PyValue.ofItems xs, text r)
  | _, _, 0, _, _, _, _, hn, _ => absurd hn (Nat.not_lt_zero _)
  | [], room, n + 1, r, s, v, _, _, hs => scanItems_last hs (skip_text (by decide))
  | x :: xs, room, n + 1, r, s, v, h, hn, hs => by
    obtain ⟨hx, hxs⟩ := h
    have hnext : skip (text (moreLine (x :: xs) ++ r)) =
        codePoint ',' :: text (' ' :: (line x ++ (moreLine xs ++ r))) := by
      rw [moreLine]
      simp only [List.cons_append, List.append_assoc]
      exact skip_text (by decide)
    rw [scanItems_next hs hnext, skip_blank, skip_line,
      scanItems_moreLine xs hxs (Nat.lt_of_succ_lt_succ hn)
        (scanOnce_line x hx (ends_moreLine xs r))]
    rfl

theorem scanMembers_moreFieldsLine : ∀ (fs : List (String × Json)) {room n : Nat} {r : List Char}
    {s t key : PyStr} {v : PyValue}, ReadableFields room fs → fs.length < n →
    scanKey s = .ok (key, t) → scanOnce float room t = .ok (v, text (moreFieldsLine fs ++ r)) →
    scanMembers (scanOnce float room) n s = .ok ((key, v) :: PyValue.ofFields fs, text r)
  | _, _, 0, _, _, _, _, _, _, hn, _, _ => absurd hn (Nat.not_lt_zero _)
  | [], room, n + 1, r, s, t, key, v, _, _, hkey, ht => scanMembers_last hkey ht (skip_text (by decide))
  | (k, x) :: fs, room, n + 1, r, s, t, key, v, h, hn, hkey, ht => by
    obtain ⟨hx, hfs⟩ := h
    have hnext : skip (text (moreFieldsLine ((k, x) :: fs) ++ r)) = codePoint ',' ::
        text (' ' :: '"' :: (quoted k.toList ++ ':' :: ' ' :: (line x ++ (moreFieldsLine fs ++ r)))) := by
      rw [moreFieldsLine]
      simp only [List.cons_append, List.append_assoc]
      exact skip_text (by decide)
    rw [scanMembers_next hkey ht hnext, skip_blank, skip_text (by decide),
      scanMembers_moreFieldsLine fs hfs (Nat.lt_of_succ_lt_succ hn)
        (scanKey_quoted k.toList _ (skip_line x (moreFieldsLine fs ++ r)))
        (scanOnce_line x hx (ends_moreFieldsLine fs r))]
    rfl

end

/-- **A document is read back from its line.** -/
theorem decodeText_line {x : Json} {room : Nat} (h : Readable room x) :
    decodeText float room (text (line x)) = .ok (.ofJson x) := by
  have hskip := skip_line x []
  have hread := scanOnce_line float x h (r := []) (by simp [Ends])
  rw [List.append_nil] at hskip hread
  rw [decodeText, hskip, hread]
  rfl

/-- The bytes of a text of ASCII. -/
def bytes (cs : List Char) : List UInt8 := cs.map (fun c => .ofNat c.toNat)

theorem toNat_of_printable {c : Char} (h : Printable c) : (UInt8.ofNat c.toNat).toNat = c.toNat := by
  have hlt := h.2
  rw [UInt8.toNat_ofNat']
  omega

theorem encode_line (x : Json) : encode (text (line x)) = some (bytes (line x)) := by
  refine encode_ascii fun c hc => ?_
  have hlt := (line_printable x c hc).2
  omega

omit float in
theorem bytes_ascii {cs : List Char} (h : ∀ c ∈ cs, Printable c) : ∀ b ∈ bytes cs, IsAscii b := by
  intro b hb
  obtain ⟨c, hc, rfl⟩ := List.mem_map.mp hb
  obtain ⟨hlow, hhigh⟩ := h c hc
  rw [IsAscii, toNat_of_printable (h c hc)]
  omega

theorem map_ofByte_bytes {cs : List Char} (h : ∀ c ∈ cs, Printable c) :
    (bytes cs).map ofByte = text cs := by
  rw [bytes, List.map_map]
  refine List.map_congr_left fun c hc => ?_
  exact Fin.ext (toNat_of_printable (h c hc))

/-- **A document is read back from the bytes of its line.** -/
theorem loads_line {x : Json} {room : Nat} (h : Readable room x) :
    loads float room (bytes (line x)) = .ok (.ofJson x) := by
  unfold loads
  rw [decode_ascii (bytes_ascii (line_printable x)), map_ofByte_bytes (line_printable x)]
  exact decodeText_line float h

end Lines

end Json.Reader
