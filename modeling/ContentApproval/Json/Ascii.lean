import ContentApproval.Encoding.Unicode

/-!
# The canonical text of a Python value

`PyValue.canonical` is `json.dumps` with sorted keys and the compact separators, in ASCII: a
code point above `U+FFFF` is written as its two surrogates, and so is a string in which the
two surrogates stand on their own. A quoted string therefore determines its UTF-16 code units
and nothing more (`asciiQuoted_eq_iff`), which are those of one string only among the strings
without surrogates (`utf16_injOn`).

* `canonical_ofJson`: on JSON documents of Unicode text it is `Json.canonical`.
* `canonical_perm`: the order of the keys does not matter.
-/

namespace PyStr

/-! ## UTF-16 -/

/-- The code units of a code point. -/
def units (c : CodePoint) : List Nat :=
  if c.val < 0x10000 then [c.val]
  else [0xd800 + (c.val - 0x10000) / 0x400, 0xdc00 + (c.val - 0x10000) % 0x400]

/-- The code units of a string. -/
def utf16 (s : PyStr) : List Nat := s.flatMap units

theorem units_lt {c : CodePoint} : ∀ u ∈ units c, u < 0x10000 := by
  have hc := c.isLt
  unfold units
  split_ifs with hlow
  · simpa using hlow
  · simp only [List.forall_mem_cons, List.not_mem_nil, false_imp_iff, implies_true, and_true]
    omega

theorem utf16_lt {s : PyStr} : ∀ u ∈ utf16 s, u < 0x10000 := by
  intro u hu
  obtain ⟨c, -, hu⟩ := List.mem_flatMap.mp hu
  exact units_lt u hu

/-- Text is decoded to itself. -/
theorem ofCodeUnits_utf16 {s : PyStr} (h : s.Encodable) : ofCodeUnits (utf16 s) = some s := by
  induction s with
  | nil => rfl
  | cons c s ih =>
    obtain ⟨hc, hs⟩ := List.forall_mem_cons.mp h
    have hlt := c.isLt
    have hpush : ∀ n, n = c.val → push n (some s) = some (c :: s) := by
      rintro n rfl
      rw [push, codePoint?, dif_pos hlt]
      rfl
    rw [utf16, List.flatMap_cons, units]
    change ofCodeUnits (_ ++ utf16 s) = _
    unfold IsSurrogate at hc
    split_ifs with hlow
    · have hhigh : ¬ IsHigh c.val := by
        unfold IsHigh
        omega
      cases hunits : utf16 s with
      | nil =>
        have hnil := ih hs
        rw [hunits] at hnil
        rw [List.append_nil, ofCodeUnits, ← hpush _ rfl, ← hnil]
        rfl
      | cons u us =>
        rw [List.singleton_append, ofCodeUnits, if_neg (fun h => hhigh h.1), ← hunits, ih hs]
        exact hpush _ rfl
    · have hpair : IsHigh (0xd800 + (c.val - 0x10000) / 0x400) ∧
          IsLow (0xdc00 + (c.val - 0x10000) % 0x400) := by
        unfold IsHigh IsLow
        omega
      rw [List.cons_append, List.singleton_append, ofCodeUnits, if_pos hpair, ih hs]
      refine hpush _ ?_
      unfold joinSurrogates
      omega

/-- **Text is determined by its code units.** -/
theorem utf16_injOn {s t : PyStr} (hs : s.Encodable) (ht : t.Encodable) (h : utf16 s = utf16 t) :
    s = t := by
  have hsame := ofCodeUnits_utf16 hs
  rw [h, ofCodeUnits_utf16 ht] at hsame
  exact (Option.some.inj hsame).symm

end PyStr

namespace PyValue

open PyStr

/-! ## Strings -/

/-- A code point as it stands between the quotes; a surrogate is escaped as any other code
point that is not ASCII. -/
def asciiEscape (c : CodePoint) : List Char :=
  match toChar? c with
  | some d => Json.escape d
  | Option.none => Json.codeUnit c.val

/-- The characters of a string and the closing quote. -/
def asciiQuoted (s : PyStr) : List Char := s.flatMap asciiEscape ++ ['"']

/-- A code unit as it stands between the quotes. -/
def unitText (u : Nat) : List Char := if h : u < 0x110000 then asciiEscape ⟨u, h⟩ else []

theorem asciiEscape_codePoint (d : Char) : asciiEscape (codePoint d) = Json.escape d := by
  unfold asciiEscape
  rw [toChar?_codePoint]

theorem asciiQuoted_ofString (s : String) : asciiQuoted (ofString s) = Json.quoted s.toList := by
  have hchars : ∀ cs : List Char,
      (cs.map codePoint).flatMap asciiEscape ++ ['"'] = Json.quoted cs := by
    intro cs
    induction cs with
    | nil => rfl
    | cons c cs ih =>
      rw [List.map_cons, List.flatMap_cons, asciiEscape_codePoint, List.append_assoc, ih]
      rfl
  exact hchars s.toList

theorem asciiEscape_of_isSurrogate {c : CodePoint} (h : IsSurrogate c) :
    asciiEscape c = Json.codeUnit c.val := by
  have htext := toChar?_isSome c
  unfold asciiEscape
  cases hc : toChar? c with
  | none => rfl
  | some d =>
    rw [hc] at htext
    exact absurd h (htext.mp rfl)

theorem unitText_surrogate {u : Nat} (h : 0xd800 ≤ u ∧ u ≤ 0xdfff) : unitText u = Json.codeUnit u := by
  rw [unitText, dif_pos (by omega)]
  exact asciiEscape_of_isSurrogate h

/-- A code unit is a character, or one half of a pair. -/
theorem unitText_cases {u : Nat} (h : u < 0x10000) :
    (∃ d : Char, d.toNat = u ∧ unitText u = Json.escape d) ∨
      (0xd800 ≤ u ∧ u ≤ 0xdfff) ∧ unitText u = Json.codeUnit u := by
  by_cases hsurrogate : 0xd800 ≤ u ∧ u ≤ 0xdfff
  · exact Or.inr ⟨hsurrogate, unitText_surrogate hsurrogate⟩
  · have hlt : u < 0x110000 := by omega
    obtain ⟨d, hd⟩ := Option.isSome_iff_exists.mp ((toChar?_isSome ⟨u, hlt⟩).mpr hsurrogate)
    have hcode := codePoint_of_toChar? hd
    refine Or.inl ⟨d, congrArg Fin.val hcode, ?_⟩
    rw [unitText, dif_pos hlt, ← hcode, asciiEscape_codePoint]

theorem escape_above {d : Char} (h : 0x10000 ≤ d.toNat) : Json.escape d =
    Json.codeUnit (0xd800 + (d.toNat - 0x10000) / 0x400) ++
      Json.codeUnit (0xdc00 + (d.toNat - 0x10000) % 0x400) := by
  have hshort : Json.shortEscape d = Option.none := by
    cases hs : Json.shortEscape d with
    | none => rfl
    | some e =>
      unfold Json.shortEscape at hs
      split_ifs at hs <;> subst_vars <;> exact absurd h (by decide)
  unfold Json.escape
  rw [hshort]
  dsimp only
  rw [if_neg (by omega), if_neg (by omega)]

/-- The text of a code point is that of its code units. -/
theorem asciiEscape_eq (c : CodePoint) : asciiEscape c = (units c).flatMap unitText := by
  have hlt := c.isLt
  unfold units
  split_ifs with hlow
  · rw [List.flatMap_singleton, unitText, dif_pos hlt]
  · have hsurrogate : ¬ IsSurrogate c := by
      unfold IsSurrogate
      omega
    obtain ⟨d, hd⟩ := Option.isSome_iff_exists.mp ((toChar?_isSome c).mpr hsurrogate)
    obtain rfl := codePoint_of_toChar? hd
    change ¬ d.toNat < 0x10000 at hlow
    have hd' := (codePoint d).isLt
    change d.toNat < 0x110000 at hd'
    rw [asciiEscape_codePoint, escape_above (by omega), List.flatMap_cons, List.flatMap_singleton,
      unitText_surrogate (by change _ ∧ 0xd800 + (d.toNat - _) / _ ≤ _; omega),
      unitText_surrogate (by change _ ∧ 0xdc00 + (d.toNat - _) % _ ≤ _; omega)]
    rfl

theorem asciiQuoted_eq (s : PyStr) : asciiQuoted s = (utf16 s).flatMap unitText ++ ['"'] := by
  rw [asciiQuoted, utf16, List.flatMap_assoc]
  congr 2
  exact funext asciiEscape_eq

theorem escape_ne_surrogate {d : Char} {u : Nat} (hd : d.toNat < 0x10000)
    (hu : 0xd800 ≤ u ∧ u ≤ 0xdfff) {r r' : List Char} :
    Json.escape d ++ r ≠ Json.codeUnit u ++ r' := by
  intro h
  rcases Json.escape_cases d with ⟨e, he, ed⟩ | ⟨hb, -, ed⟩ | ⟨hs, -, ed⟩ | ⟨hl, -, -⟩
  · rw [ed] at h
    simp only [Json.codeUnit, List.cons_append, List.cons.injEq, true_and] at h
    exact Json.shortEscape_ne_u he h.1
  · rw [ed] at h
    simp only [Json.codeUnit, List.cons_append, List.cons.injEq] at h
    exact hb h.1
  · rw [ed] at h
    have hsame := (Json.codeUnit_cancel (by omega) (by omega) h).1
    omega
  · omega

/-- A code unit is read off the front of a text in one way. -/
theorem unitText_cancel {u v : Nat} (hu : u < 0x10000) (hv : v < 0x10000) {r r' : List Char}
    (h : unitText u ++ r = unitText v ++ r') : u = v ∧ r = r' := by
  rcases unitText_cases hu with ⟨d, rfl, ed⟩ | ⟨hsu, eu⟩
  · rcases unitText_cases hv with ⟨e, rfl, ee⟩ | ⟨hsv, ev⟩
    · rw [ed, ee] at h
      obtain ⟨rfl, hr⟩ := Json.escape_cancel h
      exact ⟨rfl, hr⟩
    · rw [ed, ev] at h
      exact absurd h (escape_ne_surrogate hu hsv)
  · rcases unitText_cases hv with ⟨e, rfl, ee⟩ | ⟨hsv, ev⟩
    · rw [eu, ee] at h
      exact absurd h.symm (escape_ne_surrogate hv hsu)
    · rw [eu, ev] at h
      exact Json.codeUnit_cancel hu hv h

theorem unitText_ne_quote {u : Nat} (hu : u < 0x10000) {r r' : List Char} :
    unitText u ++ r ≠ '"' :: r' := by
  rcases unitText_cases hu with ⟨d, -, ed⟩ | ⟨-, eu⟩
  · rw [ed]
    exact Json.escape_ne_quote d
  · rw [eu]
    simp [Json.codeUnit]

theorem unitTexts_cancel {us vs : List Nat} (hus : ∀ u ∈ us, u < 0x10000)
    (hvs : ∀ v ∈ vs, v < 0x10000) {r r' : List Char}
    (h : us.flatMap unitText ++ '"' :: r = vs.flatMap unitText ++ '"' :: r') : us = vs ∧ r = r' := by
  induction us generalizing vs with
  | nil =>
    cases vs with
    | nil => simpa using h
    | cons v vs =>
      rw [List.flatMap_cons, List.append_assoc] at h
      exact absurd h.symm (unitText_ne_quote (hvs v List.mem_cons_self))
  | cons u us ih =>
    obtain ⟨hu, hus⟩ := List.forall_mem_cons.mp hus
    cases vs with
    | nil =>
      rw [List.flatMap_cons, List.append_assoc] at h
      exact absurd h (unitText_ne_quote hu)
    | cons v vs =>
      rw [List.forall_mem_cons] at hvs
      rw [List.flatMap_cons, List.flatMap_cons, List.append_assoc, List.append_assoc] at h
      obtain ⟨rfl, hrest⟩ := unitText_cancel hu hvs.1 h
      obtain ⟨rfl, hr⟩ := ih hus hvs.2 hrest
      exact ⟨rfl, hr⟩

/-- A quoted string is read off the front of a text in one way, up to its spelling. -/
theorem asciiQuoted_cancel {s t : PyStr} {r r' : List Char}
    (h : asciiQuoted s ++ r = asciiQuoted t ++ r') : utf16 s = utf16 t ∧ r = r' := by
  rw [asciiQuoted_eq, asciiQuoted_eq, List.append_assoc, List.append_assoc] at h
  exact unitTexts_cancel utf16_lt utf16_lt h

/-- **What a quoted string determines.** -/
theorem asciiQuoted_eq_iff {s t : PyStr} : asciiQuoted s = asciiQuoted t ↔ utf16 s = utf16 t := by
  constructor
  · intro h
    exact (asciiQuoted_cancel (congrArg (· ++ []) h)).1
  · intro h
    rw [asciiQuoted_eq, asciiQuoted_eq, h]

/-! ## Values -/

/-- `float.__repr__` -/
def floatText : PyFloat → List Char
  | .finite text => text.toList
  | .nan => "NaN".toList
  | .infinity => "Infinity".toList
  | .negInfinity => "-Infinity".toList

/-- A byte in the text of bytes. -/
def byteText (quote b : UInt8) : PyStr :=
  if b = quote ∨ b = 0x5c then [ofByte 0x5c, ofByte b]
  else if b = 0x09 then ofString "\\t"
  else if b = 0x0a then ofString "\\n"
  else if b = 0x0d then ofString "\\r"
  else if b < 0x20 ∨ 0x7f ≤ b then
    ofString "\\x" ++ [codePoint (Nat.digitChar (b.toNat / 16)), codePoint (Nat.digitChar (b.toNat % 16))]
  else [ofByte b]

/-- `str` of bytes, which `default=str` falls back to. -/
def bytesText (octets : List UInt8) : PyStr :=
  let quote : UInt8 := if 0x27 ∈ octets ∧ 0x22 ∉ octets then 0x22 else 0x27
  ofString "b" ++ ofByte quote :: (octets.flatMap (byteText quote) ++ [ofByte quote])

mutual

/-- `json.dumps` with the compact separators and `default=str`. -/
def asciiDumps : PyValue → List Char
  | .none => ['n', 'u', 'l', 'l']
  | .bool true => ['t', 'r', 'u', 'e']
  | .bool false => ['f', 'a', 'l', 's', 'e']
  | .int n => Json.numeral n
  | .float x => floatText x
  | .str s => '"' :: asciiQuoted s
  | .bytes octets => '"' :: asciiQuoted (bytesText octets)
  | .list [] => ['[', ']']
  | .list (v :: vs) => '[' :: (asciiDumps v ++ asciiMore vs)
  | .dict [] => ['{', '}']
  | .dict ((k, v) :: es) => '{' :: '"' :: (asciiQuoted k ++ ':' :: (asciiDumps v ++ asciiMoreEntries es))

/-- The items of a list after the first, and the closing bracket. -/
def asciiMore : List PyValue → List Char
  | [] => [']']
  | v :: vs => ',' :: (asciiDumps v ++ asciiMore vs)

/-- The entries of a dict after the first, and the closing brace. -/
def asciiMoreEntries : List (PyStr × PyValue) → List Char
  | [] => ['}']
  | (k, v) :: es => ',' :: '"' :: (asciiQuoted k ++ ':' :: (asciiDumps v ++ asciiMoreEntries es))

end

/-- Put an entry in front of the first entry with a larger key. -/
def insertEntry (k : PyStr) (v : PyValue) : List (PyStr × PyValue) → List (PyStr × PyValue)
  | [] => [(k, v)]
  | (l, w) :: es => if k < l then (k, v) :: (l, w) :: es else (l, w) :: insertEntry k v es

mutual

/-- `sort_keys=True` -/
def sortKeys : PyValue → PyValue
  | .list items => .list (sortItems items)
  | .dict entries => .dict (sortEntries entries)
  | v => v

def sortItems : List PyValue → List PyValue
  | [] => []
  | v :: vs => sortKeys v :: sortItems vs

def sortEntries : List (PyStr × PyValue) → List (PyStr × PyValue)
  | [] => []
  | (k, v) :: es => insertEntry k (sortKeys v) (sortEntries es)

end

/-- The canonical text of a value. -/
def canonical (v : PyValue) : String := String.ofList (asciiDumps (sortKeys v))

/-! ## The order of the keys -/

theorem insertEntry_comm {k l : PyStr} (h : k < l) (v w : PyValue) (es : List (PyStr × PyValue)) :
    insertEntry k v (insertEntry l w es) = insertEntry l w (insertEntry k v es) := by
  have hlk : ¬ l < k := List.lt_asymm h
  induction es with
  | nil => simp only [insertEntry, if_pos h, if_neg hlk]
  | cons e es ih =>
    obtain ⟨m, z⟩ := e
    by_cases hlm : l < m
    · have hkm : k < m := List.lt_trans h hlm
      rw [insertEntry, if_pos hlm, insertEntry, if_pos h, insertEntry, if_pos hkm, insertEntry,
        if_neg hlk, insertEntry, if_pos hlm]
    · by_cases hkm : k < m
      · rw [insertEntry, if_neg hlm, insertEntry, if_pos hkm, insertEntry, if_pos hkm, insertEntry,
          if_neg hlk, insertEntry, if_neg hlm]
      · rw [insertEntry, if_neg hlm, insertEntry, if_neg hkm, ih, insertEntry, if_neg hkm,
          insertEntry, if_neg hlm]

theorem sortEntries_perm {es es' : List (PyStr × PyValue)} (h : es.Perm es') :
    (es.map Prod.fst).Nodup → sortEntries es = sortEntries es' := by
  induction h with
  | nil => exact fun _ => rfl
  | cons e _ ih =>
    intro hnd
    obtain ⟨k, v⟩ := e
    rw [sortEntries, sortEntries, ih (List.nodup_cons.mp hnd).2]
  | swap e e' es =>
    intro hnd
    obtain ⟨k, v⟩ := e
    obtain ⟨l, w⟩ := e'
    have hne : k ≠ l := by
      rintro rfl
      simp at hnd
    rw [sortEntries, sortEntries, sortEntries, sortEntries]
    by_cases hlt : k < l
    · exact (insertEntry_comm hlt _ _ _).symm
    · by_cases hgt : l < k
      · exact insertEntry_comm hgt _ _ _
      · exact absurd (List.le_antisymm (List.not_lt.mp hgt) (List.not_lt.mp hlt)) hne
  | trans h _ ih ih' => exact fun hnd => (ih hnd).trans (ih' ((h.map Prod.fst).nodup hnd))

/-- **The order of the keys does not matter.** -/
theorem canonical_perm {es es' : List (PyStr × PyValue)} (h : es.Perm es')
    (hnd : (es.map Prod.fst).Nodup) : canonical (.dict es) = canonical (.dict es') := by
  rw [canonical, canonical, sortKeys, sortKeys, sortEntries_perm h hnd]

/-! ## JSON documents -/

mutual

theorem asciiDumps_ofJson : ∀ x : Json, asciiDumps (ofJson x) = Json.dumps x
  | .null => rfl
  | .bool true => rfl
  | .bool false => rfl
  | .num n => rfl
  | .str s => by rw [ofJson, asciiDumps, asciiQuoted_ofString, Json.dumps]
  | .arr [] => rfl
  | .arr (x :: xs) => by
    rw [ofJson, ofItems, asciiDumps, asciiDumps_ofJson x, asciiMore_ofItems xs, Json.dumps]
  | .obj [] => rfl
  | .obj ((k, x) :: fs) => by
    rw [ofJson, ofFields, asciiDumps, asciiQuoted_ofString, asciiDumps_ofJson x,
      asciiMoreEntries_ofFields fs, Json.dumps]

theorem asciiMore_ofItems : ∀ xs : List Json, asciiMore (ofItems xs) = Json.more xs
  | [] => rfl
  | x :: xs => by rw [ofItems, asciiMore, asciiDumps_ofJson x, asciiMore_ofItems xs, Json.more]

theorem asciiMoreEntries_ofFields :
    ∀ fs : List (String × Json), asciiMoreEntries (ofFields fs) = Json.moreFields fs
  | [] => rfl
  | (k, x) :: fs => by
    rw [ofFields, asciiMoreEntries, asciiQuoted_ofString, asciiDumps_ofJson x,
      asciiMoreEntries_ofFields fs, Json.moreFields]

end

theorem ofString_lt {s t : String} : ofString s < ofString t ↔ s < t := by
  have hchars : ∀ cs ds : List Char, cs.map codePoint < ds.map codePoint ↔ cs < ds := by
    intro cs
    induction cs with
    | nil => intro ds; cases ds <;> simp
    | cons c cs ih =>
      intro ds
      cases ds with
      | nil => simp
      | cons d ds =>
        have hlt : codePoint c < codePoint d ↔ c < d := Iff.rfl
        rw [List.map_cons, List.map_cons, List.cons_lt_cons_iff, List.cons_lt_cons_iff, ih, hlt,
          codePoint_inj]
  exact hchars _ _

theorem insertEntry_ofFields (k : String) (x : Json) (fs : List (String × Json)) :
    insertEntry (ofString k) (ofJson x) (ofFields fs) = ofFields (Json.insertField k x fs) := by
  induction fs with
  | nil => rfl
  | cons f fs ih =>
    obtain ⟨l, y⟩ := f
    rw [ofFields, insertEntry, Json.insertField, ih]
    by_cases h : k < l
    · rw [if_pos h, if_pos (ofString_lt.mpr h)]
      rfl
    · rw [if_neg h, if_neg (ofString_lt.not.mpr h)]
      rfl

mutual

theorem sortKeys_ofJson : ∀ x : Json, sortKeys (ofJson x) = ofJson x.sortKeys
  | .null => rfl
  | .bool _ => rfl
  | .num _ => rfl
  | .str _ => rfl
  | .arr xs => by rw [ofJson, sortKeys, sortItems_ofItems xs, Json.sortKeys, ofJson]
  | .obj fs => by rw [ofJson, sortKeys, sortEntries_ofFields fs, Json.sortKeys, ofJson]

theorem sortItems_ofItems : ∀ xs : List Json, sortItems (ofItems xs) = ofItems (Json.sortItems xs)
  | [] => rfl
  | x :: xs => by
    rw [ofItems, sortItems, sortKeys_ofJson x, sortItems_ofItems xs, Json.sortItems, ofItems]

theorem sortEntries_ofFields :
    ∀ fs : List (String × Json), sortEntries (ofFields fs) = ofFields (Json.sortFields fs)
  | [] => rfl
  | (k, x) :: fs => by
    rw [ofFields, sortEntries, sortKeys_ofJson x, sortEntries_ofFields fs, insertEntry_ofFields,
      Json.sortFields]

end

/-- **A JSON document has the same canonical text as the value that it is read as.** -/
theorem canonical_ofJson (x : Json) : canonical (ofJson x) = x.canonical := by
  rw [canonical, sortKeys_ofJson, asciiDumps_ofJson, Json.canonical]

end PyValue
