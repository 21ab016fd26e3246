import ContentApproval.Json.Canonical

/-!
# Python values and strict JSON

`PyValue` is what Python's JSON reader gives, and raw bytes: a number may be a float, also
`NaN` or an infinity, and a string is a sequence of code points, which may be surrogates
that stand alone. `render` is the strict serializer: `json.dumps` with `allow_nan=False` and
`ensure_ascii=False`, then UTF-8.

* `render_isSome`: a value is rendered exactly if it is `Strict`.
* `ofJson_strict`: every JSON document of Unicode text is.
-/

/-- A code point. -/
abbrev CodePoint := Fin 0x110000

instance neZero_codePoints : @NeZero Nat Zero.ofOfNat0 0x110000 := ⟨by decide⟩

/-- A Python string. -/
abbrev PyStr := List CodePoint

namespace PyStr

/-- The code point of a character. -/
def codePoint (c : Char) : CodePoint := ⟨c.toNat, by
  rcases Json.toNat_scalar c with h | ⟨-, h⟩ <;> omega⟩

def ofString (s : String) : PyStr := s.toList.map codePoint

def IsSurrogate (c : CodePoint) : Prop := 0xd800 ≤ c.val ∧ c.val ≤ 0xdfff

instance : DecidablePred IsSurrogate := fun _ => inferInstanceAs (Decidable (_ ∧ _))

/-- The character of a code point that is no surrogate. -/
def toChar? (c : CodePoint) : Option Char :=
  if h : c.val.isValidChar then some (Char.ofNatAux c.val h) else none

/-- `str.encode("utf-8")`, which raises at a surrogate. -/
def encode (s : PyStr) : Option (List UInt8) :=
  (s.mapM toChar?).map (fun cs => cs.flatMap String.utf8EncodeChar)

/-- No code point of the string is a surrogate. -/
def Encodable (s : PyStr) : Prop := ∀ c ∈ s, ¬ IsSurrogate c

instance (s : PyStr) : Decidable s.Encodable := List.decidableBAll (fun c => ¬ IsSurrogate c) s

theorem encodable_ofString (s : String) : (ofString s).Encodable := by
  intro c hc
  obtain ⟨d, -, rfl⟩ := List.mem_map.mp hc
  have hd := Json.toNat_scalar d
  simp only [IsSurrogate, codePoint]
  omega

theorem encodable_append {s t : PyStr} : (s ++ t).Encodable ↔ s.Encodable ∧ t.Encodable :=
  List.forall_mem_append

theorem toChar?_isSome (c : CodePoint) : (toChar? c).isSome ↔ ¬ IsSurrogate c := by
  have hc := c.isLt
  unfold toChar? IsSurrogate
  by_cases h : c.val.isValidChar
  · refine iff_of_true (by rw [dif_pos h]; rfl) ?_
    unfold Nat.isValidChar at h
    omega
  · refine iff_of_false (by rw [dif_neg h]; exact Bool.false_ne_true) ?_
    unfold Nat.isValidChar at h
    omega

theorem encode_isSome (s : PyStr) : s.encode.isSome ↔ s.Encodable := by
  unfold encode
  rw [Option.isSome_map]
  induction s with
  | nil => simp [PyStr.Encodable]
  | cons c s ih =>
    have hc := toChar?_isSome c
    have hcons : PyStr.Encodable (c :: s) ↔ ¬ IsSurrogate c ∧ PyStr.Encodable s :=
      List.forall_mem_cons
    rw [hcons, ← hc, ← ih]
    cases hd : toChar? c <;> cases hs : s.mapM toChar? <;> simp [hd, hs]

end PyStr

/-- A float: a finite one by its shortest decimal text. -/
inductive PyFloat
  | finite (text : String)
  | nan
  | infinity
  | negInfinity
  deriving DecidableEq

/-- A Python value that a request body is read as. -/
inductive PyValue where
  | none
  | bool (b : Bool)
  | int (n : Int)
  | float (x : PyFloat)
  | str (s : PyStr)
  | bytes (octets : List UInt8)
  | list (items : List PyValue)
  | dict (entries : List (PyStr × PyValue))

namespace PyValue

open PyStr

/-! ## The strict text -/

/-- A code point as it stands between the quotes. -/
def escape (c : CodePoint) : PyStr :=
  match (toChar? c).bind Json.shortEscape with
  | some e => [codePoint '\\', codePoint e]
  | Option.none => if c.val < 0x20 then (Json.codeUnit c.val).map codePoint else [c]

def quote (s : PyStr) : PyStr := ofString "\"" ++ (s.flatMap escape ++ ofString "\"")

mutual

/-- `json.dumps` with `allow_nan=False`, `ensure_ascii=False` and the compact separators;
`none` is the exception. -/
def dumps : PyValue → Option PyStr
  | .none => some (ofString "null")
  | .bool b => some (ofString (if b then "true" else "false"))
  | .int n => some (ofString (toString n))
  | .float (.finite text) => some (ofString text)
  | .float _ => Option.none
  | .str s => some (quote s)
  | .bytes _ => Option.none
  | .list items => (dumpsItems items).map (fun t => ofString "[" ++ (t ++ ofString "]"))
  | .dict entries => (dumpsEntries entries).map (fun t => ofString "\x7b" ++ (t ++ ofString "\x7d"))

/-- The items of a list, with a comma after each but the last. -/
def dumpsItems : List PyValue → Option PyStr
  | [] => some []
  | v :: vs => (dumps v).bind (fun t => (dumpsItems vs).map (fun u =>
    t ++ (if vs.isEmpty then u else ofString "," ++ u)))

def dumpsEntries : List (PyStr × PyValue) → Option PyStr
  | [] => some []
  | (k, v) :: es => (dumps v).bind (fun t => (dumpsEntries es).map (fun u =>
    quote k ++ (ofString ":" ++ (t ++ (if es.isEmpty then u else ofString "," ++ u)))))

end

/-- The serializer of a JSON response. -/
def render (v : PyValue) : Option (List UInt8) := (dumps v).bind encode

/-! ## What can be rendered -/

mutual

/-- No bytes, no float that is not finite and no surrogate, at any depth. -/
def Strict : PyValue → Prop
  | .float (.finite _) => True
  | .float _ => False
  | .str s => s.Encodable
  | .bytes _ => False
  | .list items => StrictItems items
  | .dict entries => StrictEntries entries
  | _ => True

def StrictItems : List PyValue → Prop
  | [] => True
  | v :: vs => v.Strict ∧ StrictItems vs

def StrictEntries : List (PyStr × PyValue) → Prop
  | [] => True
  | (k, v) :: es => k.Encodable ∧ v.Strict ∧ StrictEntries es

end

theorem strictItems_iff (items : List PyValue) : StrictItems items ↔ ∀ v ∈ items, v.Strict := by
  induction items with
  | nil => simp [StrictItems]
  | cons v vs ih => rw [StrictItems, ih, List.forall_mem_cons]

theorem strictEntries_iff (entries : List (PyStr × PyValue)) :
    StrictEntries entries ↔ ∀ e ∈ entries, e.1.Encodable ∧ e.2.Strict := by
  induction entries with
  | nil => simp [StrictEntries]
  | cons e es ih => rw [StrictEntries, ih, List.forall_mem_cons, and_assoc]

theorem encodable_map_codePoint (cs : List Char) : PyStr.Encodable (cs.map codePoint) := by
  have h := encodable_ofString (String.ofList cs)
  rwa [ofString, String.toList_ofList] at h

theorem encodable_escape (c : CodePoint) : PyStr.Encodable (escape c) ↔ ¬ IsSurrogate c := by
  have hsome := toChar?_isSome c
  unfold escape
  split
  · rename_i e he
    obtain ⟨d, hd, -⟩ := Option.bind_eq_some_iff.mp he
    rw [hd] at hsome
    exact iff_of_true (encodable_map_codePoint ['\\', e]) (hsome.mp (by simp))
  · split_ifs with hlow
    · have hunit := encodable_map_codePoint (Json.codeUnit c.val)
      simp only [hunit, true_iff, IsSurrogate]
      omega
    · simp [PyStr.Encodable]

theorem encodable_quote (s : PyStr) : PyStr.Encodable (quote s) ↔ s.Encodable := by
  have hbody : PyStr.Encodable (s.flatMap escape) ↔ s.Encodable := by
    constructor
    · intro h c hc
      exact (encodable_escape c).mp fun d hd => h d (List.mem_flatMap.mpr ⟨c, hc, hd⟩)
    · intro h d hd
      obtain ⟨c, hc, hd⟩ := List.mem_flatMap.mp hd
      exact (encodable_escape c).mpr (h c hc) d hd
  simp only [quote, encodable_append, encodable_ofString, hbody, true_and, and_true]

mutual

/-- A text that can be encoded is the text of a strict value, and only a strict value has
one. -/
theorem dumps_encodable : ∀ v : PyValue, (∃ t, dumps v = some t ∧ t.Encodable) ↔ v.Strict
  | .none => by simp [dumps, Strict, encodable_ofString]
  | .bool b => by simp [dumps, Strict, encodable_ofString]
  | .int n => by simp [dumps, Strict, encodable_ofString]
  | .float (.finite text) => by simp [dumps, Strict, encodable_ofString]
  | .float .nan => by simp [dumps, Strict]
  | .float .infinity => by simp [dumps, Strict]
  | .float .negInfinity => by simp [dumps, Strict]
  | .str s => by simp [dumps, Strict, encodable_quote]
  | .bytes octets => by simp [dumps, Strict]
  | .list items => by
    rw [Strict, ← dumpsItems_encodable items, dumps]
    cases dumpsItems items <;> simp [encodable_append, encodable_ofString]
  | .dict entries => by
    rw [Strict, ← dumpsEntries_encodable entries, dumps]
    cases dumpsEntries entries <;> simp [encodable_append, encodable_ofString]

theorem dumpsItems_encodable : ∀ items : List PyValue,
    (∃ t, dumpsItems items = some t ∧ t.Encodable) ↔ StrictItems items
  | [] => by simp [dumpsItems, StrictItems, PyStr.Encodable]
  | v :: vs => by
    rw [StrictItems, ← dumps_encodable v, ← dumpsItems_encodable vs, dumpsItems]
    cases dumps v <;> cases dumpsItems vs <;> cases vs <;>
      simp [encodable_append, encodable_ofString]

theorem dumpsEntries_encodable : ∀ entries : List (PyStr × PyValue),
    (∃ t, dumpsEntries entries = some t ∧ t.Encodable) ↔ StrictEntries entries
  | [] => by simp [dumpsEntries, StrictEntries, PyStr.Encodable]
  | (k, v) :: es => by
    rw [StrictEntries, ← dumps_encodable v, ← dumpsEntries_encodable es, dumpsEntries]
    cases dumps v <;> cases dumpsEntries es <;> cases es <;>
      simp [encodable_append, encodable_ofString, encodable_quote]

end

/-- **A value is rendered exactly if it is strict.** -/
theorem render_isSome (v : PyValue) : (render v).isSome ↔ v.Strict := by
  rw [← dumps_encodable, render]
  cases dumps v with
  | none => simp
  | some t => simp [encode_isSome]

/-! ## JSON documents -/

mutual

/-- What Python reads a JSON document as. -/
def ofJson : Json → PyValue
  | .null => .none
  | .bool b => .bool b
  | .num n => .int n
  | .str s => .str (ofString s)
  | .arr items => .list (ofItems items)
  | .obj fields => .dict (ofFields fields)

def ofItems : List Json → List PyValue
  | [] => []
  | x :: xs => ofJson x :: ofItems xs

def ofFields : List (String × Json) → List (PyStr × PyValue)
  | [] => []
  | (k, x) :: fs => (ofString k, ofJson x) :: ofFields fs

end

mutual

/-- A JSON document of Unicode text is strict. -/
theorem ofJson_strict : ∀ x : Json, (ofJson x).Strict
  | .null => by simp [ofJson, Strict]
  | .bool b => by simp [ofJson, Strict]
  | .num n => by simp [ofJson, Strict]
  | .str s => by simp [ofJson, Strict, encodable_ofString]
  | .arr items => by simpa [ofJson, Strict] using ofItems_strict items
  | .obj fields => by simpa [ofJson, Strict] using ofFields_strict fields

theorem ofItems_strict : ∀ items : List Json, StrictItems (ofItems items)
  | [] => by simp [ofItems, StrictItems]
  | x :: xs => by simp [ofItems, StrictItems, ofJson_strict x, ofItems_strict xs]

theorem ofFields_strict : ∀ fields : List (String × Json), StrictEntries (ofFields fields)
  | [] => by simp [ofFields, StrictEntries]
  | (k, x) :: fs => by
    simp [ofFields, StrictEntries, encodable_ofString, ofJson_strict x, ofFields_strict fs]

end

end PyValue
