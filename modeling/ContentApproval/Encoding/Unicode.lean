import ContentApproval.Json.Strict

/-!
# Encodings of text

The codecs between bytes and Python strings that reading a JSON text in bytes needs:
ASCII, and UTF-8, UTF-16 and UTF-32 with the error handler `surrogatepass`, which lets a
surrogate that stands alone through. `detectEncoding` is the guess of `json.loads`.

* `decode_ascii`: bytes of ASCII other than NUL are guessed to be UTF-8, and decoded one
  by one.
* `textOf?_eq_some`: a string without surrogates is Unicode text.
-/

namespace PyStr

/-! ## ASCII -/

/-- The code point of a byte. -/
def ofByte (b : UInt8) : CodePoint := ⟨b.toNat, by have := b.toNat_lt; omega⟩

/-- `bytes.decode("ascii")` -/
def decodeAscii (bs : List UInt8) : Option PyStr :=
  bs.mapM (fun b => if b < 0x80 then some (ofByte b) else none)

/-- `str.encode("ascii")` -/
def encodeAscii (s : PyStr) : Option (List UInt8) :=
  s.mapM (fun c => if c.val < 0x80 then some (.ofNat c.val) else none)

/-! ## UTF-8 -/

def codePoint? (n : Nat) : Option CodePoint := if h : n < 0x110000 then some ⟨n, h⟩ else none

/-- The string with the code point `n` in front. -/
def push (n : Nat) (rest : Option PyStr) : Option PyStr :=
  (codePoint? n).bind (fun c => rest.map (c :: ·))

/-- A byte after the first of a character. -/
def IsTail (b : UInt8) : Prop := 0x80 ≤ b.toNat ∧ b.toNat ≤ 0xbf

instance : DecidablePred IsTail := fun _ => inferInstanceAs (Decidable (_ ∧ _))

/-- The value of two, three or four bytes of a character. -/
def value2 (a b : UInt8) : Nat := (a.toNat - 0xc0) * 0x40 + (b.toNat - 0x80)

def value3 (a b c : UInt8) : Nat :=
  ((a.toNat - 0xe0) * 0x40 + (b.toNat - 0x80)) * 0x40 + (c.toNat - 0x80)

def value4 (a b c d : UInt8) : Nat :=
  (((a.toNat - 0xf0) * 0x40 + (b.toNat - 0x80)) * 0x40 + (c.toNat - 0x80)) * 0x40 + (d.toNat - 0x80)

/-- `bytes.decode("utf-8", "surrogatepass")` -/
def decodeUtf8 : List UInt8 → Option PyStr
  | [] => some []
  | a :: r =>
    if a.toNat < 0x80 then push a.toNat (decodeUtf8 r)
    else match r with
      | [] => none
      | b :: r =>
        if 0xc2 ≤ a.toNat ∧ a.toNat ≤ 0xdf ∧ IsTail b then push (value2 a b) (decodeUtf8 r)
        else match r with
          | [] => none
          | c :: r =>
            if 0xe0 ≤ a.toNat ∧ a.toNat ≤ 0xef ∧ IsTail b ∧ IsTail c ∧ 0x800 ≤ value3 a b c then
              push (value3 a b c) (decodeUtf8 r)
            else match r with
              | [] => none
              | d :: r =>
                if 0xf0 ≤ a.toNat ∧ a.toNat ≤ 0xf4 ∧ IsTail b ∧ IsTail c ∧ IsTail d ∧
                    0x10000 ≤ value4 a b c d then
                  push (value4 a b c d) (decodeUtf8 r)
                else none

/-! ## UTF-16 -/

def IsHigh (n : Nat) : Prop := 0xd800 ≤ n ∧ n ≤ 0xdbff

def IsLow (n : Nat) : Prop := 0xdc00 ≤ n ∧ n ≤ 0xdfff

instance : DecidablePred IsHigh := fun _ => inferInstanceAs (Decidable (_ ∧ _))

instance : DecidablePred IsLow := fun _ => inferInstanceAs (Decidable (_ ∧ _))

/-- The code point of a pair of surrogates. -/
def joinSurrogates (high low : Nat) : Nat := 0x10000 + (high - 0xd800) * 0x400 + (low - 0xdc00)

/-- Bytes as code units. -/
def codeUnits (littleEndian : Bool) : List UInt8 → Option (List Nat)
  | [] => some []
  | [_] => none
  | a :: b :: r =>
    let unit := if littleEndian then b.toNat * 0x100 + a.toNat else a.toNat * 0x100 + b.toNat
    (codeUnits littleEndian r).map (unit :: ·)

/-- Code units as code points; a surrogate that has no partner stands for itself. -/
def ofCodeUnits : List Nat → Option PyStr
  | [] => some []
  | [u] => push u (some [])
  | u :: v :: r =>
    if IsHigh u ∧ IsLow v then push (joinSurrogates u v) (ofCodeUnits r)
    else push u (ofCodeUnits (v :: r))

/-- `bytes.decode("utf-16-le", "surrogatepass")`, and `"utf-16-be"`. -/
def decodeUtf16 (littleEndian : Bool) (bs : List UInt8) : Option PyStr :=
  (codeUnits littleEndian bs).bind ofCodeUnits

/-! ## UTF-32 -/

/-- `bytes.decode("utf-32-le", "surrogatepass")`, and `"utf-32-be"`. -/
def decodeUtf32 (littleEndian : Bool) : List UInt8 → Option PyStr
  | [] => some []
  | a :: b :: c :: d :: r =>
    let value := fun (w x y z : UInt8) =>
      ((w.toNat * 0x100 + x.toNat) * 0x100 + y.toNat) * 0x100 + z.toNat
    push (if littleEndian then value d c b a else value a b c d) (decodeUtf32 littleEndian r)
  | _ => none

/-! ## The guess of the encoding -/

inductive Encoding
  | utf8
  | utf8Sig
  | utf16
  | utf16be
  | utf16le
  | utf32
  | utf32be
  | utf32le
  deriving DecidableEq

/-- `json.detect_encoding` -/
def detectEncoding (bs : List UInt8) : Encoding :=
  if [0x00, 0x00, 0xfe, 0xff].isPrefixOf bs || [0xff, 0xfe, 0x00, 0x00].isPrefixOf bs then .utf32
  else if [0xfe, 0xff].isPrefixOf bs || [0xff, 0xfe].isPrefixOf bs then .utf16
  else if [0xef, 0xbb, 0xbf].isPrefixOf bs then .utf8Sig
  else match bs with
    | b0 :: b1 :: b2 :: b3 :: _ =>
      if b0 = 0 then (if b1 ≠ 0 then .utf16be else .utf32be)
      else if b1 = 0 then (if b2 ≠ 0 ∨ b3 ≠ 0 then .utf16le else .utf32le)
      else .utf8
    | [b0, b1] => if b0 = 0 then .utf16be else if b1 = 0 then .utf16le else .utf8
    | _ => .utf8

/-- `bytes.decode(encoding, "surrogatepass")`. UTF-16 and UTF-32 without an order of the
bytes are guessed from a byte order mark only, which is not part of the text. -/
def decode (bs : List UInt8) : Encoding → Option PyStr
  | .utf8 => decodeUtf8 bs
  | .utf8Sig => decodeUtf8 (bs.drop 3)
  | .utf16 => decodeUtf16 ([0xff, 0xfe].isPrefixOf bs) (bs.drop 2)
  | .utf16be => decodeUtf16 false bs
  | .utf16le => decodeUtf16 true bs
  | .utf32 => decodeUtf32 ([0xff, 0xfe].isPrefixOf bs) (bs.drop 4)
  | .utf32be => decodeUtf32 false bs
  | .utf32le => decodeUtf32 true bs

/-! ## ASCII texts -/

/-- A byte of ASCII, without NUL. -/
def IsAscii (b : UInt8) : Prop := 0 < b.toNat ∧ b.toNat < 0x80

section Ascii

variable {bs : List UInt8}

theorem codePoint?_ofByte (b : UInt8) : codePoint? b.toNat = some (ofByte b) := by
  have hb := b.toNat_lt
  rw [codePoint?, dif_pos (by omega)]
  rfl

theorem decodeUtf8_ascii (h : ∀ b ∈ bs, IsAscii b) : decodeUtf8 bs = some (bs.map ofByte) := by
  induction bs with
  | nil => rfl
  | cons b bs ih =>
    obtain ⟨hb, hbs⟩ := List.forall_mem_cons.mp h
    rw [decodeUtf8.eq_def]
    dsimp only
    rw [if_pos hb.2, ih hbs, push, codePoint?_ofByte]
    rfl

theorem decodeAscii_ascii (h : ∀ b ∈ bs, IsAscii b) : decodeAscii bs = some (bs.map ofByte) := by
  unfold decodeAscii
  induction bs with
  | nil => rfl
  | cons b bs ih =>
    obtain ⟨hb, hbs⟩ := List.forall_mem_cons.mp h
    rw [List.mapM_cons, if_pos (UInt8.lt_iff_toNat_lt.mpr hb.2), ih hbs]
    rfl

theorem encodeAscii_ofByte (h : ∀ b ∈ bs, IsAscii b) : encodeAscii (bs.map ofByte) = some bs := by
  unfold encodeAscii
  induction bs with
  | nil => rfl
  | cons b bs ih =>
    obtain ⟨hb, hbs⟩ := List.forall_mem_cons.mp h
    rw [List.map_cons, List.mapM_cons, if_pos (show (ofByte b).val < 0x80 from hb.2), ih hbs]
    simp [ofByte]

theorem detectEncoding_ascii (h : ∀ b ∈ bs, IsAscii b) : detectEncoding bs = .utf8 := by
  have hne : ∀ b ∈ bs, b ≠ 0 ∧ b ≠ 0xfe ∧ b ≠ 0xff ∧ b ≠ 0xef := by
    intro b hb
    obtain ⟨hpos, hlt⟩ := h b hb
    refine ⟨?_, ?_, ?_, ?_⟩ <;> rintro rfl <;> revert hpos hlt <;> decide
  have hstart : ∀ m ∈ [(0 : UInt8), 0xfe, 0xff, 0xef], ∀ ms, (m :: ms).isPrefixOf bs = false := by
    intro m hm ms
    cases bs with
    | nil => rfl
    | cons b bs =>
      have hb := hne b List.mem_cons_self
      have hmb : (m == b) = false := by
        rw [beq_eq_false_iff_ne]
        rintro rfl
        simp_all
      rw [List.isPrefixOf, hmb, Bool.false_and]
  unfold detectEncoding
  rw [hstart 0 (by simp), hstart 0xff (by simp), hstart 0xfe (by simp), hstart 0xff (by simp),
    hstart 0xef (by simp)]
  simp only [Bool.or_self, Bool.false_eq_true, if_false]
  split
  · rw [if_neg (hne _ (by simp)).1, if_neg (hne _ (by simp)).1]
  · rw [if_neg (hne _ (by simp)).1, if_neg (hne _ (by simp)).1]
  · rfl

/-- **Bytes of ASCII are decoded one by one.** -/
theorem decode_ascii (h : ∀ b ∈ bs, IsAscii b) :
    decode bs (detectEncoding bs) = some (bs.map ofByte) := by
  rw [detectEncoding_ascii h, decode, decodeUtf8_ascii h]

end Ascii

/-! ## Unicode text -/

/-- A string as Unicode text, if it has no surrogates. -/
def textOf? (s : PyStr) : Option String := (s.mapM toChar?).map String.ofList

theorem codePoint_inj {c d : Char} : codePoint c = codePoint d ↔ c = d := by
  constructor
  · intro h
    exact Json.char_eq (Fin.mk.inj h)
  · rintro rfl
    rfl

theorem toChar?_codePoint (c : Char) : toChar? (codePoint c) = some c := by
  have hc : (codePoint c).val.isValidChar := c.valid
  rw [toChar?, dif_pos hc]
  exact congrArg some (Json.char_eq rfl)

theorem mapM_toChar? (cs : List Char) : (cs.map codePoint).mapM toChar? = some cs := by
  induction cs with
  | nil => rfl
  | cons c cs ih =>
    rw [List.map_cons, List.mapM_cons, toChar?_codePoint, ih]
    rfl

theorem textOf?_ofString (s : String) : textOf? (ofString s) = some s := by
  rw [textOf?, ofString, mapM_toChar?, Option.map_some, String.ofList_toList]

theorem codePoint_of_toChar? {c : CodePoint} {d : Char} (h : toChar? c = some d) :
    codePoint d = c := by
  unfold toChar? at h
  by_cases hvalid : c.val.isValidChar
  · rw [dif_pos hvalid] at h
    obtain rfl := Option.some.inj h
    exact Fin.ext rfl
  · rw [dif_neg hvalid] at h
    cases h

theorem textOf?_eq_some {s : PyStr} {t : String} : textOf? s = some t ↔ s = ofString t := by
  constructor
  · intro h
    obtain ⟨cs, hcs, rfl⟩ := Option.map_eq_some_iff.mp h
    rw [ofString, String.toList_ofList]
    clear h
    induction s generalizing cs with
    | nil =>
      obtain rfl := Option.some.inj hcs
      rfl
    | cons c s ih =>
      rw [List.mapM_cons] at hcs
      obtain ⟨d, hd, hcs⟩ := Option.bind_eq_some_iff.mp hcs
      obtain ⟨ds, hds, hcs⟩ := Option.bind_eq_some_iff.mp hcs
      obtain rfl := Option.some.inj hcs
      rw [List.map_cons, codePoint_of_toChar? hd, ← ih ds hds]
  · rintro rfl
    exact textOf?_ofString t

/-- Text is what has no surrogates. -/
theorem textOf?_isSome (s : PyStr) : (textOf? s).isSome ↔ s.Encodable := by
  rw [← encode_isSome, textOf?, encode, Option.isSome_map, Option.isSome_map]

theorem ofString_injective : Function.Injective ofString := by
  intro s t h
  have htext := textOf?_ofString s
  rw [h, textOf?_ofString] at htext
  exact (Option.some.inj htext).symm

/-- Characters of ASCII are encoded as one byte each. -/
theorem encode_ascii {cs : List Char} (h : ∀ c ∈ cs, c.toNat < 0x80) :
    encode (cs.map codePoint) = some (cs.map (fun c => .ofNat c.toNat)) := by
  rw [encode, mapM_toChar?, Option.map_some]
  congr 1
  induction cs with
  | nil => rfl
  | cons c cs ih =>
    have hc := h c List.mem_cons_self
    have hbyte : String.utf8EncodeChar c = [.ofNat c.toNat] := by
      unfold String.utf8EncodeChar
      exact if_pos (by change c.toNat ≤ 0x7f; omega)
    rw [List.flatMap_cons, hbyte, ih fun d hd => h d (List.mem_cons_of_mem _ hd)]
    rfl

end PyStr
