import Mathlib.Data.List.DropRight

/-!
# Base64

`b64encode` and the lenient reader of `binascii.a2b_base64`: bytes that are no digit are
passed over, and the reader stops at the padding that completes a group of four. The URL-safe
variants write `-` and `_` for the last two digits.

* `urlsafeB64decode_encode`: a text is read back as the bytes it was written from.
* `repad_rstrip`: the padding that was stripped from a text can be put back.
-/

namespace Base64

/-! ## Digits -/

/-- The digit of a value below 64. -/
def digit (n : Nat) : UInt8 :=
  if n < 26 then .ofNat (n + 65)
  else if n < 52 then .ofNat (n - 26 + 97)
  else if n < 62 then .ofNat (n - 52 + 48)
  else if n = 62 then 0x2b
  else 0x2f

/-- `table_a2b_base64` -/
def value? (c : UInt8) : Option Nat :=
  if 65 ≤ c.toNat ∧ c.toNat ≤ 90 then some (c.toNat - 65)
  else if 97 ≤ c.toNat ∧ c.toNat ≤ 122 then some (c.toNat - 97 + 26)
  else if 48 ≤ c.toNat ∧ c.toNat ≤ 57 then some (c.toNat - 48 + 52)
  else if c = 0x2b then some 62
  else if c = 0x2f then some 63
  else none

/-- `=` -/
def pad : UInt8 := 0x3d

theorem value_digit {n : Nat} (h : n < 64) : value? (digit n) = some n := by
  have key : ∀ m < 64, value? (digit m) = some m := by decide
  exact key n h

theorem digit_ne_pad {n : Nat} (h : n < 64) : digit n ≠ pad := by
  have key : ∀ m < 64, digit m ≠ pad := by decide
  exact key n h

/-! ## Writing and reading -/

/-- `base64.b64encode` -/
def b64encode : List UInt8 → List UInt8
  | [] => []
  | [a] => [digit (a.toNat / 4), digit (a.toNat % 4 * 16), pad, pad]
  | [a, b] => [digit (a.toNat / 4), digit (a.toNat % 4 * 16 + b.toNat / 16),
      digit (b.toNat % 16 * 4), pad]
  | a :: b :: c :: r => digit (a.toNat / 4) :: digit (a.toNat % 4 * 16 + b.toNat / 16) ::
      digit (b.toNat % 16 * 4 + c.toNat / 64) :: digit (c.toNat % 64) :: b64encode r

/-- Where the reader stands in a group of four digits: with the bits of the last digit that
are not read yet, and at the third place whether a pad has been seen. -/
inductive Place
  | first
  | second (left : Nat)
  | third (left : Nat) (padded : Bool)
  | fourth (left : Nat)

/-- `binascii.a2b_base64`; `none` is `binascii.Error`. -/
def a2bBase64 : Place → List UInt8 → Option (List UInt8)
  | .first, [] => some []
  | .second _, [] => none
  | .third _ _, [] => none
  | .fourth _, [] => none
  | place, c :: cs =>
    if c = pad then
      match place with
      | .first => a2bBase64 .first cs
      | .second left => a2bBase64 (.second left) cs
      | .third left false => a2bBase64 (.third left true) cs
      | .third _ true => some []
      | .fourth _ => some []
    else
      match value? c with
      | none => a2bBase64 place cs
      | some v =>
        match place with
        | .first => a2bBase64 (.second v) cs
        | .second left =>
          (a2bBase64 (.third (v % 16) false) cs).map (.ofNat (left * 4 + v / 16) :: ·)
        | .third left _ => (a2bBase64 (.fourth (v % 4)) cs).map (.ofNat (left * 16 + v / 4) :: ·)
        | .fourth left => (a2bBase64 .first cs).map (.ofNat (left * 64 + v) :: ·)

section Reading

variable {n left : Nat} {padded : Bool} {cs : List UInt8}

theorem a2b_first (h : n < 64) :
    a2bBase64 .first (digit n :: cs) = a2bBase64 (.second n) cs := by
  rw [a2bBase64, if_neg (digit_ne_pad h), value_digit h]

theorem a2b_second (h : n < 64) : a2bBase64 (.second left) (digit n :: cs) =
    (a2bBase64 (.third (n % 16) false) cs).map (.ofNat (left * 4 + n / 16) :: ·) := by
  rw [a2bBase64, if_neg (digit_ne_pad h), value_digit h]

theorem a2b_third (h : n < 64) : a2bBase64 (.third left padded) (digit n :: cs) =
    (a2bBase64 (.fourth (n % 4)) cs).map (.ofNat (left * 16 + n / 4) :: ·) := by
  cases padded <;> rw [a2bBase64, if_neg (digit_ne_pad h), value_digit h]

theorem a2b_fourth (h : n < 64) : a2bBase64 (.fourth left) (digit n :: cs) =
    (a2bBase64 .first cs).map (.ofNat (left * 64 + n) :: ·) := by
  rw [a2bBase64, if_neg (digit_ne_pad h), value_digit h]

end Reading

theorem ofNat_eq {n : Nat} {a : UInt8} (h : n = a.toNat) : UInt8.ofNat n = a := by
  rw [h, UInt8.ofNat_toNat]

theorem a2b_encode (bs : List UInt8) : a2bBase64 .first (b64encode bs) = some bs := by
  induction bs using b64encode.induct with
  | case1 => rfl
  | case2 a =>
    have ha := a.toNat_lt
    rw [b64encode, a2b_first (by omega), a2b_second (by omega)]
    change some [UInt8.ofNat _] = some [a]
    rw [ofNat_eq (show a.toNat / 4 * 4 + a.toNat % 4 * 16 / 16 = a.toNat by omega)]
  | case3 a b =>
    have ha := a.toNat_lt
    have hb := b.toNat_lt
    rw [b64encode, a2b_first (by omega), a2b_second (by omega), a2b_third (by omega)]
    change some [UInt8.ofNat _, UInt8.ofNat _] = some [a, b]
    rw [ofNat_eq (show a.toNat / 4 * 4 + (a.toNat % 4 * 16 + b.toNat / 16) / 16 = a.toNat by omega),
      ofNat_eq (show (a.toNat % 4 * 16 + b.toNat / 16) % 16 * 16 + b.toNat % 16 * 4 / 4 =
        b.toNat by omega)]
  | case4 a b c r ih =>
    have ha := a.toNat_lt
    have hb := b.toNat_lt
    have hc := c.toNat_lt
    rw [b64encode, a2b_first (by omega), a2b_second (by omega), a2b_third (by omega),
      a2b_fourth (by omega), ih]
    change some (UInt8.ofNat _ :: UInt8.ofNat _ :: UInt8.ofNat _ :: r) = some (a :: b :: c :: r)
    rw [ofNat_eq (show a.toNat / 4 * 4 + (a.toNat % 4 * 16 + b.toNat / 16) / 16 = a.toNat by omega),
      ofNat_eq (show (a.toNat % 4 * 16 + b.toNat / 16) % 16 * 16 +
        (b.toNat % 16 * 4 + c.toNat / 64) / 4 = b.toNat by omega),
      ofNat_eq (show (b.toNat % 16 * 4 + c.toNat / 64) % 4 * 64 + c.toNat % 64 = c.toNat by omega)]

/-! ## The URL-safe alphabet -/

/-- `_urlsafe_encode_translation` -/
def toUrlsafe (c : UInt8) : UInt8 := if c = 0x2b then 0x2d else if c = 0x2f then 0x5f else c

/-- `_urlsafe_decode_translation` -/
def ofUrlsafe (c : UInt8) : UInt8 := if c = 0x2d then 0x2b else if c = 0x5f then 0x2f else c

/-- `base64.urlsafe_b64encode` -/
def urlsafeB64encode (bs : List UInt8) : List UInt8 := (b64encode bs).map toUrlsafe

/-- `base64.urlsafe_b64decode` -/
def urlsafeB64decode (cs : List UInt8) : Option (List UInt8) :=
  a2bBase64 .first (cs.map ofUrlsafe)

/-- What a text of base64 is made of: the digits of whole groups, and the padding that
completes the last one. -/
theorem encode_split (bs : List UInt8) : ∃ ns : List Nat, ∃ p < 4, (∀ n ∈ ns, n < 64) ∧
    b64encode bs = ns.map digit ++ List.replicate p pad ∧ (ns.length + p) % 4 = 0 := by
  induction bs using b64encode.induct with
  | case1 => exact ⟨[], 0, by decide, by simp, rfl, rfl⟩
  | case2 a =>
    have ha := a.toNat_lt
    refine ⟨[a.toNat / 4, a.toNat % 4 * 16], 2, by decide, ?_, rfl, by simp⟩
    simp only [List.forall_mem_cons, List.not_mem_nil, false_imp_iff, implies_true, and_true]
    omega
  | case3 a b =>
    have ha := a.toNat_lt
    have hb := b.toNat_lt
    refine ⟨[a.toNat / 4, a.toNat % 4 * 16 + b.toNat / 16, b.toNat % 16 * 4], 1, by decide, ?_,
      rfl, by simp⟩
    simp only [List.forall_mem_cons, List.not_mem_nil, false_imp_iff, implies_true, and_true]
    omega
  | case4 a b c r ih =>
    have ha := a.toNat_lt
    have hb := b.toNat_lt
    have hc := c.toNat_lt
    obtain ⟨ns, p, hp, hns, heq, hlen⟩ := ih
    refine ⟨a.toNat / 4 :: (a.toNat % 4 * 16 + b.toNat / 16) ::
      (b.toNat % 16 * 4 + c.toNat / 64) :: c.toNat % 64 :: ns, p, hp, ?_, ?_, ?_⟩
    · simp only [List.forall_mem_cons]
      exact ⟨by omega, by omega, by omega, by omega, hns⟩
    · rw [b64encode, heq]
      rfl
    · simp only [List.length_cons]
      omega

theorem ofUrlsafe_digit {n : Nat} (h : n < 64) : ofUrlsafe (toUrlsafe (digit n)) = digit n := by
  have key : ∀ m < 64, ofUrlsafe (toUrlsafe (digit m)) = digit m := by decide
  exact key n h

/-- **Reading back.** -/
theorem urlsafeB64decode_encode (bs : List UInt8) :
    urlsafeB64decode (urlsafeB64encode bs) = some bs := by
  have hmap : (urlsafeB64encode bs).map ofUrlsafe = b64encode bs := by
    obtain ⟨ns, p, -, hns, heq, -⟩ := encode_split bs
    rw [urlsafeB64encode, heq]
    simp only [List.map_append, List.map_map, List.map_replicate]
    congr 1
    exact List.map_congr_left fun n hn => ofUrlsafe_digit (hns n hn)
  rw [urlsafeB64decode, hmap, a2b_encode]

/-! ## The padding -/

section Padding

variable {α : Type}

/-- `s + c * (-len(s) % 4)` -/
def repad (c : α) (s : List α) : List α := s ++ List.replicate ((4 - s.length % 4) % 4) c

theorem repad_of_length {c : α} {s : List α} (h : s.length % 4 = 0) : repad c s = s := by
  rw [repad, h]
  exact List.append_nil s

theorem repad_map {β : Type} (f : α → β) (c : α) (s : List α) :
    repad (f c) (s.map f) = (repad c s).map f := by
  rw [repad, repad, List.map_append, List.map_replicate, List.length_map]

variable [DecidableEq α]

/-- `s.rstrip(c)` -/
def rstrip (c : α) (s : List α) : List α := s.rdropWhile (· = c)

theorem rstrip_map {β : Type} [DecidableEq β] {f : α → β} (hf : Function.Injective f) (c : α)
    (s : List α) : rstrip (f c) (s.map f) = (rstrip c s).map f := by
  have hsame : (fun x => decide (x = f c)) ∘ f = fun x => decide (x = c) := by
    funext x
    exact decide_eq_decide.mpr hf.eq_iff
  rw [rstrip, rstrip, List.rdropWhile, List.rdropWhile, ← List.map_reverse, List.dropWhile_map,
    hsame, List.map_reverse]

theorem rstrip_append_replicate {c : α} {s : List α} (hs : c ∉ s) (p : Nat) :
    rstrip c (s ++ List.replicate p c) = s := by
  induction p with
  | zero =>
    rw [List.replicate_zero, List.append_nil, rstrip, List.rdropWhile_eq_self_iff]
    intro hne
    simpa using fun hc : s.getLast hne = c => hs (hc ▸ List.getLast_mem hne)
  | succ p ih =>
    rw [List.replicate_succ', ← List.append_assoc, rstrip,
      List.rdropWhile_concat_pos _ _ _ (by simp)]
    exact ih

theorem repad_rstrip_append {c : α} {s : List α} {p : Nat} (hs : c ∉ s) (hp : p < 4)
    (hlen : (s.length + p) % 4 = 0) :
    repad c (rstrip c (s ++ List.replicate p c)) = s ++ List.replicate p c := by
  rw [rstrip_append_replicate hs, repad, show (4 - s.length % 4) % 4 = p by omega]

end Padding

/-- The text as digits of the URL-safe alphabet and padding. -/
theorem urlsafe_split (bs : List UInt8) : ∃ s : List UInt8, ∃ p < 4, pad ∉ s ∧
    urlsafeB64encode bs = s ++ List.replicate p pad ∧ (s.length + p) % 4 = 0 ∧
    ∀ c ∈ s, 0x20 < c ∧ c < 0x80 := by
  obtain ⟨ns, p, hp, hns, heq, hlen⟩ := encode_split bs
  have hdigit : ∀ n < 64, toUrlsafe (digit n) ≠ pad ∧ 0x20 < toUrlsafe (digit n) ∧
      toUrlsafe (digit n) < 0x80 := by decide
  refine ⟨ns.map (fun n => toUrlsafe (digit n)), p, hp, ?_, ?_, by simpa using hlen, ?_⟩
  · intro hmem
    obtain ⟨n, hn, hpad⟩ := List.mem_map.mp hmem
    exact (hdigit n (hns n hn)).1 hpad
  · rw [urlsafeB64encode, heq, List.map_append, List.map_map, List.map_replicate]
    rfl
  · intro c hc
    obtain ⟨n, hn, rfl⟩ := List.mem_map.mp hc
    exact (hdigit n (hns n hn)).2

theorem length_urlsafeB64encode (bs : List UInt8) : (urlsafeB64encode bs).length % 4 = 0 := by
  obtain ⟨s, p, -, -, heq, hlen, -⟩ := urlsafe_split bs
  rw [heq, List.length_append, List.length_replicate]
  exact hlen

/-- **The padding can be put back.** -/
theorem repad_rstrip (bs : List UInt8) :
    repad pad (rstrip pad (urlsafeB64encode bs)) = urlsafeB64encode bs := by
  obtain ⟨s, p, hp, hs, heq, hlen, -⟩ := urlsafe_split bs
  rw [heq]
  exact repad_rstrip_append hs hp hlen

theorem ascii_urlsafeB64encode (bs : List UInt8) :
    ∀ c ∈ urlsafeB64encode bs, 0x20 < c ∧ c < 0x80 := by
  obtain ⟨s, p, -, -, heq, -, hascii⟩ := urlsafe_split bs
  intro c hc
  rw [heq] at hc
  rcases List.mem_append.mp hc with hc | hc
  · exact hascii c hc
  · rw [List.eq_of_mem_replicate hc]
    decide

end Base64
