import Mathlib.Data.List.Basic

/-!
# JSON values and their canonical text

`Json` is a JSON document with integer numbers. `Json.dumps` is its compact ASCII text:
strings are escaped to printable ASCII, a code point above `U+FFFF` as a surrogate pair,
and no blank stands between the tokens. `Json.sortKeys` orders the fields of every
object by key, as the canonical text of a document does.

`Json.dumps_injective`: the text determines the document. The proof reads the text from
the left: no text of a value, of an array tail or of an escaped character is a proper
prefix of another one (`dumps_cancel`, `more_cancel`, `escape_cancel`).
-/

/-- A JSON document. -/
inductive Json where
  | null
  | bool (b : Bool)
  | num (n : Int)
  | str (s : String)
  | arr (items : List Json)
  | obj (fields : List (String × Json))

namespace Json

/-! ## Strings -/

/-- The letter of a two-character escape. -/
def shortEscape (c : Char) : Option Char :=
  if c = '"' then some '"'
  else if c = '\\' then some '\\'
  else if c = '\n' then some 'n'
  else if c = '\r' then some 'r'
  else if c = '\t' then some 't'
  else if c = '\x0c' then some 'f'
  else if c = '\x08' then some 'b'
  else none

/-- Four lower-case hexadecimal digits. -/
def hex4 (n : Nat) : List Char :=
  [Nat.digitChar (n / 4096 % 16), Nat.digitChar (n / 256 % 16), Nat.digitChar (n / 16 % 16),
    Nat.digitChar (n % 16)]

/-- `\uXXXX`, one UTF-16 code unit. -/
def codeUnit (n : Nat) : List Char := '\\' :: 'u' :: hex4 n

/-- A character as it stands between the quotes. -/
def escape (c : Char) : List Char :=
  match shortEscape c with
  | some e => ['\\', e]
  | none =>
    if 0x20 ≤ c.toNat ∧ c.toNat ≤ 0x7e then [c]
    else if c.toNat < 0x10000 then codeUnit c.toNat
    else codeUnit (0xd800 + (c.toNat - 0x10000) / 0x400) ++
      codeUnit (0xdc00 + (c.toNat - 0x10000) % 0x400)

/-- The characters of a string and the closing quote. -/
def quoted : List Char → List Char
  | [] => ['"']
  | c :: cs => escape c ++ quoted cs

/-- The character behind the letter of a two-character escape. -/
def unescape (e : Char) : Char :=
  if e = 'n' then '\n'
  else if e = 'r' then '\r'
  else if e = 't' then '\t'
  else if e = 'f' then '\x0c'
  else if e = 'b' then '\x08'
  else e

theorem unescape_shortEscape {c e : Char} (h : shortEscape c = some e) : unescape e = c := by
  unfold shortEscape at h
  split_ifs at h <;> cases h <;> subst_vars <;> decide

theorem shortEscape_inj {c d e : Char} (hc : shortEscape c = some e)
    (hd : shortEscape d = some e) : c = d := by
  rw [← unescape_shortEscape hc, unescape_shortEscape hd]

theorem shortEscape_ne_u {c e : Char} (h : shortEscape c = some e) : e ≠ 'u' := by
  unfold shortEscape at h
  split_ifs at h <;> cases h <;> decide

theorem shortEscape_none {c : Char} (h : shortEscape c = none) : c ≠ '\\' ∧ c ≠ '"' := by
  constructor <;> rintro rfl <;> simp [shortEscape] at h

theorem digitChar_inj {m n : Nat} (hm : m < 16) (hn : n < 16)
    (h : Nat.digitChar m = Nat.digitChar n) : m = n := by
  have key : ∀ a b : Fin 16, Nat.digitChar a = Nat.digitChar b → a = b := by decide
  exact congrArg Fin.val (key ⟨m, hm⟩ ⟨n, hn⟩ h)

theorem hex4_inj {m n : Nat} (hm : m < 65536) (hn : n < 65536) (h : hex4 m = hex4 n) : m = n := by
  simp only [hex4, List.cons.injEq, and_true] at h
  obtain ⟨h1, h2, h3, h4⟩ := h
  have e1 := digitChar_inj (Nat.mod_lt _ (by decide)) (Nat.mod_lt _ (by decide)) h1
  have e2 := digitChar_inj (Nat.mod_lt _ (by decide)) (Nat.mod_lt _ (by decide)) h2
  have e3 := digitChar_inj (Nat.mod_lt _ (by decide)) (Nat.mod_lt _ (by decide)) h3
  have e4 := digitChar_inj (Nat.mod_lt _ (by decide)) (Nat.mod_lt _ (by decide)) h4
  omega

theorem codeUnit_cancel {m n : Nat} (hm : m < 65536) (hn : n < 65536) {r r' : List Char}
    (h : codeUnit m ++ r = codeUnit n ++ r') : m = n ∧ r = r' := by
  have hlen : (codeUnit m).length = (codeUnit n).length := rfl
  obtain ⟨hu, hr⟩ := List.append_inj h hlen
  simp only [codeUnit, List.cons.injEq, true_and] at hu
  exact ⟨hex4_inj hm hn hu, hr⟩

theorem toNat_scalar (c : Char) : c.toNat < 0xd800 ∨ 0xdfff < c.toNat ∧ c.toNat < 0x110000 := c.valid

/-- The four ways a character is written. -/
theorem escape_cases (c : Char) :
    (∃ e, shortEscape c = some e ∧ escape c = ['\\', e]) ∨
    (c ≠ '\\' ∧ c ≠ '"' ∧ escape c = [c]) ∨
    ((c.toNat < 0xd800 ∨ 0xdfff < c.toNat) ∧ c.toNat < 0x10000 ∧ escape c = codeUnit c.toNat) ∨
    (0x10000 ≤ c.toNat ∧ c.toNat < 0x110000 ∧
      escape c = codeUnit (0xd800 + (c.toNat - 0x10000) / 0x400) ++
        codeUnit (0xdc00 + (c.toNat - 0x10000) % 0x400)) := by
  have hv := toNat_scalar c
  unfold escape
  split
  · rename_i e he
    exact Or.inl ⟨e, he, rfl⟩
  · rename_i hnone
    obtain ⟨hb, hq⟩ := shortEscape_none hnone
    split_ifs with h1 h2
    · exact Or.inr (Or.inl ⟨hb, hq, rfl⟩)
    · exact Or.inr (Or.inr (Or.inl ⟨by omega, h2, rfl⟩))
    · exact Or.inr (Or.inr (Or.inr ⟨by omega, by omega, rfl⟩))

theorem char_eq {c d : Char} (h : c.toNat = d.toNat) : c = d :=
  Char.ext (UInt32.toNat_inj.mp h)

/-- An escaped character is read off the front of a text in one way. -/
theorem escape_cancel {c d : Char} {r r' : List Char} (h : escape c ++ r = escape d ++ r') :
    c = d ∧ r = r' := by
  rcases escape_cases c with ⟨e, hc, ec⟩ | ⟨hcb, -, ec⟩ | ⟨hcs, hcl, ec⟩ | ⟨hcl, hcu, ec⟩ <;>
  rcases escape_cases d with ⟨f, hd, ed⟩ | ⟨hdb, -, ed⟩ | ⟨hds, hdl, ed⟩ | ⟨hdl, hdu, ed⟩ <;>
  rw [ec, ed] at h
  · simp only [List.cons_append, List.nil_append, List.cons.injEq, true_and] at h
    obtain ⟨rfl, hr⟩ := h
    exact ⟨shortEscape_inj hc hd, hr⟩
  · simp only [List.cons_append, List.cons.injEq] at h
    exact absurd h.1.symm hdb
  · simp only [codeUnit, List.cons_append, List.cons.injEq, true_and] at h
    exact absurd h.1 (shortEscape_ne_u hc)
  · simp only [codeUnit, List.cons_append, List.cons.injEq, true_and] at h
    exact absurd h.1 (shortEscape_ne_u hc)
  · simp only [List.cons_append, List.cons.injEq] at h
    exact absurd h.1 hcb
  · simpa using h
  · simp only [codeUnit, List.cons_append, List.cons.injEq] at h
    exact absurd h.1 hcb
  · simp only [codeUnit, List.cons_append, List.cons.injEq] at h
    exact absurd h.1 hcb
  · simp only [codeUnit, List.cons_append, List.cons.injEq, true_and] at h
    exact absurd h.1.symm (shortEscape_ne_u hd)
  · simp only [codeUnit, List.cons_append, List.cons.injEq] at h
    exact absurd h.1.symm hdb
  · obtain ⟨hn, hr⟩ := codeUnit_cancel (by omega) (by omega) h
    exact ⟨char_eq hn, hr⟩
  · rw [List.append_assoc] at h
    have := (codeUnit_cancel (by omega) (by omega) h).1
    omega
  · simp only [codeUnit, List.cons_append, List.cons.injEq, true_and] at h
    exact absurd h.1.symm (shortEscape_ne_u hd)
  · simp only [codeUnit, List.cons_append, List.cons.injEq] at h
    exact absurd h.1.symm hdb
  · rw [List.append_assoc] at h
    have := (codeUnit_cancel (by omega) (by omega) h).1
    omega
  · rw [List.append_assoc, List.append_assoc] at h
    obtain ⟨hn, h⟩ := codeUnit_cancel (by omega) (by omega) h
    obtain ⟨hm, hr⟩ := codeUnit_cancel (by omega) (by omega) h
    exact ⟨char_eq (by omega), hr⟩

/-- An escaped character does not begin with the closing quote. -/
theorem escape_ne_quote (c : Char) {r r' : List Char} : escape c ++ r ≠ '"' :: r' := by
  intro h
  rcases escape_cases c with ⟨e, hc, ec⟩ | ⟨-, hq, ec⟩ | ⟨-, -, ec⟩ | ⟨-, -, ec⟩ <;>
    simp only [ec, codeUnit, List.cons_append, List.cons.injEq] at h
  · exact absurd h.1 (by decide)
  · exact hq h.1
  · exact absurd h.1 (by decide)
  · exact absurd h.1 (by decide)

theorem quoted_cancel {cs ds r r' : List Char} (h : quoted cs ++ r = quoted ds ++ r') :
    cs = ds ∧ r = r' := by
  induction cs generalizing ds with
  | nil =>
    cases ds with
    | nil => simpa [quoted] using h
    | cons d ds =>
      simp only [quoted, List.append_assoc] at h
      exact absurd h.symm (escape_ne_quote d)
  | cons c cs ih =>
    cases ds with
    | nil =>
      simp only [quoted, List.append_assoc] at h
      exact absurd h (escape_ne_quote c)
    | cons d ds =>
      simp only [quoted, List.append_assoc] at h
      obtain ⟨rfl, hrest⟩ := escape_cancel h
      obtain ⟨rfl, hr⟩ := ih hrest
      exact ⟨rfl, hr⟩

/-! ## Numbers -/

def numeral : Int → List Char
  | .ofNat n => Nat.toDigits 10 n
  | .negSucc n => '-' :: Nat.toDigits 10 (n + 1)

/-- The rest of the text after a number does not begin with a digit. -/
def Delim (r : List Char) : Prop := ∀ c, r.head? = some c → c.isDigit = false

theorem digits_cancel {ds es r r' : List Char} (hd : ∀ c ∈ ds, c.isDigit = true)
    (he : ∀ c ∈ es, c.isDigit = true) (hr : Delim r) (hr' : Delim r')
    (h : ds ++ r = es ++ r') : ds = es ∧ r = r' := by
  induction ds generalizing es with
  | nil =>
    cases es with
    | nil => simpa using h
    | cons e es =>
      rw [List.nil_append, List.cons_append] at h
      have h1 := hr e (by simp [h])
      rw [he e List.mem_cons_self] at h1
      cases h1
  | cons d ds ih =>
    cases es with
    | nil =>
      rw [List.nil_append, List.cons_append] at h
      have h1 := hr' d (by simp [← h])
      rw [hd d List.mem_cons_self] at h1
      cases h1
    | cons e es =>
      simp only [List.cons_append, List.cons.injEq] at h
      obtain ⟨rfl, hrest⟩ := h
      obtain ⟨rfl, hr⟩ := ih (fun c hc => hd c (List.mem_cons_of_mem _ hc))
        (fun c hc => he c (List.mem_cons_of_mem _ hc)) hrest
      exact ⟨rfl, hr⟩

theorem toDigits_inj {m n : Nat} (h : Nat.toDigits 10 m = Nat.toDigits 10 n) : m = n := by
  rw [← Nat.ofDigitChars_ten_toDigits (n := m), h, Nat.ofDigitChars_ten_toDigits]

theorem isDigit_toDigits {n : Nat} : ∀ c ∈ Nat.toDigits 10 n, c.isDigit = true :=
  fun _ hc => Nat.isDigit_of_mem_toDigits (by decide) (by decide) hc

/-- A number begins with a digit or a minus sign. -/
theorem numeral_head (n : Int) :
    ∃ c cs, numeral n = c :: cs ∧ (c = '-' ∨ c.isDigit = true) := by
  cases n with
  | ofNat n =>
    cases hd : Nat.toDigits 10 n with
    | nil => exact absurd hd Nat.toDigits_ne_nil
    | cons c cs =>
      exact ⟨c, cs, hd, Or.inr (isDigit_toDigits (n := n) c (by simp [hd]))⟩
  | negSucc n => exact ⟨'-', _, rfl, Or.inl rfl⟩

theorem numeral_cancel {m n : Int} {r r' : List Char} (hr : Delim r) (hr' : Delim r')
    (h : numeral m ++ r = numeral n ++ r') : m = n ∧ r = r' := by
  have hminus : ∀ {k : Nat} {t t' : List Char}, Nat.toDigits 10 k ++ t ≠ '-' :: t' := by
    intro k t t' hk
    cases hd : Nat.toDigits 10 k with
    | nil => exact absurd hd Nat.toDigits_ne_nil
    | cons c cs =>
      rw [hd, List.cons_append, List.cons.injEq] at hk
      have := isDigit_toDigits (n := k) c (by simp [hd])
      rw [hk.1] at this
      exact absurd this (by decide)
  cases m with
  | ofNat m =>
    cases n with
    | ofNat n =>
      obtain ⟨hd, hrr⟩ := digits_cancel isDigit_toDigits isDigit_toDigits hr hr' h
      exact ⟨by rw [toDigits_inj hd], hrr⟩
    | negSucc n => exact absurd h hminus
  | negSucc m =>
    cases n with
    | ofNat n => exact absurd h.symm hminus
    | negSucc n =>
      simp only [numeral, List.cons_append, List.cons.injEq, true_and] at h
      obtain ⟨hd, hrr⟩ := digits_cancel isDigit_toDigits isDigit_toDigits hr hr' h
      have := toDigits_inj hd
      exact ⟨by rw [show m = n by omega], hrr⟩

/-! ## Documents -/

mutual

/-- The compact ASCII text of a document. -/
def dumps : Json → List Char
  | .null => ['n', 'u', 'l', 'l']
  | .bool true => ['t', 'r', 'u', 'e']
  | .bool false => ['f', 'a', 'l', 's', 'e']
  | .num n => numeral n
  | .str s => '"' :: quoted s.toList
  | .arr [] => ['[', ']']
  | .arr (x :: xs) => '[' :: (dumps x ++ more xs)
  | .obj [] => ['{', '}']
  | .obj ((k, x) :: fs) => '{' :: '"' :: (quoted k.toList ++ ':' :: (dumps x ++ moreFields fs))

/-- The items of an array after the first, and the closing bracket. -/
def more : List Json → List Char
  | [] => [']']
  | x :: xs => ',' :: (dumps x ++ more xs)

/-- The fields of an object after the first, and the closing brace. -/
def moreFields : List (String × Json) → List Char
  | [] => ['}']
  | (k, x) :: fs => ',' :: '"' :: (quoted k.toList ++ ':' :: (dumps x ++ moreFields fs))

end

theorem delim_more (xs : List Json) (r : List Char) : Delim (more xs ++ r) := by
  cases xs <;> simp [more, Delim]

theorem delim_moreFields (fs : List (String × Json)) (r : List Char) :
    Delim (moreFields fs ++ r) := by
  rcases fs with _ | ⟨⟨k, x⟩, fs⟩ <;> simp [moreFields, Delim]

/-- What the first character of a text tells about the document. -/
inductive Kind
  | null
  | true
  | false
  | num
  | str
  | arr
  | obj

def kind : Json → Kind
  | .null => .null
  | .bool true => .true
  | .bool false => .false
  | .num _ => .num
  | .str _ => .str
  | .arr _ => .arr
  | .obj _ => .obj

/-- The characters that the text of a document of this kind begins with. -/
def Kind.Leads : Kind → Char → Prop
  | .null, c => c = 'n'
  | .true, c => c = 't'
  | .false, c => c = 'f'
  | .num, c => c = '-' ∨ c.isDigit = Bool.true
  | .str, c => c = '"'
  | .arr, c => c = '['
  | .obj, c => c = '{'

theorem dumps_lead (x : Json) : ∃ c cs, dumps x = c :: cs ∧ x.kind.Leads c := by
  match x with
  | .null => exact ⟨_, _, by rw [dumps], rfl⟩
  | .bool true => exact ⟨_, _, by rw [dumps], rfl⟩
  | .bool false => exact ⟨_, _, by rw [dumps], rfl⟩
  | .num n =>
    obtain ⟨c, cs, hn, hc⟩ := numeral_head n
    exact ⟨c, cs, by rw [dumps, hn], hc⟩
  | .str s => exact ⟨_, _, by rw [dumps], rfl⟩
  | .arr [] => exact ⟨_, _, by rw [dumps], rfl⟩
  | .arr (x :: xs) => exact ⟨_, _, by rw [dumps], rfl⟩
  | .obj [] => exact ⟨_, _, by rw [dumps], rfl⟩
  | .obj ((k, x) :: fs) => exact ⟨_, _, by rw [dumps], rfl⟩

theorem Kind.leads_inj {k l : Kind} {c : Char} (hk : k.Leads c) (hl : l.Leads c) : k = l := by
  have hdigit : ∀ {d : Char}, d.isDigit = Bool.false → d ≠ '-' → ¬ Kind.num.Leads d := by
    rintro d hd hm (h | h)
    · exact hm h
    · rw [hd] at h
      cases h
  cases k <;> cases l <;> first
    | rfl
    | (simp only [Kind.Leads] at hk hl; rw [hk] at hl; exact absurd hl (by decide))
    | (cases hl; exact absurd hk (hdigit (by decide) (by decide)))

theorem kind_eq {x y : Json} {r r' : List Char} (h : dumps x ++ r = dumps y ++ r') :
    x.kind = y.kind := by
  obtain ⟨c, cs, hx, hc⟩ := dumps_lead x
  obtain ⟨d, ds, hy, hd⟩ := dumps_lead y
  rw [hx, hy, List.cons_append, List.cons_append, List.cons.injEq] at h
  rw [h.1] at hc
  exact Kind.leads_inj hc hd

theorem dumps_ne_close {x : Json} {d : Char} {r r' : List Char} (hd : d = ']' ∨ d = '}') :
    dumps x ++ r ≠ d :: r' := by
  intro h
  obtain ⟨c, cs, hx, hc⟩ := dumps_lead x
  rw [hx, List.cons_append, List.cons.injEq] at h
  rw [h.1] at hc
  rcases hd with rfl | rfl <;> cases hk : x.kind <;> rw [hk] at hc <;>
    exact absurd hc (by simp [Kind.Leads])

mutual

/-- A document is read off the front of a text in one way. -/
theorem dumps_cancel : ∀ (x y : Json) {r r' : List Char}, Delim r → Delim r' →
    dumps x ++ r = dumps y ++ r' → x = y ∧ r = r'
  | .null, y, r, r', _, _, h => by
    have hk := kind_eq h
    rcases y with _ | ⟨_ | _⟩ | _ | _ | _ | _ <;> cases hk
    simpa [dumps] using h
  | .bool true, y, r, r', _, _, h => by
    have hk := kind_eq h
    rcases y with _ | ⟨_ | _⟩ | _ | _ | _ | _ <;> cases hk
    simpa [dumps] using h
  | .bool false, y, r, r', _, _, h => by
    have hk := kind_eq h
    rcases y with _ | ⟨_ | _⟩ | _ | _ | _ | _ <;> cases hk
    simpa [dumps] using h
  | .num m, y, r, r', hr, hr', h => by
    have hk := kind_eq h
    rcases y with _ | ⟨_ | _⟩ | n | _ | _ | _ <;> cases hk
    rw [dumps, dumps] at h
    obtain ⟨rfl, hrest⟩ := numeral_cancel hr hr' h
    exact ⟨rfl, hrest⟩
  | .str s, y, r, r', _, _, h => by
    have hk := kind_eq h
    rcases y with _ | ⟨_ | _⟩ | _ | t | _ | _ <;> cases hk
    simp only [dumps, List.cons_append, List.cons.injEq, true_and] at h
    obtain ⟨hs, hrest⟩ := quoted_cancel h
    exact ⟨by rw [String.toList_inj.mp hs], hrest⟩
  | .arr [], y, r, r', _, _, h => by
    have hk := kind_eq h
    rcases y with _ | ⟨_ | _⟩ | _ | _ | ⟨_ | ⟨y, ys⟩⟩ | _ <;> cases hk
    · simpa [dumps] using h
    · simp only [dumps, List.cons_append, List.append_assoc, List.cons.injEq, true_and] at h
      exact absurd h.symm (dumps_ne_close (Or.inl rfl))
  | .arr (x :: xs), y, r, r', _, _, h => by
    have hk := kind_eq h
    rcases y with _ | ⟨_ | _⟩ | _ | _ | ⟨_ | ⟨y, ys⟩⟩ | _ <;> cases hk
    · simp only [dumps, List.cons_append, List.append_assoc, List.cons.injEq, true_and] at h
      exact absurd h (dumps_ne_close (Or.inl rfl))
    · simp only [dumps, List.cons_append, List.append_assoc, List.cons.injEq, true_and] at h
      obtain ⟨rfl, hrest⟩ := dumps_cancel x y (delim_more _ _) (delim_more _ _) h
      obtain ⟨rfl, hend⟩ := more_cancel xs ys hrest
      exact ⟨rfl, hend⟩
  | .obj [], y, r, r', _, _, h => by
    have hk := kind_eq h
    rcases y with _ | ⟨_ | _⟩ | _ | _ | _ | ⟨_ | ⟨⟨l, y⟩, gs⟩⟩ <;> cases hk
    · simpa [dumps] using h
    · simp [dumps] at h
  | .obj ((k, x) :: fs), y, r, r', _, _, h => by
    have hk := kind_eq h
    rcases y with _ | ⟨_ | _⟩ | _ | _ | _ | ⟨_ | ⟨⟨l, y⟩, gs⟩⟩ <;> cases hk
    · simp [dumps] at h
    · simp only [dumps, List.cons_append, List.append_assoc, List.cons.injEq, true_and] at h
      obtain ⟨hkey, hvalue⟩ := quoted_cancel h
      simp only [List.cons.injEq, true_and] at hvalue
      obtain ⟨rfl, hrest⟩ := dumps_cancel x y (delim_moreFields _ _) (delim_moreFields _ _) hvalue
      obtain ⟨rfl, hend⟩ := moreFields_cancel fs gs hrest
      exact ⟨by rw [String.toList_inj.mp hkey], hend⟩

theorem more_cancel : ∀ (xs ys : List Json) {r r' : List Char},
    more xs ++ r = more ys ++ r' → xs = ys ∧ r = r'
  | [], [], r, r', h => by simpa [more] using h
  | [], y :: ys, r, r', h => by simp [more] at h
  | x :: xs, [], r, r', h => by simp [more] at h
  | x :: xs, y :: ys, r, r', h => by
    simp only [more, List.cons_append, List.append_assoc, List.cons.injEq, true_and] at h
    obtain ⟨rfl, hrest⟩ := dumps_cancel x y (delim_more _ _) (delim_more _ _) h
    obtain ⟨rfl, hend⟩ := more_cancel xs ys hrest
    exact ⟨rfl, hend⟩

theorem moreFields_cancel : ∀ (fs gs : List (String × Json)) {r r' : List Char},
    moreFields fs ++ r = moreFields gs ++ r' → fs = gs ∧ r = r'
  | [], [], r, r', h => by simpa [moreFields] using h
  | [], (l, y) :: gs, r, r', h => by simp [moreFields] at h
  | (k, x) :: fs, [], r, r', h => by simp [moreFields] at h
  | (k, x) :: fs, (l, y) :: gs, r, r', h => by
    simp only [moreFields, List.cons_append, List.append_assoc, List.cons.injEq, true_and] at h
    obtain ⟨hkey, hvalue⟩ := quoted_cancel h
    simp only [List.cons.injEq, true_and] at hvalue
    obtain ⟨rfl, hrest⟩ := dumps_cancel x y (delim_moreFields _ _) (delim_moreFields _ _) hvalue
    obtain ⟨rfl, hend⟩ := moreFields_cancel fs gs hrest
    exact ⟨by rw [String.toList_inj.mp hkey], hend⟩

end

/-- **The text determines the document.** -/
theorem dumps_injective {x y : Json} (h : dumps x = dumps y) : x = y :=
  (@dumps_cancel x y [] [] (by simp [Delim]) (by simp [Delim]) (by rw [h])).1

/-! ## The canonical text -/

/-- Put a field in front of the first field with a larger key. -/
def insertField (k : String) (x : Json) : List (String × Json) → List (String × Json)
  | [] => [(k, x)]
  | (l, y) :: fs => if k < l then (k, x) :: (l, y) :: fs else (l, y) :: insertField k x fs

mutual

/-- The document with the fields of every object in the order of their keys. -/
def sortKeys : Json → Json
  | .arr items => .arr (sortItems items)
  | .obj fields => .obj (sortFields fields)
  | x => x

def sortItems : List Json → List Json
  | [] => []
  | x :: xs => sortKeys x :: sortItems xs

def sortFields : List (String × Json) → List (String × Json)
  | [] => []
  | (k, x) :: fs => insertField k (sortKeys x) (sortFields fs)

end

/-- The canonical text of a document. -/
def canonical (x : Json) : String := String.ofList (dumps (sortKeys x))

theorem sortKeys_eq_of_canonical {x y : Json} (h : canonical x = canonical y) :
    sortKeys x = sortKeys y := by
  refine dumps_injective ?_
  have hl := congrArg String.toList h
  simpa [canonical] using hl

end Json
