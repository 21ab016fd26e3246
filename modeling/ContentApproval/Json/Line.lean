import ContentApproval.Json.Canonical

/-!
# The text of a document on a line

`Json.line` is the ASCII text of a document with a blank after each comma and colon, as
`json.dumps` writes it by default. Without the blanks outside its strings it is the compact
text (`unspace_line`), so the line determines the document too (`line_injective`). All its
characters are printable ASCII (`line_printable`).
-/

namespace Json

mutual

/-- The text with a blank after each comma and each colon. -/
def line : Json → List Char
  | .null => dumps .null
  | .bool b => dumps (.bool b)
  | .num n => dumps (.num n)
  | .str s => dumps (.str s)
  | .arr [] => dumps (.arr [])
  | .arr (x :: xs) => '[' :: (line x ++ moreLine xs)
  | .obj [] => dumps (.obj [])
  | .obj ((k, x) :: fs) => '{' :: '"' :: (quoted k.toList ++ ':' :: ' ' :: (line x ++ moreFieldsLine fs))

def moreLine : List Json → List Char
  | [] => [']']
  | x :: xs => ',' :: ' ' :: (line x ++ moreLine xs)

def moreFieldsLine : List (String × Json) → List Char
  | [] => ['}']
  | (k, x) :: fs => ',' :: ' ' :: '"' ::
    (quoted k.toList ++ ':' :: ' ' :: (line x ++ moreFieldsLine fs))

end

/-- Where a text is being read: outside of its strings, in one, or after a backslash. -/
inductive Place
  | outside
  | inString
  | escaped

/-- The text without the blanks outside of its strings. -/
def unspace : Place → List Char → List Char
  | _, [] => []
  | .outside, c :: cs =>
    if c = ' ' then unspace .outside cs
    else c :: unspace (if c = '"' then .inString else .outside) cs
  | .inString, c :: cs =>
    c :: unspace (if c = '\\' then .escaped else if c = '"' then .outside else .inString) cs
  | .escaped, c :: cs => c :: unspace .inString cs

section Unspace

variable (c : Char) (cs : List Char)

theorem unspace_outside : unspace .outside (c :: cs) =
    if c = ' ' then unspace .outside cs
    else c :: unspace (if c = '"' then .inString else .outside) cs := rfl

theorem unspace_inString : unspace .inString (c :: cs) =
    c :: unspace (if c = '\\' then .escaped else if c = '"' then .outside else .inString) cs := rfl

theorem unspace_escaped : unspace .escaped (c :: cs) = c :: unspace .inString cs := rfl

end Unspace

/-! ## Strings -/

theorem unspace_plain {cs r : List Char} (h : ∀ c ∈ cs, c ≠ '\\' ∧ c ≠ '"') :
    unspace .inString (cs ++ r) = cs ++ unspace .inString r := by
  induction cs with
  | nil => rfl
  | cons c cs ih =>
    obtain ⟨hb, hq⟩ := h c List.mem_cons_self
    rw [List.cons_append, unspace_inString, if_neg hb, if_neg hq, List.cons_append,
      ih fun d hd => h d (List.mem_cons_of_mem _ hd)]

theorem hex4_plain (n : Nat) : ∀ c ∈ hex4 n, c ≠ '\\' ∧ c ≠ '"' := by
  have hdigit : ∀ d < 16, Nat.digitChar d ≠ '\\' ∧ Nat.digitChar d ≠ '"' := by decide
  intro c hc
  simp only [hex4, List.mem_cons, List.not_mem_nil, or_false] at hc
  rcases hc with rfl | rfl | rfl | rfl <;> exact hdigit _ (Nat.mod_lt _ (by decide))

theorem unspace_codeUnit (n : Nat) (r : List Char) :
    unspace .inString (codeUnit n ++ r) = codeUnit n ++ unspace .inString r := by
  have htail := unspace_plain (r := r) (hex4_plain n)
  simp only [codeUnit, List.cons_append, unspace_inString, unspace_escaped, if_true, htail]

theorem unspace_escape (c : Char) (r : List Char) :
    unspace .inString (escape c ++ r) = escape c ++ unspace .inString r := by
  rcases escape_cases c with ⟨e, -, ec⟩ | ⟨hb, hq, ec⟩ | ⟨-, -, ec⟩ | ⟨-, -, ec⟩ <;> rw [ec]
  · simp only [List.cons_append, List.nil_append, unspace_inString, unspace_escaped, if_true]
  · exact unspace_plain (by simp [hb, hq])
  · exact unspace_codeUnit _ _
  · rw [List.append_assoc, unspace_codeUnit, unspace_codeUnit, List.append_assoc]

/-- Nothing of a string is taken out. -/
theorem unspace_quoted (s : List Char) (r : List Char) :
    unspace .inString (quoted s ++ r) = quoted s ++ unspace .outside r := by
  induction s with
  | nil =>
    rw [quoted, List.singleton_append, unspace_inString, if_neg (by decide), if_pos rfl]
    rfl
  | cons c s ih => rw [quoted, List.append_assoc, unspace_escape, ih, List.append_assoc]

/-! ## Documents -/

theorem unspace_token {cs r : List Char} (h : ∀ c ∈ cs, c ≠ ' ' ∧ c ≠ '"') :
    unspace .outside (cs ++ r) = cs ++ unspace .outside r := by
  induction cs with
  | nil => rfl
  | cons c cs ih =>
    obtain ⟨hs, hq⟩ := h c List.mem_cons_self
    rw [List.cons_append, unspace_outside, if_neg hs, if_neg hq, List.cons_append,
      ih fun d hd => h d (List.mem_cons_of_mem _ hd)]

theorem numeral_token (n : Int) : ∀ c ∈ numeral n, c ≠ ' ' ∧ c ≠ '"' := by
  have hdigits : ∀ m, ∀ c ∈ Nat.toDigits 10 m, c ≠ ' ' ∧ c ≠ '"' := by
    intro m c hc
    have hdigit := isDigit_toDigits c hc
    constructor <;> rintro rfl <;> exact absurd hdigit (by decide)
  cases n with
  | ofNat m => exact hdigits m
  | negSucc m =>
    intro c hc
    rcases List.mem_cons.mp hc with rfl | hc
    · decide
    · exact hdigits _ c hc

/-- A punctuation mark stays. -/
theorem unspace_mark {c : Char} (hs : c ≠ ' ') (hq : c ≠ '"') (r : List Char) :
    unspace .outside (c :: r) = c :: unspace .outside r := by
  rw [unspace_outside, if_neg hs, if_neg hq]

theorem unspace_blank (r : List Char) : unspace .outside (' ' :: r) = unspace .outside r := by
  rw [unspace_outside, if_pos rfl]

theorem unspace_string (s r : List Char) :
    unspace .outside ('"' :: (quoted s ++ r)) = '"' :: (quoted s ++ unspace .outside r) := by
  rw [unspace_outside, if_neg (by decide), if_pos rfl, unspace_quoted]

mutual

/-- The line without its blanks is the compact text. -/
theorem unspace_line : ∀ (x : Json) (r : List Char),
    unspace .outside (line x ++ r) = dumps x ++ unspace .outside r
  | .null, r | .bool true, r | .bool false, r | .arr [], r | .obj [], r => by
    rw [line, dumps]
    exact unspace_token (by simp)
  | .num n, r => by
    rw [line, dumps]
    exact unspace_token (numeral_token n)
  | .str s, r => by
    rw [line, dumps, List.cons_append, unspace_string, List.cons_append]
  | .arr (x :: xs), r => by
    rw [line, dumps, List.cons_append, List.append_assoc, unspace_mark (by decide) (by decide),
      unspace_line x, unspace_moreLine xs, List.cons_append, List.append_assoc]
  | .obj ((k, x) :: fs), r => by
    simp only [line, dumps, List.cons_append, List.append_assoc]
    rw [unspace_mark (by decide) (by decide), unspace_string, unspace_mark (by decide) (by decide),
      unspace_blank, unspace_line x, unspace_moreFieldsLine fs]

theorem unspace_moreLine : ∀ (xs : List Json) (r : List Char),
    unspace .outside (moreLine xs ++ r) = more xs ++ unspace .outside r
  | [], r => by
    rw [moreLine, more]
    exact unspace_token (by simp)
  | x :: xs, r => by
    simp only [moreLine, more, List.cons_append, List.append_assoc]
    rw [unspace_mark (by decide) (by decide), unspace_blank, unspace_line x, unspace_moreLine xs]

theorem unspace_moreFieldsLine : ∀ (fs : List (String × Json)) (r : List Char),
    unspace .outside (moreFieldsLine fs ++ r) = moreFields fs ++ unspace .outside r
  | [], r => by
    rw [moreFieldsLine, moreFields]
    exact unspace_token (by simp)
  | (k, x) :: fs, r => by
    simp only [moreFieldsLine, moreFields, List.cons_append, List.append_assoc]
    rw [unspace_mark (by decide) (by decide), unspace_blank, unspace_string,
      unspace_mark (by decide) (by decide), unspace_blank, unspace_line x, unspace_moreFieldsLine fs]

end

/-- **The line determines the document.** -/
theorem line_injective {x y : Json} (h : line x = line y) : x = y := by
  refine dumps_injective ?_
  have hx := unspace_line x []
  have hy := unspace_line y []
  rw [h] at hx
  simpa using hx.symm.trans hy

/-! ## The characters of a line -/

def Printable (c : Char) : Prop := 0x20 ≤ c.toNat ∧ c.toNat ≤ 0x7e

instance : DecidablePred Printable := fun _ => inferInstanceAs (Decidable (_ ∧ _))

theorem codeUnit_printable (n : Nat) : ∀ c ∈ codeUnit n, Printable c := by
  have hdigit : ∀ d < 16, Printable (Nat.digitChar d) := by decide
  have hmark : Printable '\\' ∧ Printable 'u' := by decide
  simp only [codeUnit, hex4, List.forall_mem_cons]
  exact ⟨hmark.1, hmark.2, hdigit _ (Nat.mod_lt _ (by decide)), hdigit _ (Nat.mod_lt _ (by decide)),
    hdigit _ (Nat.mod_lt _ (by decide)), hdigit _ (Nat.mod_lt _ (by decide)), by simp⟩

theorem escape_printable (c : Char) : ∀ d ∈ escape c, Printable d := by
  unfold escape
  split
  · rename_i e he
    have hletter : Printable '\\' ∧ Printable e := by
      unfold shortEscape at he
      split_ifs at he <;> cases he <;> decide
    simpa using hletter
  · split_ifs with hplain hunit
    · simpa [Printable] using hplain
    · exact codeUnit_printable _
    · exact List.forall_mem_append.mpr ⟨codeUnit_printable _, codeUnit_printable _⟩

theorem quoted_printable (cs : List Char) : ∀ d ∈ quoted cs, Printable d := by
  induction cs with
  | nil =>
    have hquote : Printable '"' := by decide
    simpa [quoted] using hquote
  | cons c cs ih => exact List.forall_mem_append.mpr ⟨escape_printable c, ih⟩

theorem numeral_printable (n : Int) : ∀ d ∈ numeral n, Printable d := by
  have hdigits : ∀ m, ∀ d ∈ Nat.toDigits 10 m, Printable d := by
    intro m d hd
    have hdigit := isDigit_toDigits d hd
    simp only [Char.isDigit, Bool.and_eq_true, decide_eq_true_eq, ge_iff_le,
      UInt32.le_iff_toNat_le] at hdigit
    change 48 ≤ d.toNat ∧ d.toNat ≤ 57 at hdigit
    unfold Printable
    omega
  cases n with
  | ofNat m => exact hdigits m
  | negSucc m =>
    have hminus : Printable '-' := by decide
    exact List.forall_mem_cons.mpr ⟨hminus, hdigits _⟩

/-- A text of which each character is seen to be printable. -/
theorem printable_of_all {cs : List Char} (h : cs.all (fun c => decide (Printable c)) = true) :
    ∀ c ∈ cs, Printable c := by
  intro c hc
  exact of_decide_eq_true (List.all_eq_true.mp h c hc)

mutual

theorem line_printable : ∀ (x : Json), ∀ c ∈ line x, Printable c
  | .null | .bool true | .bool false | .arr [] | .obj [] => by
    rw [line, dumps]
    exact printable_of_all rfl
  | .num n => by
    rw [line, dumps]
    exact numeral_printable n
  | .str s => by
    rw [line, dumps]
    exact List.forall_mem_cons.mpr ⟨by decide, quoted_printable _⟩
  | .arr (x :: xs) => by
    rw [line, List.forall_mem_cons, List.forall_mem_append]
    exact ⟨by decide, line_printable x, moreLine_printable xs⟩
  | .obj ((k, x) :: fs) => by
    rw [line]
    simp only [List.forall_mem_cons, List.forall_mem_append]
    exact ⟨by decide, by decide, quoted_printable _, by decide, by decide, line_printable x,
      moreFieldsLine_printable fs⟩

theorem moreLine_printable : ∀ (xs : List Json), ∀ c ∈ moreLine xs, Printable c
  | [] => by
    rw [moreLine]
    exact printable_of_all rfl
  | x :: xs => by
    rw [moreLine]
    simp only [List.forall_mem_cons, List.forall_mem_append]
    exact ⟨by decide, by decide, line_printable x, moreLine_printable xs⟩

theorem moreFieldsLine_printable : ∀ (fs : List (String × Json)), ∀ c ∈ moreFieldsLine fs, Printable c
  | [] => by
    rw [moreFieldsLine]
    exact printable_of_all rfl
  | (k, x) :: fs => by
    rw [moreFieldsLine]
    simp only [List.forall_mem_cons, List.forall_mem_append]
    exact ⟨by decide, by decide, by decide, quoted_printable _, by decide, by decide,
      line_printable x, moreFieldsLine_printable fs⟩

end

end Json
