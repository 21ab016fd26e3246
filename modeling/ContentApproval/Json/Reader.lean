import ContentApproval.Encoding.Unicode

/-!
# Python's JSON reader

`loads` is `json.loads` of bytes: the encoding is guessed, and the text is read by the
scanner of the standard library, which also takes `NaN` and the infinities and lets
surrogates stand alone. `room` is the number of containers that the interpreter lets it
open inside each other before it raises `RecursionError`; what `float` makes of a number
with a fraction or an exponent is a parameter.

Every scanner gives what it has read and the rest of the text. `scanOnce_length` says that
something was read, so the loops over items and members, which count down from the length of
the text, never run out.
-/

namespace Json.Reader

open PyStr

/-! ## Exceptions -/

/-- What `json.loads` raises. -/
inductive LoadsError
  | unicodeDecodeError
  | jsonDecodeError
  /-- `int` of a text with too many digits. -/
  | valueError
  | recursionError
  deriving DecidableEq

section Except

variable {ε α β : Type} {x : Except ε α}

theorem map_eq_ok {f : α → β} {b : β} : x.map f = .ok b ↔ ∃ a, x = .ok a ∧ f a = b := by
  cases x <;> simp [Except.map]

theorem map_eq_error {f : α → β} {e : ε} : x.map f = .error e ↔ x = .error e := by
  cases x <;> simp [Except.map]

theorem bind_eq_ok {f : α → Except ε β} {b : β} :
    x.bind f = .ok b ↔ ∃ a, x = .ok a ∧ f a = .ok b := by
  cases x <;> simp [Except.bind]

theorem bind_eq_error {f : α → Except ε β} {e : ε} :
    x.bind f = .error e ↔ x = .error e ∨ ∃ a, x = .ok a ∧ f a = .error e := by
  cases x <;> simp [Except.bind]

end Except

/-- What was read, and the rest of the text. -/
abbrev Read (α : Type) := Except LoadsError (α × PyStr)

/-! ## Strings -/

def isWhitespace (c : CodePoint) : Bool :=
  c == codePoint ' ' || c == codePoint '\t' || c == codePoint '\n' || c == codePoint '\r'

/-- The text after its leading whitespace. -/
def skip (s : PyStr) : PyStr := s.dropWhile isWhitespace

def hexValue? (c : CodePoint) : Option Nat :=
  if 0x30 ≤ c.val ∧ c.val ≤ 0x39 then some (c.val - 0x30)
  else if 0x41 ≤ c.val ∧ c.val ≤ 0x46 then some (c.val - 0x41 + 10)
  else if 0x61 ≤ c.val ∧ c.val ≤ 0x66 then some (c.val - 0x61 + 10)
  else none

/-- `_decode_uXXXX` -/
def decodeUXXXX : PyStr → Option Nat
  | a :: b :: c :: d :: _ => do
    let w ← hexValue? a
    let x ← hexValue? b
    let y ← hexValue? c
    let z ← hexValue? d
    return ((w * 16 + x) * 16 + y) * 16 + z
  | _ => none

/-- The character of a two-character escape. -/
def backslash (e : CodePoint) : Option CodePoint :=
  if e = codePoint '"' ∨ e = codePoint '\\' ∨ e = codePoint '/' then some e
  else if e = codePoint 'b' then some (codePoint '\x08')
  else if e = codePoint 'f' then some (codePoint '\x0c')
  else if e = codePoint 'n' then some (codePoint '\n')
  else if e = codePoint 'r' then some (codePoint '\r')
  else if e = codePoint 't' then some (codePoint '\t')
  else none

/-- What stands behind a backslash: the code point it means and its length. Two escapes that
are a pair of surrogates mean one code point. -/
def scanEscape : PyStr → Option (CodePoint × Nat)
  | [] => none
  | e :: r =>
    if e = codePoint 'u' then
      (decodeUXXXX r).bind (fun unit =>
        if IsHigh unit ∧ [codePoint '\\', codePoint 'u'].isPrefixOf (r.drop 4) then
          (decodeUXXXX (r.drop 6)).map (fun unit' =>
            if IsLow unit' then (.ofNat 0x110000 (joinSurrogates unit unit'), 11)
            else (.ofNat 0x110000 unit, 5))
        else some (.ofNat 0x110000 unit, 5))
    else (backslash e).map (·, 1)

/-- `scanstring`, after the opening quote and `n` characters that are read already. -/
def scanString : Nat → PyStr → Read PyStr
  | _, [] => .error .jsonDecodeError
  | n + 1, _ :: r => scanString n r
  | 0, c :: r =>
    if c = codePoint '"' then .ok ([], r)
    else if c = codePoint '\\' then
      match scanEscape r with
      | none => .error .jsonDecodeError
      | some (d, n) => (scanString n r).map (fun p => (d :: p.1, p.2))
    else if c.val < 0x20 then .error .jsonDecodeError
    else (scanString 0 r).map (fun p => (c :: p.1, p.2))

/-! ## Numbers and names -/

def isDigit (c : CodePoint) : Bool := 0x30 ≤ c.val && c.val ≤ 0x39

/-- `sys.int_info.default_max_str_digits` -/
def maxStrDigits : Nat := 4300

/-- The value of a text of digits. -/
def digitsValue (ds : PyStr) : Nat := ds.foldl (fun n d => n * 10 + (d.val - 0x30)) 0

/-- The integer part of a number without its sign. -/
def matchInteger : PyStr → Option (PyStr × PyStr)
  | [] => none
  | d :: r =>
    if d = codePoint '0' then some ([d], r)
    else if isDigit d then some (d :: r.takeWhile isDigit, r.dropWhile isDigit)
    else none

/-- The fraction of a number, if there is one. -/
def matchFraction : PyStr → PyStr × PyStr
  | p :: d :: r =>
    if p = codePoint '.' ∧ isDigit d = true then (p :: d :: r.takeWhile isDigit, r.dropWhile isDigit)
    else ([], p :: d :: r)
  | s => ([], s)

/-- The sign of a number or of an exponent. -/
def matchSign (signs : List Char) : PyStr → PyStr × PyStr
  | c :: r => if c ∈ signs.map codePoint then ([c], r) else ([], c :: r)
  | [] => ([], [])

/-- The exponent of a number, if there is one. -/
def matchExponent : PyStr → PyStr × PyStr
  | e :: r =>
    let (sign, s) := matchSign ['+', '-'] r
    if (e = codePoint 'e' ∨ e = codePoint 'E') ∧ s.takeWhile isDigit ≠ [] then
      (e :: (sign ++ s.takeWhile isDigit), s.dropWhile isDigit)
    else ([], e :: r)
  | [] => ([], [])

/-- `_match_number` -/
def matchNumber (float : PyStr → PyFloat) (s : PyStr) : Read PyValue :=
  let (minus, unsigned) := matchSign ['-'] s
  match matchInteger unsigned with
  | none => .error .jsonDecodeError
  | some (digits, r) =>
    let (fraction, r') := matchFraction r
    let (exponent, r'') := matchExponent r'
    if fraction = [] ∧ exponent = [] then
      if maxStrDigits < digits.length then .error .valueError
      else .ok (.int (if minus = [] then digitsValue digits else -digitsValue digits), r)
    else .ok (.float (float (minus ++ digits ++ fraction ++ exponent)), r'')

def names : List (String × PyValue) :=
  [("null", .none), ("true", .bool true), ("false", .bool false), ("NaN", .float .nan),
    ("Infinity", .float .infinity), ("-Infinity", .float .negInfinity)]

/-- A value that is no string and no container. -/
def scanAtom (float : PyStr → PyFloat) (s : PyStr) : Read PyValue :=
  match names.find? (fun name => (ofString name.1).isPrefixOf s) with
  | some name => .ok (name.2, s.drop name.1.length)
  | none => matchNumber float s

/-! ## Containers -/

/-- `d[key] = value` -/
def setEntry (key : PyStr) (value : PyValue) : List (PyStr × PyValue) → List (PyStr × PyValue)
  | [] => [(key, value)]
  | (k, v) :: es => if k = key then (k, value) :: es else (k, v) :: setEntry key value es

/-- The dictionary with the members of an object. -/
def dictOf (members : List (PyStr × PyValue)) : List (PyStr × PyValue) :=
  members.foldl (fun es member => setEntry member.1 member.2 es) []

section Containers

variable (scan : PyStr → Read PyValue)

/-- The items of an array, up to its closing bracket. -/
def scanItems : Nat → PyStr → Read (List PyValue)
  | 0, _ => .error .jsonDecodeError
  | n + 1, s => (scan s).bind (fun (item, r) =>
    match skip r with
    | [] => .error .jsonDecodeError
    | c :: r =>
      if c = codePoint ']' then .ok ([item], r)
      else if c = codePoint ',' then (scanItems n (skip r)).map (fun p => (item :: p.1, p.2))
      else .error .jsonDecodeError)

/-- `JSONArray`, after the opening bracket. -/
def scanArray (s : PyStr) : Read PyValue :=
  match skip s with
  | [] => .error .jsonDecodeError
  | c :: r =>
    if c = codePoint ']' then .ok (.list [], r)
    else (scanItems scan (c :: r).length (c :: r)).map (fun p => (.list p.1, p.2))

/-- The name of a member and the colon. -/
def scanKey : PyStr → Read PyStr
  | [] => .error .jsonDecodeError
  | c :: r =>
    if c = codePoint '"' then (scanString 0 r).bind (fun (key, r) =>
      match skip r with
      | [] => .error .jsonDecodeError
      | c :: r => if c = codePoint ':' then .ok (key, skip r) else .error .jsonDecodeError)
    else .error .jsonDecodeError

/-- The members of an object, up to its closing brace. -/
def scanMembers : Nat → PyStr → Read (List (PyStr × PyValue))
  | 0, _ => .error .jsonDecodeError
  | n + 1, s => (scanKey s).bind (fun (key, r) => (scan r).bind (fun (value, r) =>
    match skip r with
    | [] => .error .jsonDecodeError
    | c :: r =>
      if c = codePoint '}' then .ok ([(key, value)], r)
      else if c = codePoint ',' then
        (scanMembers n (skip r)).map (fun p => ((key, value) :: p.1, p.2))
      else .error .jsonDecodeError))

/-- `JSONObject`, after the opening brace. -/
def scanObject (s : PyStr) : Read PyValue :=
  match skip s with
  | [] => .error .jsonDecodeError
  | c :: r =>
    if c = codePoint '}' then .ok (.dict [], r)
    else (scanMembers scan (c :: r).length (c :: r)).map (fun p => (.dict (dictOf p.1), p.2))

end Containers

/-- A value; `inner` reads what its container holds, if one may be opened. -/
def scanValue (float : PyStr → PyFloat) (inner : Option (PyStr → Read PyValue)) :
    PyStr → Read PyValue
  | [] => .error .jsonDecodeError
  | c :: r =>
    if c = codePoint '"' then (scanString 0 r).map (fun p => (.str p.1, p.2))
    else if c = codePoint '[' then inner.elim (.error .recursionError) (scanArray · r)
    else if c = codePoint '{' then inner.elim (.error .recursionError) (scanObject · r)
    else scanAtom float (c :: r)

/-- `scan_once` -/
def scanOnce (float : PyStr → PyFloat) : Nat → PyStr → Read PyValue
  | 0 => scanValue float none
  | room + 1 => scanValue float (some (scanOnce float room))

/-- `JSONDecoder.decode` -/
def decodeText (float : PyStr → PyFloat) (room : Nat) (text : PyStr) : Except LoadsError PyValue :=
  (scanOnce float room (skip text)).bind (fun (value, r) =>
    if skip r = [] then .ok value else .error .jsonDecodeError)

/-- `json.loads` -/
def loads (float : PyStr → PyFloat) (room : Nat) (bs : List UInt8) : Except LoadsError PyValue :=
  match decode bs (detectEncoding bs) with
  | none => .error .unicodeDecodeError
  | some text => decodeText float room text

/-! ## One step of a loop -/

section Steps

variable {scan : PyStr → Read PyValue} {s r r' key : PyStr} {v : PyValue} {c : CodePoint} {n : Nat}

theorem scanItems_last (hitem : scan s = .ok (v, r)) (h : skip r = codePoint ']' :: r') :
    scanItems scan (n + 1) s = .ok ([v], r') := by
  rw [scanItems, hitem]
  simp only [Except.bind, h, if_true]

theorem scanItems_next (hitem : scan s = .ok (v, r)) (h : skip r = codePoint ',' :: r') :
    scanItems scan (n + 1) s = (scanItems scan n (skip r')).map (fun p => (v :: p.1, p.2)) := by
  rw [scanItems, hitem]
  simp only [Except.bind, h]
  rw [if_neg (by decide)]
  simp only [if_true]

theorem scanMembers_last {t : PyStr} (hkey : scanKey s = .ok (key, t)) (hvalue : scan t = .ok (v, r))
    (h : skip r = codePoint '}' :: r') : scanMembers scan (n + 1) s = .ok ([(key, v)], r') := by
  rw [scanMembers, hkey]
  simp only [Except.bind, hvalue, h, if_true]

theorem scanMembers_next {t : PyStr} (hkey : scanKey s = .ok (key, t)) (hvalue : scan t = .ok (v, r))
    (h : skip r = codePoint ',' :: r') : scanMembers scan (n + 1) s =
      (scanMembers scan n (skip r')).map (fun p => ((key, v) :: p.1, p.2)) := by
  rw [scanMembers, hkey]
  simp only [Except.bind, hvalue, h]
  rw [if_neg (by decide)]
  simp only [if_true]

theorem scanArray_items (h : skip s = c :: r) (hc : c ≠ codePoint ']') : scanArray scan s =
    (scanItems scan (skip s).length (skip s)).map (fun p => (.list p.1, p.2)) := by
  unfold scanArray
  rw [h]
  exact if_neg hc

theorem scanObject_members (h : skip s = c :: r) (hc : c ≠ codePoint '}') : scanObject scan s =
    (scanMembers scan (skip s).length (skip s)).map (fun p => (.dict (dictOf p.1), p.2)) := by
  unfold scanObject
  rw [h]
  exact if_neg hc

end Steps

/-! ## Something is read -/

/-- Every successful run of a scanner leaves less than it was given. -/
def Consumes {α : Type} (scan : PyStr → Read α) : Prop :=
  ∀ {s r : PyStr} {a : α}, scan s = .ok (a, r) → r.length < s.length

theorem length_skip_le (s : PyStr) : (skip s).length ≤ s.length := (List.dropWhile_sublist _).length_le

theorem length_of_skip {s r : PyStr} {c : CodePoint} (h : skip s = c :: r) : r.length < s.length := by
  have hle := length_skip_le s
  rw [h, List.length_cons] at hle
  omega

theorem scanString_length {n : Nat} : Consumes (scanString n) := by
  intro s
  induction s generalizing n with
  | nil =>
    intro r t h
    cases n <;> cases h
  | cons c s ih =>
    intro r t h
    have hlen : (c :: s).length = s.length + 1 := rfl
    cases n with
    | succ n =>
      have := ih h
      omega
    | zero =>
      rw [scanString] at h
      split_ifs at h
      · cases h
        omega
      · split at h
        · cases h
        · obtain ⟨p, hp, hpair⟩ := map_eq_ok.mp h
          obtain rfl := (Prod.mk.inj hpair).2
          have := ih hp
          omega
      · obtain ⟨p, hp, hpair⟩ := map_eq_ok.mp h
        obtain rfl := (Prod.mk.inj hpair).2
        have := ih hp
        omega

theorem matchSign_length (signs : List Char) (s : PyStr) :
    (matchSign signs s).2.length ≤ s.length := by
  unfold matchSign
  split
  · split_ifs
    · exact Nat.le_succ _
    · exact Nat.le_refl _
  · exact Nat.le_refl _

theorem matchInteger_length {s ds r : PyStr} (h : matchInteger s = some (ds, r)) :
    r.length < s.length := by
  cases s with
  | nil => cases h
  | cons d s =>
    have hdrop := (List.dropWhile_sublist isDigit (l := s)).length_le
    rw [matchInteger] at h
    split_ifs at h <;> cases h <;> rw [List.length_cons] <;> omega

theorem matchFraction_length (s : PyStr) : (matchFraction s).2.length ≤ s.length := by
  unfold matchFraction
  split
  · rename_i p d r
    split_ifs
    · have hdrop := (List.dropWhile_sublist isDigit (l := r)).length_le
      simp only [List.length_cons]
      omega
    · exact Nat.le_refl _
  · exact Nat.le_refl _

theorem matchExponent_length (s : PyStr) : (matchExponent s).2.length ≤ s.length := by
  unfold matchExponent
  split
  · rename_i e r
    have hsign := matchSign_length ['+', '-'] r
    have hdrop := (List.dropWhile_sublist isDigit (l := (matchSign ['+', '-'] r).2)).length_le
    dsimp only
    split_ifs
    · dsimp only
      rw [List.length_cons]
      omega
    · exact Nat.le_refl _
  · exact Nat.le_refl _

theorem matchNumber_length (float : PyStr → PyFloat) : Consumes (matchNumber float) := by
  intro s r v h
  unfold matchNumber at h
  have hsign := matchSign_length ['-'] s
  dsimp only at h
  split at h
  · cases h
  · rename_i ds u hint
    have hlen := matchInteger_length hint
    have hfraction := matchFraction_length u
    have hexponent := matchExponent_length (matchFraction u).2
    split_ifs at h <;> cases h <;> omega

theorem names_ne_nil : ∀ name ∈ names, name.1.length ≠ 0 := by
  simp [names]

theorem scanAtom_length (float : PyStr → PyFloat) : Consumes (scanAtom float) := by
  intro s r v h
  unfold scanAtom at h
  split at h
  · rename_i name hname
    cases h
    have hne := names_ne_nil name (List.mem_of_find?_eq_some hname)
    have hfound := List.find?_some hname
    have hstart := (List.isPrefixOf_iff_prefix.mp hfound).length_le
    rw [ofString, List.length_map, String.length_toList] at hstart
    rw [List.length_drop]
    omega
  · exact matchNumber_length float h

section Containers

variable {scan : PyStr → Read PyValue}

theorem scanItems_length (hscan : Consumes scan) (n : Nat) : Consumes (scanItems scan n) := by
  induction n with
  | zero =>
    intro s r vs h
    cases h
  | succ n ih =>
    intro s r vs h
    obtain ⟨⟨item, r₁⟩, hitem, h⟩ := bind_eq_ok.mp h
    have hlen := hscan hitem
    dsimp only at h
    split at h
    · cases h
    · rename_i c r₂ hskip
      have hrest := length_of_skip hskip
      split_ifs at h
      · cases h
        omega
      · obtain ⟨p, hp, hpair⟩ := map_eq_ok.mp h
        obtain rfl := (Prod.mk.inj hpair).2
        have hmore := ih hp
        have hle := length_skip_le r₂
        omega

theorem scanKey_length : Consumes scanKey := by
  intro s r key h
  cases s with
  | nil => cases h
  | cons c s =>
    rw [scanKey] at h
    split_ifs at h
    obtain ⟨⟨name, r₁⟩, hname, h⟩ := bind_eq_ok.mp h
    have hlen := scanString_length hname
    dsimp only at h
    split at h
    · cases h
    · rename_i c' r₂ hskip
      have hrest := length_of_skip hskip
      have hle := length_skip_le r₂
      split_ifs at h
      cases h
      rw [List.length_cons]
      omega

theorem scanMembers_length (hscan : Consumes scan) (n : Nat) : Consumes (scanMembers scan n) := by
  induction n with
  | zero =>
    intro s r vs h
    cases h
  | succ n ih =>
    intro s r vs h
    obtain ⟨⟨key, r₀⟩, hkey, h⟩ := bind_eq_ok.mp h
    obtain ⟨⟨value, r₁⟩, hvalue, h⟩ := bind_eq_ok.mp h
    have hlen := scanKey_length hkey
    have hlen' := hscan hvalue
    dsimp only at h
    split at h
    · cases h
    · rename_i c r₂ hskip
      have hrest := length_of_skip hskip
      split_ifs at h
      · cases h
        omega
      · obtain ⟨p, hp, hpair⟩ := map_eq_ok.mp h
        obtain rfl := (Prod.mk.inj hpair).2
        have hmore := ih hp
        have hle := length_skip_le r₂
        omega

theorem scanArray_length (hscan : Consumes scan) : Consumes (scanArray scan) := by
  intro s r v h
  unfold scanArray at h
  split at h
  · cases h
  · rename_i c r' hskip
    have hle := length_skip_le s
    split_ifs at h
    · cases h
      exact length_of_skip hskip
    · obtain ⟨p, hp, hpair⟩ := map_eq_ok.mp h
      obtain rfl := (Prod.mk.inj hpair).2
      have hitems := scanItems_length hscan _ hp
      rw [← hskip] at hitems
      omega

theorem scanObject_length (hscan : Consumes scan) : Consumes (scanObject scan) := by
  intro s r v h
  unfold scanObject at h
  split at h
  · cases h
  · rename_i c r' hskip
    have hle := length_skip_le s
    split_ifs at h
    · cases h
      exact length_of_skip hskip
    · obtain ⟨p, hp, hpair⟩ := map_eq_ok.mp h
      obtain rfl := (Prod.mk.inj hpair).2
      have hmembers := scanMembers_length hscan _ hp
      rw [← hskip] at hmembers
      omega

end Containers

theorem scanValue_length (float : PyStr → PyFloat) {inner : Option (PyStr → Read PyValue)}
    (hinner : ∀ scan ∈ inner, Consumes scan) : Consumes (scanValue float inner) := by
  intro s r v h
  cases s with
  | nil => cases h
  | cons c s =>
    rw [scanValue] at h
    split_ifs at h
    · obtain ⟨p, hp, hpair⟩ := map_eq_ok.mp h
      obtain rfl := (Prod.mk.inj hpair).2
      exact Nat.lt_succ_of_lt (scanString_length hp)
    · cases inner with
      | none => cases h
      | some scan => exact Nat.lt_succ_of_lt (scanArray_length (hinner scan rfl) h)
    · cases inner with
      | none => cases h
      | some scan => exact Nat.lt_succ_of_lt (scanObject_length (hinner scan rfl) h)
    · exact scanAtom_length float h

/-- **Every value takes something off the text.** -/
theorem scanOnce_length (float : PyStr → PyFloat) (room : Nat) : Consumes (scanOnce float room) := by
  induction room with
  | zero => exact scanValue_length float (by simp)
  | succ room ih =>
    refine scanValue_length float fun scan hscan => ?_
    obtain rfl := Option.some.inj hscan
    exact ih

end Json.Reader
