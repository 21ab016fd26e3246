import Mathlib.Data.Nat.Digits.Lemmas
import Mathlib.Tactic.IntervalCases

/-!
# Instants and their text

An `Instant` is a UTC date and time with microseconds, from year 1 to year 9999. Its
text is `YYYY-MM-DDTHH:MM:SS.ffffffZ`, without the fraction when it is zero.

* `Date.ordinal_ofOrdinal`: the calendar date of a day number has that day number.
* `Instant.parse_isoformat`: the text of an instant is read back as that instant.
-/

/-- A date of the proleptic Gregorian calendar. -/
structure Date where
  year : Nat
  month : Nat
  day : Nat

namespace Date

def isLeap (year : Nat) : Bool := year % 4 == 0 && (year % 100 != 0 || year % 400 == 0)

def daysBeforeYear (year : Nat) : Nat :=
  (year - 1) * 365 + (year - 1) / 4 - (year - 1) / 100 + (year - 1) / 400

def daysBeforeMonth (leap : Bool) (month : Nat) : Nat :=
  [0, 0, 31, 59, 90, 120, 151, 181, 212, 243, 273, 304, 334].getD month 0 +
    if leap && 2 < month then 1 else 0

/-- The number of days before this date, counted from 1 January of year 1. -/
def ordinal (d : Date) : Nat :=
  daysBeforeYear d.year + daysBeforeMonth (isLeap d.year) d.month + (d.day - 1)

/-- Month and day of the `n`-th day of a year, counted from zero. -/
def monthDay (leap : Bool) (n : Nat) : Nat × Nat :=
  let month := (n + 50) / 32
  if daysBeforeMonth leap month > n then (month - 1, n - daysBeforeMonth leap (month - 1) + 1)
  else (month, n - daysBeforeMonth leap month + 1)

/-- The date with `n` days before it: cycles of 400, 100, 4 and 1 years, then the month. -/
def ofOrdinal (n : Nat) : Date :=
  let n400 := n / 146097
  let r400 := n % 146097
  let n100 := r400 / 36524
  let r100 := r400 % 36524
  let n4 := r100 / 1461
  let r4 := r100 % 1461
  let n1 := r4 / 365
  let year := n400 * 400 + n100 * 100 + n4 * 4 + n1 + 1
  if n1 = 4 ∨ n100 = 4 then ⟨year - 1, 12, 31⟩
  else
    let leap := n1 == 3 && (n4 != 24 || n100 == 3)
    let md := monthDay leap (r4 % 365)
    ⟨year, md.1, md.2⟩

/-- The days of a year before a date and the month and day of the date agree. -/
theorem monthDay_spec (leap : Bool) (n : Fin 366) :
    n.val < 365 + leap.toNat →
      daysBeforeMonth leap (monthDay leap n).1 + ((monthDay leap n).2 - 1) = n ∧
        (monthDay leap n).1 < 100 ∧ (monthDay leap n).2 < 100 := by
  revert leap n
  decide +kernel

theorem daysBeforeYear_cycles {a b c d : Nat} (hb : b ≤ 3) (hc : c ≤ 24) (hd : d ≤ 3) :
    daysBeforeYear (a * 400 + b * 100 + c * 4 + d + 1) =
      a * 146097 + b * 36524 + c * 1461 + d * 365 := by
  unfold daysBeforeYear
  omega

theorem isLeap_cycles {a b c d : Nat} (hb : b ≤ 3) (hc : c ≤ 24) (hd : d ≤ 3) :
    isLeap (a * 400 + b * 100 + c * 4 + d + 1) = (d == 3 && (c != 24 || b == 3)) := by
  rw [Bool.eq_iff_iff]
  simp only [isLeap, Bool.and_eq_true, Bool.or_eq_true, beq_iff_eq, bne_iff_ne, ne_eq]
  omega

theorem ordinal_ofOrdinal (n : Nat) : (ofOrdinal n).ordinal = n := by
  have e400 := Nat.div_add_mod n 146097
  have b400 := Nat.mod_lt n (show 0 < 146097 by decide)
  unfold ofOrdinal
  dsimp only
  generalize n / 146097 = n400 at *
  generalize n % 146097 = r400 at *
  have e100 := Nat.div_add_mod r400 36524
  have b100 := Nat.mod_lt r400 (show 0 < 36524 by decide)
  generalize r400 / 36524 = n100 at *
  generalize r400 % 36524 = r100 at *
  have e4 := Nat.div_add_mod r100 1461
  have b4 := Nat.mod_lt r100 (show 0 < 1461 by decide)
  generalize r100 / 1461 = n4 at *
  generalize r100 % 1461 = r4 at *
  have e1 := Nat.div_add_mod r4 365
  have b1 := Nat.mod_lt r4 (show 0 < 365 by decide)
  generalize r4 / 365 = n1 at *
  generalize r4 % 365 = r1 at *
  split_ifs with hlast
  · -- the last day of a cycle: 31 December of a leap year
    obtain ⟨b, c, hb, hc, hlong, hyear, hdays⟩ : ∃ b c, b ≤ 3 ∧ c ≤ 24 ∧ (c ≠ 24 ∨ b = 3) ∧
        n400 * 400 + n100 * 100 + n4 * 4 + n1 = n400 * 400 + b * 100 + c * 4 + 3 + 1 ∧
        n = n400 * 146097 + b * 36524 + c * 1461 + 3 * 365 + 365 := by
      by_cases h100 : n100 = 4
      · exact ⟨3, 24, by omega, by omega, by omega, by omega, by omega⟩
      · exact ⟨n100, n4, by omega, by omega, by omega, by omega, by omega⟩
    simp only [ordinal, Nat.add_sub_cancel, hyear, daysBeforeYear_cycles hb hc (le_refl 3),
      isLeap_cycles hb hc (le_refl 3)]
    have hleap : ((3 == 3 && (c != 24 || b == 3)) : Bool) = true := by simpa using hlong
    have hmonth : daysBeforeMonth true 12 = 335 := by decide
    rw [hleap, hmonth, hdays]
  · rw [not_or] at hlast
    have h100 : n100 ≤ 3 := by omega
    have h4 : n4 ≤ 24 := by omega
    have h1 : n1 ≤ 3 := by omega
    have hmd := (monthDay_spec (n1 == 3 && (n4 != 24 || n100 == 3)) ⟨r1, by omega⟩
      (by simp only; omega)).1
    simp only [ordinal, daysBeforeYear_cycles h100 h4 h1, isLeap_cycles h100 h4 h1]
    simp only at hmd
    omega

theorem ofOrdinal_lt {n : Nat} (h : n < 3652059) :
    (ofOrdinal n).year < 10000 ∧ (ofOrdinal n).month < 100 ∧ (ofOrdinal n).day < 100 := by
  unfold ofOrdinal
  dsimp only
  split_ifs with hlast
  · exact ⟨by dsimp only; omega, by dsimp only; omega, by dsimp only; omega⟩
  · rw [not_or] at hlast
    have hmd := (monthDay_spec
      (n % 146097 % 36524 % 1461 / 365 == 3 &&
        (n % 146097 % 36524 / 1461 != 24 || n % 146097 / 36524 == 3))
      ⟨n % 146097 % 36524 % 1461 % 365, by omega⟩ (by simp only; omega)).2
    exact ⟨by dsimp only; omega, hmd.1, hmd.2⟩

end Date

/-- A date and time in UTC, in microseconds since the beginning of year 1. -/
structure Instant where
  micros : Nat
  bound : micros < 315537897600000000
  deriving DecidableEq

namespace Instant

instance : LE Instant := ⟨fun a b => a.micros ≤ b.micros⟩

instance : LT Instant := ⟨fun a b => a.micros < b.micros⟩

instance (a b : Instant) : Decidable (a ≤ b) := inferInstanceAs (Decidable (a.micros ≤ b.micros))

instance (a b : Instant) : Decidable (a < b) := inferInstanceAs (Decidable (a.micros < b.micros))

/-- The last `width` decimal digits of `n`. -/
def digits : Nat → Nat → List Char
  | 0, _ => []
  | width + 1, n => Nat.digitChar (n / 10 ^ width % 10) :: digits width n

/-- Read `width` decimal digits, after those of `acc`. -/
def readDigits (acc : Nat) : Nat → List Char → Option (Nat × List Char)
  | 0, cs => some (acc, cs)
  | width + 1, c :: cs =>
    if c.isDigit then readDigits (acc * 10 + (c.toNat - 48)) width cs else none
  | _ + 1, [] => none

/-- Read one character. -/
def readChar (expected : Char) : List Char → Option (List Char)
  | c :: cs => if c = expected then some cs else none
  | [] => none

def isoChars (t : Instant) : List Char :=
  let date := Date.ofOrdinal (t.micros / 86400000000)
  let clock := t.micros % 86400000000
  let fraction := clock % 1000000
  digits 4 date.year ++ '-' :: (digits 2 date.month ++ '-' :: (digits 2 date.day ++ 'T' ::
    (digits 2 (clock / 3600000000) ++ ':' :: (digits 2 (clock / 60000000 % 60) ++ ':' ::
      (digits 2 (clock / 1000000 % 60) ++
        if fraction = 0 then ['Z'] else '.' :: (digits 6 fraction ++ ['Z']))))))

/-- The text of a datetime field in a response and in a stored response body. -/
def isoformat (t : Instant) : String := String.ofList t.isoChars

/-- The part of a second, up to the end of the text. -/
def readFraction : List Char → Option Nat
  | ['Z'] => some 0
  | '.' :: cs => do
    let (fraction, cs) ← readDigits 0 6 cs
    if cs = ['Z'] then some fraction else none
  | _ => none

/-- A date and a time of day, as they stand in a text. -/
structure Fields where
  date : Date
  hour : Nat
  minute : Nat
  second : Nat
  fraction : Nat

def parseFields (cs : List Char) : Option Fields := do
  let (year, cs) ← readDigits 0 4 cs
  let cs ← readChar '-' cs
  let (month, cs) ← readDigits 0 2 cs
  let cs ← readChar '-' cs
  let (day, cs) ← readDigits 0 2 cs
  let cs ← readChar 'T' cs
  let (hour, cs) ← readDigits 0 2 cs
  let cs ← readChar ':' cs
  let (minute, cs) ← readDigits 0 2 cs
  let cs ← readChar ':' cs
  let (second, cs) ← readDigits 0 2 cs
  let fraction ← readFraction cs
  pure ⟨⟨year, month, day⟩, hour, minute, second, fraction⟩

/-- The microseconds up to this date and time of day. -/
def Fields.micros (f : Fields) : Nat :=
  ((f.date.ordinal * 24 + f.hour) * 60 + f.minute) * 60000000 + f.second * 1000000 + f.fraction

/-- Read a datetime field in the form that `isoformat` writes. -/
def parse (s : String) : Option Instant :=
  match parseFields s.toList with
  | some fields => if h : fields.micros < 315537897600000000 then some ⟨fields.micros, h⟩ else none
  | none => none

/-! ## Round trip -/

theorem readDigits_digits (acc width n : Nat) (r : List Char) :
    readDigits acc width (digits width n ++ r) = some (acc * 10 ^ width + n % 10 ^ width, r) := by
  induction width generalizing acc with
  | zero => simp [digits, readDigits, Nat.mod_one]
  | succ width ih =>
    have hd : n / 10 ^ width % 10 < 10 := Nat.mod_lt _ (by decide)
    have hchar : ∀ k : Fin 10, (Nat.digitChar k).isDigit = true ∧
        (Nat.digitChar k).toNat - 48 = k := by decide
    obtain ⟨hdig, hval⟩ := hchar ⟨_, hd⟩
    simp only at hdig hval
    simp only [digits, List.cons_append, readDigits, hdig, if_true, hval, ih]
    congr 2
    rw [Nat.mod_pow_succ, Nat.pow_succ]
    ring

theorem readDigits_digits_lt {width n : Nat} (h : n < 10 ^ width) (r : List Char) :
    readDigits 0 width (digits width n ++ r) = some (n, r) := by
  rw [readDigits_digits, Nat.mod_eq_of_lt h, Nat.zero_mul, Nat.zero_add]

@[simp] theorem readChar_cons (c : Char) (r : List Char) : readChar c (c :: r) = some r := by
  simp [readChar]

theorem readFraction_text {n : Nat} (h : n < 1000000) :
    readFraction (if n = 0 then ['Z'] else '.' :: (digits 6 n ++ ['Z'])) = some n := by
  split_ifs with h0
  · rw [h0, readFraction]
  · simp [readFraction, readDigits_digits_lt (show n < 10 ^ 6 by omega)]

theorem parseFields_text {year month day hour minute second fraction : Nat}
    (hyear : year < 10000) (hmonth : month < 100) (hday : day < 100) (hhour : hour < 100)
    (hminute : minute < 100) (hsecond : second < 100) (hfraction : fraction < 1000000) :
    parseFields (digits 4 year ++ '-' :: (digits 2 month ++ '-' :: (digits 2 day ++ 'T' ::
      (digits 2 hour ++ ':' :: (digits 2 minute ++ ':' :: (digits 2 second ++
        if fraction = 0 then ['Z'] else '.' :: (digits 6 fraction ++ ['Z']))))))) =
      some ⟨⟨year, month, day⟩, hour, minute, second, fraction⟩ := by
  have h4 : ∀ {n r}, n < 10000 → readDigits 0 4 (digits 4 n ++ r) = some (n, r) :=
    fun h => readDigits_digits_lt (by norm_num; exact h) _
  have h2 : ∀ {n r}, n < 100 → readDigits 0 2 (digits 2 n ++ r) = some (n, r) :=
    fun h => readDigits_digits_lt (by norm_num; exact h) _
  simp only [parseFields, h4 hyear, h2 hmonth, h2 hday, h2 hhour, h2 hminute, h2 hsecond,
    readFraction_text hfraction, readChar_cons, Option.bind_eq_bind, Option.bind_some,
    Option.pure_def]

/-- **Round trip.** -/
theorem parse_isoformat (t : Instant) : parse t.isoformat = some t := by
  obtain ⟨n, hn⟩ := t
  have hdate := Date.ofOrdinal_lt (show n / 86400000000 < 3652059 by omega)
  have hclock := Nat.mod_lt n (show 0 < 86400000000 by decide)
  have hsplit := Nat.div_add_mod n 86400000000
  have hfields := parseFields_text hdate.1 hdate.2.1 hdate.2.2
    (show n % 86400000000 / 3600000000 < 100 by omega)
    (show n % 86400000000 / 60000000 % 60 < 100 by omega)
    (show n % 86400000000 / 1000000 % 60 < 100 by omega)
    (show n % 86400000000 % 1000000 < 1000000 by omega)
  have hmicros : Fields.micros ⟨Date.ofOrdinal (n / 86400000000), n % 86400000000 / 3600000000,
      n % 86400000000 / 60000000 % 60, n % 86400000000 / 1000000 % 60,
      n % 86400000000 % 1000000⟩ = n := by
    simp only [Fields.micros, Date.ordinal_ofOrdinal]
    omega
  rw [parse, isoformat, String.toList_ofList, isoChars, hfields]
  simp only [hmicros, dif_pos hn]

end Instant
