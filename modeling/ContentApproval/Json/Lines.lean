import ContentApproval.Json.Reading

/-!
# Documents on lines of their own

`Json.stream` writes each document on a line that a newline ends. As no line has a newline in it,
whatever the strings of the documents hold, splitting the bytes at the newlines gives the lines
(`splitLines_stream`), and the reader reads each of them as its document (`loads_stream`).
-/

namespace Json

/-- The lines of the documents, each with a newline after it. -/
def stream (xs : List Json) : List Char := xs.flatMap fun x => line x ++ ['\n']

@[simp] theorem stream_nil : stream [] = [] := rfl

theorem stream_cons (x : Json) (xs : List Json) :
    stream (x :: xs) = line x ++ '\n' :: stream xs := by
  simp [stream]

namespace Reader

def newline : UInt8 := 10

/-- What stands before each newline. -/
def splitLines (bs : List UInt8) : List (List UInt8) := (bs.splitOn newline).dropLast

@[simp] theorem splitLines_nil : splitLines [] = [] := rfl

theorem splitLines_append {l : List UInt8} (h : newline ∉ l) (bs : List UInt8) :
    splitLines (l ++ newline :: bs) = l :: splitLines bs := by
  unfold splitLines
  rw [List.splitOn_append_cons_self_of_not_mem h]
  exact List.dropLast_cons_of_ne_nil (List.splitOn_ne_nil newline bs)

theorem splitLines_cons (b : UInt8) (bs : List UInt8) : splitLines (b :: bs) =
    if b = newline then [] :: splitLines bs else (splitLines bs).modifyHead (List.cons b) := by
  unfold splitLines
  rw [List.splitOn_cons_eq_if_modifyHead]
  have hne := List.splitOn_ne_nil newline bs
  by_cases hb : b = newline
  · rw [if_pos (beq_iff_eq.mpr hb), if_pos hb]
    exact List.dropLast_cons_of_ne_nil hne
  · rw [if_neg (fun h => hb (beq_iff_eq.mp h)), if_neg hb]
    rcases List.splitOn newline bs with _ | ⟨l, _ | ⟨l', ls⟩⟩ <;> rfl

/-- What was written later does not change the lines that are there. -/
theorem splitLines_mono {bs cs : List UInt8} (h : bs <+: cs) :
    splitLines bs <+: splitLines cs := by
  induction bs generalizing cs with
  | nil => exact List.nil_prefix
  | cons b bs ih =>
    obtain ⟨ds, rfl⟩ := h
    have hrest := ih (List.prefix_append bs ds)
    rw [List.cons_append, splitLines_cons, splitLines_cons]
    split_ifs
    · exact List.cons_prefix_cons.mpr ⟨rfl, hrest⟩
    · rcases hl : splitLines bs with _ | ⟨l, ls⟩
      · exact List.nil_prefix
      · rw [hl] at hrest
        obtain ⟨more, hmore⟩ := hrest
        rw [← hmore]
        exact List.prefix_append _ more

theorem bytes_append (cs ds : List Char) : bytes (cs ++ ds) = bytes cs ++ bytes ds :=
  List.map_append

/-- A line is all on one line. -/
theorem newline_not_mem_line (x : Json) : newline ∉ bytes (line x) := by
  intro h
  obtain ⟨c, hc, hb⟩ := List.mem_map.mp h
  have hprintable := line_printable x c hc
  have hcode := toNat_of_printable hprintable
  rw [hb] at hcode
  have hlow := hprintable.1
  rw [← hcode] at hlow
  exact absurd hlow (by decide)

/-- **The lines of a stream are those of its documents.** -/
theorem splitLines_stream (xs : List Json) :
    splitLines (bytes (stream xs)) = xs.map fun x => bytes (line x) := by
  induction xs with
  | nil => rfl
  | cons x xs ih =>
    have hcons : bytes (stream (x :: xs)) = bytes (line x) ++ newline :: bytes (stream xs) := by
      rw [stream_cons, bytes_append]
      rfl
    rw [hcons, splitLines_append (newline_not_mem_line x), ih, List.map_cons]

/-- **A stream is read back line by line.** -/
theorem loads_stream (float : PyStr → PyFloat) {room : Nat} {xs : List Json}
    (h : ∀ x ∈ xs, Readable room x) : (splitLines (bytes (stream xs))).map (loads float room) =
      xs.map fun x => .ok (.ofJson x) := by
  rw [splitLines_stream, List.map_map]
  exact List.map_congr_left fun x hx => loads_line float (h x hx)

/-- **What was written so far is read back as the first documents.** -/
theorem loads_written (float : PyStr → PyFloat) {room : Nat} {xs : List Json}
    (h : ∀ x ∈ xs, Readable room x) {bs : List UInt8} (hbs : bs <+: bytes (stream xs)) :
    (splitLines bs).map (loads float room) <+: xs.map fun x => .ok (.ofJson x) := by
  rw [← loads_stream float h]
  exact (splitLines_mono hbs).map _

end Reader

end Json
