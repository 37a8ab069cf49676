import EmbeddedMiddle.Foundation.CString

/-!
# Reading lines

`fgets` and `strcspn` of the C library, and a stream that is a sequence of
lines: each call of `fgets` on it reads one of them.
-/

namespace Foundation

/-- The character that ends a line. -/
def newline : UInt8 := 10

/-! ## The functions -/

/-- At most `count` bytes, and none behind a newline. -/
def fgetsTake : ℕ → List UInt8 → List UInt8
  | 0, _ => []
  | _, [] => []
  | count + 1, byte :: stream =>
      if byte = newline then [byte] else byte :: fgetsTake count stream

/-- `fgets(dst, size, stream)`: the memory behind `dst` and what is left of the
stream.  At the end of the stream the memory stays as it is. -/
def fgets (dst : Bytes) (size : ℕ) (stream : List UInt8) :
    Bytes × List UInt8 :=
  match stream with
  | [] => (dst, [])
  | stream =>
      let taken := fgetsTake (size - 1) stream
      (dst.startingWith (taken ++ [0]), stream.drop taken.length)

/-- `strcspn` with one rejected byte, on a region of `length` bytes. -/
def strcspn (memory : Bytes) (length : ℕ) (reject : UInt8) : ℕ :=
  ((memory.read 0 length).takeWhile
    (fun byte => byte ≠ 0 ∧ byte ≠ reject)).length

/-! ## Streams of lines -/

/-- What follows a line: a newline, but perhaps nothing behind the last. -/
def lineEnd (ended : Bool) (rest : List (List UInt8)) : List UInt8 :=
  if rest = [] ∧ ended = false then [] else [newline]

def streamOf (ended : Bool) : List (List UInt8) → List UInt8
  | [] => []
  | line :: rest => line ++ lineEnd ended rest ++ streamOf ended rest

/-- Lines that `fgets` reads as a whole; only a line that is ended by a newline
may be empty. -/
structure AreLines (ended : Bool) (size : ℕ) (lines : List (List UInt8)) :
    Prop where
  noNewline : ∀ line ∈ lines, newline ∉ line
  short : ∀ line ∈ lines, line.length + 1 < size
  nonempty : ended = false → [] ∉ lines.getLast?

variable {ended : Bool} {size : ℕ} {line : List UInt8}
  {rest : List (List UInt8)}

theorem AreLines.tail (lines : AreLines ended size (line :: rest)) :
    AreLines ended size rest := by
  refine ⟨?_, ?_, ?_⟩
  · intro other member
    exact lines.noNewline other (List.mem_cons_of_mem _ member)
  · intro other member
    exact lines.short other (List.mem_cons_of_mem _ member)
  · intro unended last
    apply lines.nonempty unended
    cases rest with
    | nil => cases last
    | cons next rest => exact last

theorem AreLines.drop {lines : List (List UInt8)}
    (areLines : AreLines ended size lines) (count : ℕ) :
    AreLines ended size (lines.drop count) := by
  induction count generalizing lines with
  | zero => exact areLines
  | succ count induction =>
      cases lines with
      | nil => exact areLines
      | cons line rest => exact induction areLines.tail

theorem fgetsTake_line {count : ℕ} (noNewline : newline ∉ line)
    (fits : line.length + 1 ≤ count) :
    fgetsTake count (streamOf ended (line :: rest)) =
      line ++ lineEnd ended rest := by
  induction line generalizing count with
  | nil =>
      obtain ⟨count, rfl⟩ : ∃ more, count = more + 1 :=
        Nat.exists_eq_add_of_le' fits
      unfold streamOf lineEnd
      split_ifs with last
      · rw [last.1]
        rfl
      · simp [fgetsTake]
  | cons byte line induction =>
      obtain ⟨count, rfl⟩ : ∃ more, count = more + 1 :=
        Nat.exists_eq_add_of_le' (Nat.le_of_add_left_le fits)
      rw [List.mem_cons, not_or] at noNewline
      have following := induction noNewline.2 (Nat.le_of_succ_le_succ fits)
      simp only [streamOf, List.cons_append] at following ⊢
      rw [fgetsTake, if_neg (Ne.symm noNewline.1), following]

theorem streamOf_ne_nil (lines : AreLines ended size (line :: rest)) :
    streamOf ended (line :: rest) ≠ [] := by
  unfold streamOf lineEnd
  split_ifs with last
  · have nonempty := lines.nonempty last.2
    rw [last.1] at nonempty ⊢
    simpa [streamOf] using nonempty
  · simp

/-- The first line of the stream. -/
theorem takeWhile_streamOf (noNewline : newline ∉ line) :
    (streamOf ended (line :: rest)).takeWhile (fun byte => byte ≠ newline) =
      line := by
  have whole : ∀ byte ∈ line, decide (byte ≠ newline) = true := by
    intro byte member
    simpa using ne_of_mem_of_not_mem member noNewline
  unfold streamOf lineEnd
  split_ifs with last
  · rw [last.1, streamOf, List.append_nil, List.append_nil,
      List.takeWhile_eq_self_iff]
    exact whole
  · rw [List.append_assoc, List.takeWhile_append_of_pos whole]
    simp

/-- One call reads one line. -/
theorem fgets_line (lines : AreLines ended size (line :: rest))
    (dst : Bytes) :
    fgets dst size (streamOf ended (line :: rest)) =
      (dst.startingWith (line ++ lineEnd ended rest ++ [0]),
        streamOf ended rest) := by
  have noNewline := lines.noNewline line (List.mem_cons_self ..)
  have short := lines.short line (List.mem_cons_self ..)
  have taken := @fgetsTake_line ended line rest (size - 1) noNewline
    (by omega)
  have nonempty := streamOf_ne_nil lines
  unfold fgets
  split
  · next isNil => exact absurd isNil nonempty
  · dsimp only
    rw [taken, streamOf, List.drop_left]

/-- What `strcspn` finds in the memory behind a line. -/
theorem strcspn_line {text : List UInt8} {next : UInt8}
    (noNewline : newline ∉ text) (stops : next = 0 ∨ next = newline)
    (behind : List UInt8) :
    (text ++ next :: behind).takeWhile
        (fun byte => byte ≠ 0 ∧ byte ≠ newline) =
      text.takeWhile (fun byte => byte ≠ 0) := by
  induction text with
  | nil =>
      rcases stops with rfl | rfl
      · simp
      · simp
  | cons byte text induction =>
      rw [List.mem_cons, not_or] at noNewline
      have following := induction noNewline.2
      by_cases zero : byte = 0
      · simp [zero]
      · rw [List.cons_append, List.takeWhile_cons, List.takeWhile_cons]
        simp [zero, Ne.symm noNewline.1]
        simpa using following

end Foundation
