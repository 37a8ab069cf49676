import EmbeddedMiddle.Foundation.BoundedPrint

/-!
# Prints behind each other

A buffer is filled by several calls of `snprintf`.  Each call starts where the
lengths reported so far add up to, and is given what an `int` says is left of
the buffer from there; the reported lengths are those of the whole texts.
-/

namespace Foundation

/-- The arguments of a call: where it starts, and the size as a `size_t`. -/
structure PrintCall where
  offset : ℤ
  size : ℕ
  deriving DecidableEq, Repr

/-- The start of the next call, what was written, and the calls. -/
structure PrintBuf where
  offset : ℤ
  written : Written
  calls : List PrintCall

namespace PrintBuf

def start : PrintBuf := ⟨0, .nothing, []⟩

/-- One call of `snprintf`. -/
def print (limit : ℤ) (text : List UInt8) (buf : PrintBuf) : PrintBuf :=
  let size := toInt32 (limit - buf.offset)
  let (length, written) := snprintf text buf.offset size buf.written
  ⟨toInt32 (buf.offset + length), written,
    buf.calls ++ [⟨buf.offset, intToSize size⟩]⟩

def printIf (wanted : Prop) [Decidable wanted] (limit : ℤ)
    (text : List UInt8) (buf : PrintBuf) : PrintBuf :=
  if wanted then buf.print limit text else buf

/-- The calls stay in the buffer and are told what is left of it. -/
structure Contained (buf : PrintBuf) (limit : ℤ) : Prop where
  calls : ∀ call, call ∈ buf.calls →
    0 ≤ call.offset ∧ call.offset ≤ limit ∧ call.size = limit - call.offset
  inside : ∀ address, address < 0 ∨ limit ≤ address →
    buf.written address = none

/-- There is a zero in the buffer. -/
def Terminated (buf : PrintBuf) (limit : ℤ) : Prop :=
  ∃ position, 0 ≤ position ∧ position < limit ∧
    buf.written position = some 0

variable {buf : PrintBuf} {limit : ℤ} {text : List UInt8}

theorem start_contained : start.Contained limit := by
  constructor
  · intro call member
    cases member
  · intro address _
    rfl

/-- What is left of the buffer, as it is passed. -/
theorem exists_room (isInt : limit ≤ intMax) (started : 0 ≤ buf.offset)
    (within : buf.offset ≤ limit) :
    ∃ room : ℕ, room = limit - buf.offset ∧
      toInt32 (limit - buf.offset) = room ∧
      intToSize (toInt32 (limit - buf.offset)) = room := by
  obtain ⟨room, isRoom⟩ :=
    Int.eq_ofNat_of_zero_le (by omega : 0 ≤ limit - buf.offset)
  have bound : room ≤ intMax := by omega
  refine ⟨room, isRoom.symm, ?_, ?_⟩
  · rw [isRoom, toInt32_natCast bound]
  · rw [isRoom, toInt32_natCast bound, intToSize_natCast bound]

theorem print_outside (isInt : limit ≤ intMax) (started : 0 ≤ buf.offset)
    (within : buf.offset ≤ limit) {address : ℤ}
    (outside : address < 0 ∨ limit ≤ address) :
    (buf.print limit text).written address = buf.written address := by
  obtain ⟨room, isRoom, exact, -⟩ := exists_room isInt started within
  apply snprintf_bounded text
  · omega
  · omega
  · omega

/-- A call stays in the buffer exactly if it starts there. -/
theorem print_contained_iff (isInt : limit ≤ intMax) :
    (buf.print limit text).Contained limit ↔
      buf.Contained limit ∧ 0 ≤ buf.offset ∧ buf.offset ≤ limit := by
  constructor
  · intro contained
    obtain ⟨started, within, -⟩ := contained.calls
      ⟨buf.offset, intToSize (toInt32 (limit - buf.offset))⟩
      (List.mem_append_right _ (List.mem_singleton.mpr rfl))
    refine ⟨⟨?_, ?_⟩, started, within⟩
    · intro call member
      exact contained.calls call (List.mem_append_left _ member)
    · intro address outside
      rw [← print_outside isInt started within outside]
      exact contained.inside address outside
  · rintro ⟨contained, started, within⟩
    constructor
    · intro call member
      rcases List.mem_append.mp member with earlier | last
      · exact contained.calls call earlier
      · obtain ⟨room, isRoom, -, size⟩ := exists_room isInt started within
        rw [List.mem_singleton.mp last]
        exact ⟨started, within, size.symm ▸ isRoom⟩
    · intro address outside
      rw [print_outside isInt started within outside]
      exact contained.inside address outside

/-- A call that gets no room leaves the zero of the call before it. -/
theorem print_terminated (isInt : limit ≤ intMax) (started : 0 ≤ buf.offset)
    (within : buf.offset ≤ limit)
    (ready : buf.Terminated limit ∨ buf.offset < limit) :
    (buf.print limit text).Terminated limit := by
  obtain ⟨room, isRoom, -, size⟩ := exists_room isInt started within
  unfold print snprintf Terminated
  dsimp only
  rw [size]
  rcases Nat.eq_zero_or_pos room with rfl | more
  · rw [if_pos rfl]
    rcases ready with terminated | notFull
    · exact terminated
    · omega
  · have cut : (text.take (room - 1)).length ≤ room - 1 :=
      List.length_take_le _ _
    refine ⟨buf.offset + (text.take (room - 1)).length, by omega, by omega, ?_⟩
    rw [if_neg more.ne', Written.put_inside _ _ (by simp)]
    simp

/-- The length that `snprintf` reports: -1 for more than `INT_MAX`. -/
def reported (text : List UInt8) : ℤ :=
  if text.length ≤ intMax then text.length else -1

theorem print_offset :
    (buf.print limit text).offset =
      toInt32 (buf.offset + reported text) := rfl

/-! ## Calls under a condition -/

variable {wanted : Prop} [Decidable wanted]

theorem printIf_contained_iff (isInt : limit ≤ intMax) :
    (buf.printIf wanted limit text).Contained limit ↔
      buf.Contained limit ∧
        (wanted → 0 ≤ buf.offset ∧ buf.offset ≤ limit) := by
  unfold printIf
  split_ifs with called
  · rw [print_contained_iff isInt]
    simp [called]
  · simp [called]

/-- No call was made yet, or there is a zero. -/
def Ready (buf : PrintBuf) (limit : ℤ) : Prop :=
  buf.Terminated limit ∨ buf.offset = 0

theorem printIf_ready (isInt : limit ≤ intMax) (positive : 0 < limit)
    (inside : wanted → 0 ≤ buf.offset ∧ buf.offset ≤ limit)
    (ready : buf.Ready limit) :
    (buf.printIf wanted limit text).Ready limit := by
  unfold printIf
  split_ifs with called
  · obtain ⟨started, within⟩ := inside called
    left
    apply print_terminated isInt started within
    rcases ready with terminated | isStart
    · exact .inl terminated
    · right
      omega
  · exact ready

theorem printIf_offset {sofar : ℕ} (isStart : buf.offset = sofar)
    (short : sofar + text.length ≤ intMax) :
    (buf.printIf wanted limit text).offset =
      (sofar + if wanted then text.length else 0 : ℕ) := by
  unfold printIf
  split_ifs with called
  · have fits : text.length ≤ intMax := by omega
    rw [print_offset, reported, if_pos fits, isStart, ← Nat.cast_add,
      toInt32_natCast short]
  · rw [Nat.add_zero, isStart]

/-- What the test of the room behind a call keeps out: everything but the call
that would start one byte before the buffer, because the first text was too
long to be reported. -/
theorem room_tested_iff {sofar : ℕ} (positive : 0 < limit)
    (isInt : limit ≤ intMax) (within : sofar ≤ limit) :
    (0 < toInt32 (limit - toInt32 (sofar + reported text)) →
        0 ≤ toInt32 (sofar + reported text) ∧
          toInt32 (sofar + reported text) ≤ limit) ↔
      (sofar = 0 → text.length ≤ intMax ∨ limit = intMax) := by
  unfold reported
  split_ifs with short
  · have inside : 0 < toInt32 (limit - toInt32 (sofar + text.length)) →
        0 ≤ toInt32 (sofar + text.length) ∧
          toInt32 (sofar + text.length) ≤ limit := by
      unfold intMax at isInt short
      unfold toInt32
      omega
    exact iff_of_true inside fun _ => .inl short
  · unfold intMax at isInt short ⊢
    unfold toInt32
    omega

end PrintBuf

end Foundation
