import EmbeddedMiddle.Foundation.ByteMemory
import Mathlib.Data.List.TakeWhile

/-!
# Comparing bytes and C strings

`memcmp` and `strncmp` of the C library on regions of memory, and what it means
that they return 0.
-/

namespace Foundation

namespace Bytes

/-- The region from `offset` on. -/
def shift (memory : Bytes) (offset : ℕ) : Bytes :=
  fun position => memory (offset + position)

@[simp] theorem read_shift (memory : Bytes) (offset start length : ℕ) :
    (memory.shift offset).read start length =
      memory.read (offset + start) length := by
  simp [read, shift, Nat.add_assoc]

theorem read_succ (memory : Bytes) (length : ℕ) :
    memory.read 0 (length + 1) =
      memory 0 :: (memory.shift 1).read 0 length := by
  simp [read, shift, List.range_succ_eq_map, Nat.add_comm]

/-- The difference of the first bytes that differ. -/
def memcmp : ℕ → Bytes → Bytes → ℤ
  | 0, _, _ => 0
  | length + 1, left, right =>
      if left 0 ≠ right 0 then (left 0).toNat - (right 0).toNat
      else memcmp length (left.shift 1) (right.shift 1)

/-- The same, but no byte behind a terminating zero is looked at. -/
def strncmp : ℕ → Bytes → Bytes → ℤ
  | 0, _, _ => 0
  | length + 1, left, right =>
      if left 0 ≠ right 0 then (left 0).toNat - (right 0).toNat
      else if left 0 = 0 then 0
      else strncmp length (left.shift 1) (right.shift 1)

/-- The string in the first `length` bytes. -/
def cString (memory : Bytes) (length : ℕ) : List UInt8 :=
  (memory.read 0 length).takeWhile (fun byte => byte ≠ 0)

/-- A text with a zero behind it. -/
structure HoldsText (memory : Bytes) (text : List UInt8) : Prop where
  content : memory.read 0 text.length = text
  ends : memory text.length = 0

theorem startingWith_holdsText (memory : Bytes) (text : List UInt8) :
    (memory.startingWith (text ++ [0])).HoldsText text := by
  constructor
  · apply List.ext_getElem
    · simp
    · intro position _ bound
      simp [read, startingWith, List.getElem?_append_left bound, bound]
  · simp [startingWith]

/-- A string literal. -/
theorem ofList_holdsText (text : List UInt8) :
    (ofList text).HoldsText text := by
  constructor
  · exact read_ofList text
  · simp [ofList, startingWith]

theorem HoldsText.read_eq {memory : Bytes} {text : List UInt8} {length : ℕ}
    (holds : memory.HoldsText text) (fits : text.length < length) :
    ∃ behind, memory.read 0 length = text ++ 0 :: behind := by
  obtain ⟨more, rfl⟩ := Nat.exists_eq_add_of_lt fits
  have starts : memory.startingWith text = memory := by
    funext position
    by_cases inside : position < text.length
    · have same := congrArg (fun bytes => bytes.getD position 0) holds.content
      simp [read, inside] at same
      simp [startingWith, inside, same]
    · simp [startingWith, Nat.not_lt.mp inside]
  have whole := memory.read_startingWith_behind text (more + 1)
  have next := (memory.shift text.length).read_succ more
  rw [starts] at whole
  rw [read_shift, shift, Nat.add_zero, holds.ends] at next
  rw [Nat.add_assoc, whole, next]
  exact ⟨_, rfl⟩

theorem HoldsText.cString_eq {memory : Bytes} {text : List UInt8}
    {length : ℕ} (holds : memory.HoldsText text) (noZero : 0 ∉ text)
    (fits : text.length < length) : memory.cString length = text := by
  obtain ⟨behind, whole⟩ := holds.read_eq fits
  rw [cString, whole, List.takeWhile_append_of_pos]
  · simp
  · intro byte member
    simpa using ne_of_mem_of_not_mem member noZero

/-- A longer text is cut off. -/
theorem HoldsText.cString_eq_take {memory : Bytes} {text : List UInt8}
    (holds : memory.HoldsText text) (noZero : 0 ∉ text) (length : ℕ) :
    memory.cString length = text.take length := by
  rcases Nat.lt_or_ge text.length length with fits | cut
  · rw [holds.cString_eq noZero fits, List.take_of_length_le fits.le]
  · have start : memory.read 0 length = text.take length := by
      rw [← holds.content]
      simp [read, ← List.map_take, List.take_range, cut]
    rw [cString, start, List.takeWhile_eq_self_iff]
    intro byte member
    simpa using ne_of_mem_of_not_mem (List.mem_of_mem_take member) noZero

theorem difference_ne_zero {left right : UInt8} (different : left ≠ right) :
    ((left.toNat : ℤ) - right.toNat) ≠ 0 := by
  intro zero
  apply different
  apply UInt8.toNat_inj.mp
  omega

theorem memcmp_eq_zero_iff {length : ℕ} {left right : Bytes} :
    memcmp length left right = 0 ↔
      left.read 0 length = right.read 0 length := by
  induction length generalizing left right with
  | zero => simp [memcmp, read]
  | succ length induction =>
      rw [memcmp, read_succ, read_succ, List.cons.injEq]
      split_ifs with different
      · constructor
        · intro zero
          exact absurd zero (difference_ne_zero different)
        · intro same
          exact absurd same.1 different
      · rw [induction]
        simp [not_not.mp different]

theorem strncmp_eq_zero_iff {length : ℕ} {left right : Bytes} :
    strncmp length left right = 0 ↔
      left.cString length = right.cString length := by
  induction length generalizing left right with
  | zero => simp [strncmp, cString, read]
  | succ length induction =>
      have unfolded : ∀ memory : Bytes, memory.cString (length + 1) =
          if memory 0 = 0 then []
          else memory 0 :: (memory.shift 1).cString length := by
        intro memory
        rw [cString, read_succ, List.takeWhile_cons]
        by_cases ends : memory 0 = 0
        · simp [ends]
        · simp [ends, cString]
      rw [strncmp, unfolded left, unfolded right]
      by_cases same : left 0 = right 0
      · rw [if_neg (not_not.mpr same), ← same]
        by_cases ends : left 0 = 0
        · simp [ends]
        · simp [ends, induction]
      · rw [if_pos same]
        constructor
        · intro zero
          exact absurd zero (difference_ne_zero same)
        · intro equal
          split_ifs at equal with leftEnds rightEnds
          · exact absurd (leftEnds.trans rightEnds.symm) same
          · exact absurd (List.cons.inj equal).1 same

end Bytes

/-- A string that ends with a zero. -/
structure CText where
  memory : Bytes
  text : List UInt8
  noZero : 0 ∉ text
  holds : memory.HoldsText text

/-- The string that is written as a literal. -/
def CText.ofList (text : List UInt8) (noZero : 0 ∉ text) : CText :=
  ⟨.ofList text, text, noZero, Bytes.ofList_holdsText text⟩

end Foundation
