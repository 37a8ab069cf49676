import Mathlib.Data.List.Basic
import Mathlib.Data.List.GetD
import Mathlib.Logic.Function.Basic
import Mathlib.Tactic.Ring

/-!
# Byte memory

A region of memory is a function from offsets to bytes.  Reading and copying
work on ranges; two ranges that do not meet do not disturb each other, and the
slots of an array of equal blocks do not meet.
-/

namespace Foundation

abbrev Bytes := ℕ → UInt8

namespace Bytes

def read (memory : Bytes) (offset length : ℕ) : List UInt8 :=
  (List.range length).map (fun position => memory (offset + position))

/-- `memcpy(target + offset, source, length)`. -/
def copy (target : Bytes) (offset : ℕ) (source : Bytes) (length : ℕ) : Bytes :=
  fun position =>
    if offset ≤ position ∧ position < offset + length
    then source (position - offset) else target position

@[simp] theorem length_read (memory : Bytes) (offset length : ℕ) :
    (memory.read offset length).length = length := by
  simp [read]

@[simp] theorem read_copy_self (target source : Bytes) (offset length : ℕ) :
    (target.copy offset source length).read offset length =
      source.read 0 length := by
  simp only [read, List.map_inj_left, List.mem_range]
  intro position bound
  simp [copy, bound]

theorem read_copy_of_disjoint (target source : Bytes)
    {offset length other otherLength : ℕ}
    (apart : other + otherLength ≤ offset ∨ offset + length ≤ other) :
    (target.copy offset source length).read other otherLength =
      target.read other otherLength := by
  simp only [read, List.map_inj_left, List.mem_range]
  intro position bound
  rw [copy, if_neg]
  omega

/-- A region that starts with the bytes of a list. -/
def startingWith (memory : Bytes) (content : List UInt8) : Bytes :=
  fun position => content.getD position (memory position)

def ofList (content : List UInt8) : Bytes := startingWith (fun _ => 0) content

@[simp] theorem startingWith_nil (memory : Bytes) :
    memory.startingWith [] = memory := by
  funext position
  simp [startingWith]

theorem read_startingWith (memory : Bytes) (content : List UInt8) :
    (memory.startingWith content).read 0 content.length = content := by
  apply List.ext_getElem
  · simp
  · intro position _ bound
    simp [read, startingWith, bound]

@[simp] theorem read_ofList (content : List UInt8) :
    (ofList content).read 0 content.length = content :=
  read_startingWith _ content

/-- Behind the bytes of the list the region is as it was. -/
theorem read_startingWith_behind (memory : Bytes) (content : List UInt8)
    (length : ℕ) :
    (memory.startingWith content).read 0 (content.length + length) =
      content ++ memory.read content.length length := by
  apply List.ext_getElem
  · simp
  · intro position _ bound
    by_cases before : position < content.length
    · simp [read, startingWith, before]
    · rw [List.getElem_append_right (Nat.not_lt.mp before)]
      simp [read, startingWith, Nat.not_lt.mp before]

theorem read_startingWith_take (memory : Bytes) (content : List UInt8)
    {length : ℕ} (fits : length ≤ content.length) :
    (memory.startingWith content).read 0 length = content.take length := by
  apply List.ext_getElem
  · simp [fits]
  · intro position _ bound
    have inside : position < content.length := by
      have := List.length_take_le' length content
      omega
    simp [read, startingWith, inside]

/-- A byte behind what is read. -/
theorem read_update (memory : Bytes) {position length : ℕ}
    (behind : length ≤ position) (byte : UInt8) :
    Bytes.read (Function.update memory position byte) 0 length =
      memory.read 0 length := by
  simp only [read, List.map_inj_left, List.mem_range, Nat.zero_add]
  intro other bound
  exact Function.update_of_ne (by omega) _ _

/-- Appending behind the bytes that are there. -/
theorem copy_startingWith (memory source : Bytes) (content : List UInt8)
    (length : ℕ) :
    (memory.startingWith content).copy content.length source length =
      memory.startingWith (content ++ source.read 0 length) := by
  funext position
  simp only [copy, startingWith]
  split_ifs with inside
  · rw [List.getD_append_right _ _ _ _ inside.1,
      List.getD_eq_getElem _ _ (by simp; omega)]
    simp [read]
  · by_cases before : position < content.length
    · rw [List.getD_append _ _ _ _ before]
    · rw [List.getD_eq_default _ _ (by omega),
        List.getD_eq_default _ _ (by simp; omega)]

end Bytes

/-- Distinct slots of an array of blocks occupy ranges that do not meet. -/
theorem slots_apart (size : ℕ) {left right : ℕ} (different : left ≠ right) :
    size * left + size ≤ size * right ∨ size * right + size ≤ size * left := by
  rcases Nat.lt_or_gt_of_ne different with below | above
  · left
    calc
      size * left + size = size * (left + 1) := by ring
      _ ≤ size * right := Nat.mul_le_mul_left size below
  · right
    calc
      size * right + size = size * (right + 1) := by ring
      _ ≤ size * left := Nat.mul_le_mul_left size above

theorem slot_bound (size : ℕ) {slot count : ℕ} (bound : slot < count) :
    size * slot + size ≤ size * count := by
  calc
    size * slot + size = size * (slot + 1) := by ring
    _ ≤ size * count := Nat.mul_le_mul_left size bound

/-- A loop that fills the slots of an array one after another. -/
theorem foldl_update {Item : Type*} (values array : ℕ → Item) (rounds : ℕ) :
    (List.range rounds).foldl
        (fun array i => Function.update array i (values i)) array =
      fun i => if i < rounds then values i else array i := by
  induction rounds with
  | zero => simp
  | succ rounds induction =>
      rw [List.range_succ, List.foldl_append, induction]
      funext slot
      rw [List.foldl_cons, List.foldl_nil]
      rcases Nat.lt_trichotomy slot rounds with below | rfl | above
      · rw [Function.update_of_ne below.ne, if_pos below,
          if_pos (below.trans (Nat.lt_succ_self rounds))]
      · rw [Function.update_self, if_pos (Nat.lt_succ_self slot)]
      · rw [Function.update_of_ne above.ne', if_neg (Nat.not_lt.mpr above.le),
          if_neg (Nat.not_lt.mpr above)]

end Foundation
