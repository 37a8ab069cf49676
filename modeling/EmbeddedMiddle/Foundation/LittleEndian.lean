import EmbeddedMiddle.Foundation.CString
import Mathlib.Data.Nat.Basic

/-!
# Unsigned integers in memory

The bytes of a number, the lowest first.
-/

namespace Foundation

namespace Bytes

/-- The bytes of a number. -/
def ofNat (value : ℕ) : Bytes :=
  fun position => UInt8.ofNat (value / 256 ^ position)

/-- The number in the first `length` bytes. -/
def toNat : ℕ → Bytes → ℕ
  | 0, _ => 0
  | length + 1, memory => (memory 0).toNat + 256 * toNat length (memory.shift 1)

theorem shift_ofNat (value : ℕ) :
    (ofNat value).shift 1 = ofNat (value / 256) := by
  funext position
  rw [shift, ofNat, ofNat, Nat.pow_add, Nat.pow_one, Nat.div_div_eq_div_mul]

theorem toNat_ofNat (length value : ℕ) :
    toNat length (ofNat value) = value % 256 ^ length := by
  induction length generalizing value with
  | zero => rw [toNat, Nat.pow_zero, Nat.mod_one]
  | succ length induction =>
      rw [toNat, shift_ofNat, induction, Nat.pow_succ', Nat.mod_mul]
      simp [ofNat]

/-- A number depends on the bytes of its own range only. -/
theorem toNat_congr {length : ℕ} {left right : Bytes}
    (same : left.read 0 length = right.read 0 length) :
    toNat length left = toNat length right := by
  induction length generalizing left right with
  | zero => rfl
  | succ length induction =>
      rw [read_succ, read_succ, List.cons.injEq] at same
      rw [toNat, toNat, same.1, induction same.2]

theorem toNat_lt (length : ℕ) (memory : Bytes) :
    toNat length memory < 256 ^ length := by
  induction length generalizing memory with
  | zero => exact Nat.one_pos
  | succ length induction =>
      have rest := induction (memory.shift 1)
      have first := (memory 0).toNat_lt
      rw [toNat, Nat.pow_succ]
      omega

/-- A number is read back from its own bytes. -/
theorem read_ofNat_toNat (length : ℕ) (memory : Bytes) :
    (ofNat (toNat length memory)).read 0 length = memory.read 0 length := by
  induction length generalizing memory with
  | zero => rfl
  | succ length induction =>
      have first := (memory 0).toNat_lt
      have rest : ((memory 0).toNat + 256 * toNat length (memory.shift 1)) /
          256 = toNat length (memory.shift 1) := by omega
      rw [read_succ, read_succ, shift_ofNat, toNat, rest, induction]
      congr 1
      apply UInt8.toNat_inj.mp
      simp [ofNat]

end Bytes

end Foundation
