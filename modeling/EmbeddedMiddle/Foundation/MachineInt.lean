import Mathlib.Data.Int.Basic
import Mathlib.Tactic.SplitIfs

/-!
# Fixed-width integers

Conversions to the 32-bit types, as two's complement machines perform them.
-/

namespace Foundation

/-- Conversion of a natural number to a 32-bit unsigned integer. -/
def uint32 (value : ℕ) : ℕ := value % 4294967296

/-- Conversion of a signed value to a 32-bit unsigned integer. -/
def intToUint32 (value : ℤ) : ℕ := (value % 4294967296).toNat

/-- Conversion to a 32-bit signed integer. -/
def toInt32 (value : ℤ) : ℤ :=
  (value + 2147483648) % 4294967296 - 2147483648

/-- Conversion of a signed value to `size_t`. -/
def intToSize (value : ℤ) : ℕ := (value % 18446744073709551616).toNat

def intMax : ℕ := 2147483647

theorem uint32_of_lt {value : ℕ} (bound : value < 4294967296) :
    uint32 value = value :=
  Nat.mod_eq_of_lt bound

theorem intToUint32_natCast {value : ℕ} (bound : value ≤ intMax) :
    intToUint32 (value : ℤ) = value := by
  unfold intToUint32
  unfold intMax at bound
  omega

theorem intToSize_natCast {value : ℕ} (bound : value ≤ intMax) :
    intToSize (value : ℤ) = value := by
  unfold intToSize
  unfold intMax at bound
  omega

theorem toInt32_of_range {value : ℤ} (lower : -2147483648 ≤ value)
    (upper : value ≤ 2147483647) : toInt32 value = value := by
  unfold toInt32
  omega

theorem toInt32_of_large {value : ℤ} (large : 2147483647 < value)
    (unsigned : value < 4294967296) :
    toInt32 value = value - 4294967296 := by
  unfold toInt32
  omega

theorem toInt32_of_small {value : ℤ} (small : value < -2147483648)
    (unsigned : -4294967296 < value) :
    toInt32 value = value + 4294967296 := by
  unfold toInt32
  omega

theorem intToUint32_of_neg {value : ℤ} (negative : value < 0)
    (unsigned : -4294967296 ≤ value) :
    (intToUint32 value : ℤ) = value + 4294967296 := by
  unfold intToUint32
  omega

theorem toInt32_range (value : ℤ) :
    -2147483648 ≤ toInt32 value ∧ toInt32 value ≤ 2147483647 := by
  unfold toInt32
  omega

theorem le_intMax_of_toInt32 {value : ℤ} (isInt : toInt32 value = value) :
    value ≤ intMax := by
  have range := toInt32_range value
  rw [isInt] at range
  exact range.2

theorem toInt32_intToUint32 {value : ℤ} (lower : -2147483648 ≤ value)
    (upper : value ≤ 2147483647) : toInt32 (intToUint32 value) = value := by
  unfold toInt32 intToUint32
  omega

/-- The conversion depends on the low 32 bits only. -/
theorem toInt32_congr {left right : ℤ}
    (same : left % 4294967296 = right % 4294967296) :
    toInt32 left = toInt32 right := by
  unfold toInt32
  omega

theorem toInt32_emod (value : ℤ) :
    toInt32 value % 4294967296 = value % 4294967296 := by
  unfold toInt32
  omega

theorem toInt32_toInt32_add (left right : ℤ) :
    toInt32 (toInt32 left + right) = toInt32 (left + right) := by
  apply toInt32_congr
  rw [Int.add_emod, toInt32_emod, ← Int.add_emod]

theorem toInt32_toInt32_mul (left right : ℤ) :
    toInt32 (toInt32 left * right) = toInt32 (left * right) := by
  apply toInt32_congr
  rw [Int.mul_emod, toInt32_emod, ← Int.mul_emod]

@[simp] theorem toInt32_natCast {value : ℕ} (bound : value ≤ intMax) :
    toInt32 (value : ℤ) = value := by
  unfold intMax at bound
  exact toInt32_of_range (by omega) (by omega)

end Foundation
