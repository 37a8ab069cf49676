import Mathlib.Data.Nat.Basic
import Mathlib.Tactic.SplitIfs

/-!
# Requests in units

Both allocators give memory in units of a fixed size and round a request up.
-/

namespace EmbeddedMiddle

/-- The units that a request of `size` bytes needs. -/
def unitCount (unit size : ℕ) : ℕ := (size + unit - 1) / unit

theorem unitCount_eq {unit size : ℕ} (positive : 0 < unit) :
    unitCount unit size = size / unit + if size % unit = 0 then 0 else 1 := by
  have split := Nat.div_add_mod size unit
  have below := Nat.mod_lt size positive
  unfold unitCount
  split_ifs with exact
  · rw [Nat.div_eq_of_lt_le]
    · rw [Nat.add_zero, Nat.mul_comm]
      omega
    · rw [Nat.add_zero, Nat.add_mul, Nat.mul_comm]
      omega
  · rw [Nat.div_eq_of_lt_le]
    · rw [Nat.add_mul, Nat.mul_comm]
      omega
    · rw [Nat.add_mul, Nat.add_mul, Nat.mul_comm]
      omega

theorem size_le_units {unit size : ℕ} (positive : 0 < unit) :
    size ≤ unit * unitCount unit size := by
  have split := Nat.div_add_mod size unit
  have below := Nat.mod_lt size positive
  rw [unitCount_eq positive]
  split_ifs
  · rw [Nat.add_zero]
    omega
  · rw [Nat.mul_add]
    omega

theorem units_lt_size {unit size : ℕ} (positive : 0 < unit)
    (nonempty : 0 < size) : unit * (unitCount unit size - 1) < size := by
  have split := Nat.div_add_mod size unit
  have below := Nat.mod_lt size positive
  rw [unitCount_eq positive]
  split_ifs with exact
  · have quotient : 0 < size / unit := by
      rcases Nat.eq_zero_or_pos (size / unit) with zero | pos
      · rw [zero] at split
        omega
      · exact pos
    have less : unit * (size / unit - 1) < unit * (size / unit) :=
      Nat.mul_lt_mul_of_pos_left (by omega) positive
    rw [Nat.add_zero]
    omega
  · rw [Nat.add_sub_cancel]
    omega

theorem unitCount_pos {unit size : ℕ} (positive : 0 < unit)
    (nonempty : 0 < size) : 0 < unitCount unit size := by
  have covers := @size_le_units unit size positive
  rcases Nat.eq_zero_or_pos (unitCount unit size) with zero | pos
  · rw [zero] at covers
    omega
  · exact pos

end EmbeddedMiddle
