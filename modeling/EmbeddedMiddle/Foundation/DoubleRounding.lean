import EmbeddedMiddle.Foundation.Printf
import Mathlib.Algebra.Order.Floor.Ring
import Mathlib.Data.Int.Log
import Mathlib.Data.Rat.Floor
import Mathlib.Tactic.Linarith

/-!
# Rounding to a `double`

The number that is stored for a fraction: the nearest `double`, the even one of
two.  No `double` at all lies nearer to the fraction.
-/

namespace Foundation

/-! ## Integers -/

theorem roundHalfEven_near (num : ℕ) {den : ℕ} (positive : 0 < den) :
    |(roundHalfEven num den : ℚ) - num / den| ≤ 1 / 2 := by
  have isPositive : (0 : ℚ) < den := by exact_mod_cast positive
  have split : (num : ℚ) = den * (num / den : ℕ) + (num % den : ℕ) := by
    exact_mod_cast (Nat.div_add_mod num den).symm
  have quotient : (num : ℚ) / den =
      (num / den : ℕ) + ((num % den : ℕ) : ℚ) / den := by
    field_simp
    linarith
  have small : ((num % den : ℕ) : ℚ) / den < 1 := by
    rw [div_lt_one isPositive]
    exact_mod_cast Nat.mod_lt num positive
  have notNegative : 0 ≤ ((num % den : ℕ) : ℚ) / den := by positivity
  rw [quotient, abs_le]
  simp only [roundHalfEven]
  split_ifs with up
  · have half : (1 : ℚ) / 2 ≤ ((num % den : ℕ) : ℚ) / den := by
      rw [div_le_div_iff₀ (by norm_num) isPositive]
      have atLeast : den ≤ 2 * (num % den) := by omega
      have cast : (den : ℚ) ≤ 2 * (num % den : ℕ) := by exact_mod_cast atLeast
      linarith
    push_cast
    constructor <;> linarith
  · have half : ((num % den : ℕ) : ℚ) / den ≤ 1 / 2 := by
      rw [div_le_div_iff₀ isPositive (by norm_num)]
      have atMost : 2 * (num % den) ≤ den := by omega
      have cast : (2 : ℚ) * (num % den : ℕ) ≤ den := by exact_mod_cast atMost
      linarith
    constructor <;> linarith

/-- The nearest integer to a fraction that is not negative, the even one of
two. -/
def nearestNat (value : ℚ) : ℕ := roundHalfEven value.num.toNat value.den

section NearestNat

variable {value : ℚ}

theorem nearestNat_near (nonneg : 0 ≤ value) :
    |(nearestNat value : ℚ) - value| ≤ 1 / 2 := by
  have near := roundHalfEven_near value.num.toNat value.den_pos
  have isNum : ((value.num.toNat : ℕ) : ℚ) = (value.num : ℚ) := by
    exact_mod_cast Int.toNat_of_nonneg (Rat.num_nonneg.mpr nonneg)
  rwa [isNum, Rat.num_div_den] at near

/-- Half a step is enough to be the nearest of all. -/
theorem nearestNat_le (nonneg : 0 ≤ value) (other : ℕ) :
    |(nearestNat value : ℚ) - value| ≤ |(other : ℚ) - value| := by
  have near := nearestNat_near nonneg
  rcases Nat.lt_trichotomy (nearestNat value) other with below | same | above
  · have apart : (nearestNat value : ℚ) + 1 ≤ other := by exact_mod_cast below
    rw [abs_le] at near
    rw [abs_of_nonneg (by linarith : (0 : ℚ) ≤ other - value), abs_le]
    constructor <;> linarith
  · rw [same]
  · have apart : (other : ℚ) + 1 ≤ nearestNat value := by exact_mod_cast above
    rw [abs_le] at near
    rw [abs_of_nonpos (by linarith : (other : ℚ) - value ≤ 0), abs_le]
    constructor <;> linarith

theorem nearestNat_le_of_lt {bound : ℕ} (nonneg : 0 ≤ value)
    (below : value < bound) : nearestNat value ≤ bound := by
  have near := (abs_le.mp (nearestNat_near nonneg)).2
  have cast : (nearestNat value : ℚ) < (bound + 1 : ℕ) := by
    push_cast
    linarith
  exact Nat.lt_succ_iff.mp (by exact_mod_cast cast)

end NearestNat

/-! ## The grid -/

/-- The exponent at which 53 bits reach the highest bit of the fraction, but
not below the least one there is. -/
def gridExponent (value : ℚ) : ℤ := max (-1074) (Int.log 2 value - 52)

section Grid

variable {value : ℚ}

theorem gridExponent_ge (value : ℚ) : -1074 ≤ gridExponent value :=
  le_max_left _ _

theorem lt_grid (value : ℚ) : value < 2 ^ (gridExponent value + 53) := by
  have above := Int.lt_zpow_succ_log_self (b := 2) (by decide) value
  have atMost : Int.log 2 value - 52 ≤ gridExponent value := le_max_right _ _
  refine above.trans_le ?_
  push_cast
  exact zpow_le_zpow_right₀ (by norm_num) (by omega)

/-- On a finer grid 53 bits do not reach the fraction. -/
theorem le_of_lt_gridExponent {exponent : ℤ} (positive : 0 < value)
    (least : -1074 ≤ exponent) (finer : exponent < gridExponent value) :
    2 ^ (exponent + 53) ≤ value := by
  have below := Int.zpow_log_le_self (b := 2) (by decide) positive
  have atMost : exponent + 53 ≤ Int.log 2 value := by
    rcases lt_max_iff.mp finer with impossible | finer
    · omega
    · omega
  refine le_trans ?_ below
  push_cast
  exact zpow_le_zpow_right₀ (by norm_num) atMost

/-- The nearest point of the grid. -/
def gridPoint (value : ℚ) : ℚ :=
  nearestNat (value / 2 ^ gridExponent value) * 2 ^ gridExponent value

theorem gridPoint_le_of_multiple (nonneg : 0 ≤ value) (other : ℕ) :
    |gridPoint value - value| ≤
      |(other : ℚ) * 2 ^ gridExponent value - value| := by
  have unit : (0 : ℚ) < 2 ^ gridExponent value := zpow_pos (by norm_num) _
  have scaled : ∀ factor : ℚ,
      |factor * 2 ^ gridExponent value - value| =
        |factor - value / 2 ^ gridExponent value| *
          2 ^ gridExponent value := by
    intro factor
    rw [← abs_of_pos unit, ← abs_mul, abs_of_pos unit, sub_mul,
      div_mul_cancel₀ _ unit.ne']
  rw [gridPoint, scaled, scaled]
  exact mul_le_mul_of_nonneg_right
    (nearestNat_le (div_nonneg nonneg unit.le) other) unit.le

/-- No number of 53 bits lies nearer, whatever its exponent. -/
theorem gridPoint_le (nonneg : 0 ≤ value) {mantissa : ℕ} {exponent : ℤ}
    (bits : mantissa < 9007199254740992) (least : -1074 ≤ exponent) :
    |gridPoint value - value| ≤ |(mantissa : ℚ) * 2 ^ exponent - value| := by
  rcases le_or_gt (gridExponent value) exponent with coarser | finer
  · -- A point of a coarser grid is one of this grid.
    have isMultiple : (mantissa : ℚ) * 2 ^ exponent =
        (mantissa * 2 ^ (exponent - gridExponent value).toNat : ℕ) *
          2 ^ gridExponent value := by
      have power : (2 : ℚ) ^ exponent =
          2 ^ (exponent - gridExponent value).toNat *
            2 ^ gridExponent value := by
        rw [← zpow_natCast, ← zpow_add₀ (by norm_num)]
        congr 1
        omega
      rw [power]
      push_cast
      ring
    rw [isMultiple]
    exact gridPoint_le_of_multiple nonneg _
  · rcases nonneg.eq_or_lt with rfl | positive
    · have none : gridPoint 0 = 0 := by
        simp [gridPoint, nearestNat, roundHalfEven]
      rw [none, sub_zero, abs_zero]
      exact abs_nonneg _
    · -- All of them lie below the power of two below the fraction.
      have edge := gridPoint_le_of_multiple nonneg 4503599627370496
      have reaches : (4503599627370496 : ℕ) * (2 : ℚ) ^ gridExponent value ≤
          value := by
        have power := le_of_lt_gridExponent positive
          (by omega : -1074 ≤ gridExponent value - 1) (by omega)
        have isPower : (2 : ℚ) ^ (gridExponent value - 1 + 53) =
            (4503599627370496 : ℕ) * 2 ^ gridExponent value := by
          rw [show gridExponent value - 1 + 53 = 52 + gridExponent value by
            omega, zpow_add₀ (by norm_num)]
          norm_num
        rwa [isPower] at power
      have below : (mantissa : ℚ) * 2 ^ exponent ≤
          (4503599627370496 : ℕ) * 2 ^ gridExponent value := by
        have cast : (mantissa : ℚ) ≤ 9007199254740992 := by
          exact_mod_cast bits.le
        have coarse : (2 : ℚ) ^ exponent ≤ 2 ^ (gridExponent value - 1) :=
          zpow_le_zpow_right₀ (by norm_num) (by omega)
        have halved : (2 : ℚ) ^ (gridExponent value - 1) =
            2 ^ gridExponent value / 2 := by
          rw [zpow_sub₀ (by norm_num), zpow_one]
        calc (mantissa : ℚ) * 2 ^ exponent
            ≤ 9007199254740992 * (2 ^ gridExponent value / 2) := by
              rw [← halved]
              exact mul_le_mul cast coarse (zpow_nonneg (by norm_num) _)
                (by norm_num)
          _ = (4503599627370496 : ℕ) * 2 ^ gridExponent value := by
              push_cast
              ring
      rw [abs_of_nonpos (sub_nonpos.mpr reaches)] at edge
      rw [abs_of_nonpos (sub_nonpos.mpr (below.trans reaches))]
      linarith

end Grid

/-! ## The stored number -/

def signedRat (negative : Bool) (value : ℚ) : ℚ :=
  (if negative then -1 else 1) * value

namespace Double

/-- The `double` for a fraction that is not negative, with a sign. -/
def nearest (negative : Bool) (value : ℚ) : Double :=
  let exponent := gridExponent value
  let mantissa := nearestNat (value / 2 ^ exponent)
  if small : mantissa < 9007199254740992 ∧ exponent ≤ 971 then
    finite negative mantissa exponent small.1
      ⟨gridExponent_ge value, small.2⟩
  else if carried : mantissa = 9007199254740992 ∧ exponent < 971 then
    finite negative 4503599627370496 (exponent + 1) (by decide)
      ⟨by have := gridExponent_ge value; omega, by omega⟩
  else infinite negative

/-- The number that a finite value is. -/
def value : Double → Option ℚ
  | finite negative mantissa exponent _ _ =>
      some (signedRat negative (mantissa * 2 ^ exponent))
  | infinite _ => none
  | nan _ => none

/-- Below the largest `double` and half a step more the number is finite. -/
theorem nearest_value (negative : Bool) {fraction : ℚ} (nonneg : 0 ≤ fraction)
    (fits : fraction < 18014398509481983 * 2 ^ (970 : ℤ)) :
    (nearest negative fraction).value =
      some (signedRat negative (gridPoint fraction)) := by
  have unit : (0 : ℚ) < 2 ^ gridExponent fraction := zpow_pos (by norm_num) _
  have scaledNonneg := div_nonneg nonneg unit.le
  have bits :
      fraction / 2 ^ gridExponent fraction < (9007199254740992 : ℕ) := by
    rw [div_lt_iff₀ unit]
    have below := lt_grid fraction
    rw [zpow_add₀ (by norm_num)] at below
    norm_num at below ⊢
    linarith
  have atMost := nearestNat_le_of_lt scaledNonneg bits
  have exponent_le : gridExponent fraction ≤ 971 := by
    by_contra! large
    rcases nonneg.eq_or_lt with rfl | positive
    · have isSmall : gridExponent 0 = -52 := by decide +kernel
      omega
    · have power := le_of_lt_gridExponent positive
        (by norm_num : (-1074 : ℤ) ≤ 971) large
      have isPower : (2 : ℚ) ^ ((971 : ℤ) + 53) =
          18014398509481984 * 2 ^ (970 : ℤ) := by
        rw [show (971 : ℤ) + 53 = 54 + 970 by rfl, zpow_add₀ two_ne_zero]
        congr 1
      rw [isPower] at power
      have stepPositive : (0 : ℚ) < 2 ^ (970 : ℤ) := zpow_pos (by norm_num) _
      generalize (2 : ℚ) ^ (970 : ℤ) = step at power stepPositive fits
      linarith
  unfold nearest
  dsimp only
  split_ifs with small carried
  · rfl
  · have isCarried := carried.1
    simp only [value, gridPoint, isCarried]
    congr 2
    rw [zpow_add₀ (by norm_num)]
    push_cast
    ring
  · -- At the largest exponent the carry takes half a step more.
    exfalso
    have isFull : nearestNat (fraction / 2 ^ gridExponent fraction) =
        9007199254740992 := by omega
    have isLast : gridExponent fraction = 971 := by omega
    have near := (abs_le.mp (nearestNat_near scaledNonneg)).2
    rw [isFull, isLast, show (971 : ℤ) = 1 + 970 by rfl,
      zpow_add₀ two_ne_zero, zpow_one] at near
    have stepPositive : (0 : ℚ) < 2 ^ (970 : ℤ) := zpow_pos (by norm_num) _
    generalize (2 : ℚ) ^ (970 : ℤ) = step at near stepPositive fits
    have half : ((9007199254740992 : ℕ) : ℚ) - 1 / 2 ≤
        fraction / (2 * step) := by linarith
    rw [le_div_iff₀ (by linarith)] at half
    push_cast at half
    linarith

end Double

end Foundation
