import EmbeddedMiddle.Foundation.MachineInt
import Mathlib.Data.List.Forall2
import Mathlib.Data.List.Induction
import Mathlib.Algebra.Order.Ring.Rat
import Mathlib.Tactic.IntervalCases
import Mathlib.Tactic.Ring

/-!
# Numbers as text

How the conversions `%d` and `%lf` print numbers, and the number that a row of
decimal digits stands for.
-/

namespace Foundation

/-- The bytes of a text of ASCII characters. -/
def ascii (text : String) : List UInt8 :=
  text.toList.map fun char => char.toNat.toUInt8

/-! ## Numbers -/

def digitByte (digit : ℕ) : UInt8 := (48 + digit).toUInt8

def decimal (n : ℕ) : List UInt8 :=
  (Nat.toDigits 10 n).map fun char => char.toNat.toUInt8

/-- The last `width` digits, with zeros in front. -/
def paddedDecimal : ℕ → ℕ → List UInt8
  | 0, _ => []
  | width + 1, n => paddedDecimal width (n / 10) ++ [digitByte (n % 10)]

def signed (negative : Bool) (text : List UInt8) : List UInt8 :=
  if negative then 45 :: text else text

/-- `%d`. -/
def intText (n : ℤ) : List UInt8 := signed (decide (n < 0)) (decimal n.natAbs)

/-- A `double`: a sign, 53 bits and a power of two, or one of the values that
are no numbers. -/
inductive Double where
  | finite (negative : Bool) (mantissa : ℕ) (exponent : ℤ)
      (mantissa_lt : mantissa < 9007199254740992)
      (exponent_range : -1074 ≤ exponent ∧ exponent ≤ 971)
  | infinite (negative : Bool)
  | nan (negative : Bool)
  deriving DecidableEq

/-- The nearest integer to `num / den`, the even one of two. -/
def roundHalfEven (num den : ℕ) : ℕ :=
  let quotient := num / den
  let rest := num % den
  if den < 2 * rest ∨ 2 * rest = den ∧ quotient % 2 = 1 then quotient + 1
  else quotient

/-- The millionths of `mantissa * 2 ^ exponent`, rounded. -/
def millionths (mantissa : ℕ) (exponent : ℤ) : ℕ :=
  roundHalfEven (mantissa * 1000000 * 2 ^ exponent.toNat)
    (2 ^ (-exponent).toNat)

/-- Six digits behind the point. -/
def fixedText (millionths : ℕ) : List UInt8 :=
  decimal (millionths / 1000000) ++ 46 :: paddedDecimal 6 millionths

namespace Double

/-- `%lf`. -/
def text : Double → List UInt8
  | finite negative mantissa exponent _ _ =>
      signed negative (fixedText (millionths mantissa exponent))
  | infinite negative => signed negative (ascii "inf")
  | nan negative => signed negative (ascii "nan")

/-- The number that is printed. -/
def printed : Double → Option ℚ
  | finite negative mantissa exponent _ _ =>
      some ((if negative then -1 else 1) *
        (millionths mantissa exponent / 1000000))
  | infinite _ => none
  | nan _ => none

def Finite (value : Double) : Prop := value.printed ≠ none

end Double

/-! ## Digits -/

def isDigit (byte : UInt8) : Bool := 48 ≤ byte && byte ≤ 57

/-- The number that digits stand for. -/
def digitsValue (digits : List UInt8) : ℕ :=
  digits.foldl (fun value byte => value * 10 + (byte.toNat - 48)) 0

theorem digitByte_toNat {digit : ℕ} (small : digit < 10) :
    (digitByte digit).toNat = 48 + digit := by
  simp only [digitByte, Nat.toUInt8, UInt8.toNat_ofNat']
  omega

theorem isDigit_iff {byte : UInt8} :
    isDigit byte = true ↔ 48 ≤ byte.toNat ∧ byte.toNat ≤ 57 := by
  simp [isDigit, UInt8.le_iff_toNat_le]

theorem digitByte_isDigit {digit : ℕ} (small : digit < 10) :
    isDigit (digitByte digit) = true := by
  rw [isDigit_iff, digitByte_toNat small]
  omega

theorem digitsValue_snoc (digits : List UInt8) (byte : UInt8) :
    digitsValue (digits ++ [byte]) =
      digitsValue digits * 10 + (byte.toNat - 48) := by
  simp [digitsValue]

theorem digitsValue_digit {digit : ℕ} (small : digit < 10) :
    digitsValue [digitByte digit] = digit := by
  simp [digitsValue, digitByte_toNat small]

theorem digitsValue_append (left right : List UInt8) :
    digitsValue (left ++ right) =
      digitsValue left * 10 ^ right.length + digitsValue right := by
  induction right using List.reverseRecOn with
  | nil => simp [digitsValue]
  | append_singleton right byte induction =>
      rw [← List.append_assoc, digitsValue_snoc, digitsValue_snoc, induction,
        List.length_append, List.length_singleton, pow_succ]
      ring

theorem digitChar_toByte {digit : ℕ} (small : digit < 10) :
    (Nat.digitChar digit).toNat.toUInt8 = digitByte digit := by
  interval_cases digit <;> rfl

/-- The last digit comes off at the end. -/
theorem decimal_eq (n : ℕ) :
    decimal n = if n < 10 then [digitByte n]
      else decimal (n / 10) ++ [digitByte (n % 10)] := by
  unfold decimal
  rw [Nat.toDigits_eq_if (by decide)]
  split_ifs with small
  · rw [List.map_singleton, digitChar_toByte small]
  · rw [List.map_append, List.map_singleton,
      digitChar_toByte (Nat.mod_lt n (by decide))]

theorem decimal_of_lt {n : ℕ} (small : n < 10) :
    decimal n = [digitByte n] := by
  rw [decimal_eq, if_pos small]

theorem decimal_of_le {n : ℕ} (large : 10 ≤ n) :
    decimal n = decimal (n / 10) ++ [digitByte (n % 10)] := by
  rw [decimal_eq, if_neg (Nat.not_lt.mpr large)]

theorem decimal_isDigit (n : ℕ) :
    ∀ byte ∈ decimal n, isDigit byte = true := by
  induction n using Nat.strongRecOn with
  | ind n induction =>
      rcases Nat.lt_or_ge n 10 with small | large
      · rw [decimal_of_lt small]
        simpa using digitByte_isDigit small
      · rw [decimal_of_le large]
        intro byte member
        rcases List.mem_append.mp member with before | last
        · exact induction (n / 10) (by omega) byte before
        · rw [List.mem_singleton.mp last]
          exact digitByte_isDigit (Nat.mod_lt n (by decide))

theorem decimal_ne_nil (n : ℕ) : decimal n ≠ [] := by
  rw [decimal_eq]
  split_ifs with small
  · exact List.cons_ne_nil _ _
  · simp

theorem digitsValue_decimal (n : ℕ) : digitsValue (decimal n) = n := by
  induction n using Nat.strongRecOn with
  | ind n induction =>
      rcases Nat.lt_or_ge n 10 with small | large
      · rw [decimal_of_lt small, digitsValue_digit small]
      · rw [decimal_of_le large, digitsValue_snoc,
          induction (n / 10) (by omega),
          digitByte_toNat (Nat.mod_lt n (by decide))]
        omega

/-- Nothing but zero starts with a zero. -/
theorem decimal_head {n : ℕ} (positive : 0 < n) :
    (decimal n).head? ≠ some 48 := by
  induction n using Nat.strongRecOn with
  | ind n induction =>
      rcases Nat.lt_or_ge n 10 with small | large
      · intro zero
        rw [decimal_of_lt small, List.head?_cons, Option.some.injEq] at zero
        have value := digitByte_toNat small
        rw [zero] at value
        have : (48 : UInt8).toNat = 48 := rfl
        omega
      · rw [decimal_of_le large,
          List.head?_append_of_ne_nil _ (decimal_ne_nil _)]
        exact induction (n / 10) (by omega) (by omega)

theorem length_paddedDecimal (width n : ℕ) :
    (paddedDecimal width n).length = width := by
  induction width generalizing n with
  | zero => rfl
  | succ width induction => simp [paddedDecimal, induction]

theorem paddedDecimal_isDigit (width n : ℕ) :
    ∀ byte ∈ paddedDecimal width n, isDigit byte = true := by
  induction width generalizing n with
  | zero => simp [paddedDecimal]
  | succ width induction =>
      intro byte member
      rcases List.mem_append.mp member with before | last
      · exact induction (n / 10) byte before
      · rw [List.mem_singleton.mp last]
        exact digitByte_isDigit (Nat.mod_lt n (by decide))

theorem digitsValue_paddedDecimal (width n : ℕ) :
    digitsValue (paddedDecimal width n) = n % 10 ^ width := by
  induction width generalizing n with
  | zero => simp [paddedDecimal, digitsValue, Nat.mod_one]
  | succ width induction =>
      rw [paddedDecimal, digitsValue_snoc, induction,
        digitByte_toNat (Nat.mod_lt n (by decide)), pow_succ',
        Nat.mod_mul]
      omega

/-- The digits on both sides of the point, read as one number. -/
theorem digitsValue_fixed (millionths : ℕ) :
    digitsValue (decimal (millionths / 1000000) ++
      paddedDecimal 6 millionths) = millionths := by
  rw [digitsValue_append, digitsValue_decimal, length_paddedDecimal,
    digitsValue_paddedDecimal]
  omega

/-! ## Texts without a zero byte -/

theorem noZero_of_isDigit {digits : List UInt8}
    (allDigits : ∀ byte ∈ digits, isDigit byte = true) : 0 ∉ digits := by
  intro zero
  exact absurd (allDigits 0 zero) (by decide)

theorem signed_noZero {text : List UInt8} (noZero : 0 ∉ text)
    (negative : Bool) : 0 ∉ signed negative text := by
  cases negative with
  | false => exact noZero
  | true => exact List.not_mem_cons_of_ne_of_not_mem (by decide) noZero

theorem signed_ne_nil {text : List UInt8} (nonempty : text ≠ [])
    (negative : Bool) : signed negative text ≠ [] := by
  cases negative with
  | false => exact nonempty
  | true => exact List.cons_ne_nil _ _

theorem intText_noZero (n : ℤ) : 0 ∉ intText n :=
  signed_noZero (noZero_of_isDigit (decimal_isDigit _)) _

theorem intText_ne_nil (n : ℤ) : intText n ≠ [] :=
  signed_ne_nil (decimal_ne_nil _) _

theorem Double.text_noZero (value : Double) : 0 ∉ value.text := by
  cases value with
  | finite negative mantissa exponent _ _ =>
      apply signed_noZero
      intro zero
      rcases List.mem_append.mp zero with whole | point
      · exact noZero_of_isDigit (decimal_isDigit _) whole
      · rcases List.mem_cons.mp point with dot | fraction
        · exact absurd dot (by decide)
        · exact noZero_of_isDigit (paddedDecimal_isDigit _ _) fraction
  | infinite negative => exact signed_noZero (by decide) negative
  | nan negative => exact signed_noZero (by decide) negative

theorem Double.text_ne_nil (value : Double) : value.text ≠ [] := by
  cases value with
  | finite negative mantissa exponent _ _ =>
      apply signed_ne_nil
      simp [fixedText]
  | infinite negative => exact signed_ne_nil (by decide) negative
  | nan negative => exact signed_ne_nil (by decide) negative

end Foundation
