import EmbeddedMiddle.Foundation.DoubleRounding
import EmbeddedMiddle.Foundation.JsonValues

/-!
# Reading numbers with `sscanf`

The directives of a format one behind the other: blanks, bytes that have to be
there and `%lf`, which stores the nearest `double`.  What `%lf` prints is read
back by `%lf`.
-/

namespace Foundation

/-! ## The conversion -/

namespace Strtod

/-- `isspace`. -/
def isBlank (byte : UInt8) : Bool := byte == 32 || 9 ≤ byte && byte ≤ 13

/-- A letter without its case. -/
def lower (byte : UInt8) : UInt8 :=
  if 65 ≤ byte ∧ byte ≤ 90 then byte + 32 else byte

def sign : List UInt8 → Bool × List UInt8
  | [] => (false, [])
  | first :: text =>
      if first = 45 then (true, text)
      else if first = 43 then (false, text)
      else (false, first :: text)

/-- The letters of a word that are there, in either case. -/
def matched : List UInt8 → List UInt8 → ℕ
  | letter :: word, byte :: text =>
      if lower byte = letter then matched word text + 1 else 0
  | _, _ => 0

/-- The power behind the letter that announces it; without digits the item is
only the beginning of a number. -/
def power (letter : UInt8) : List UInt8 → Option (ℤ × List UInt8)
  | [] => some (0, [])
  | first :: text =>
      if lower first = letter then
        let (negative, text) := sign text
        (Json.digits text).map fun (row, text) =>
          (if negative then -(digitsValue row : ℤ) else digitsValue row, text)
      else some (0, first :: text)

/-- Digits with a point in them, behind it or at their end. -/
def pointed (isDigit : UInt8 → Bool) (text : List UInt8) :
    Option ((List UInt8 × List UInt8) × List UInt8) :=
  let row := text.takeWhile isDigit
  let text := text.dropWhile isDigit
  let (point, text) := Json.optionalByte 46 text
  let behind := if point then text.takeWhile isDigit else []
  let text := if point then text.dropWhile isDigit else text
  if row ++ behind = [] then none else some ((row, behind), text)

def decimalNumber (text : List UInt8) : Option (ℚ × List UInt8) := do
  let ((row, behind), text) ← pointed isDigit text
  let (power, text) ← power 101 text
  some (digitsValue (row ++ behind) * 10 ^ (power - behind.length), text)

def hexNumber (text : List UInt8) : Option (ℚ × List UInt8) := do
  let ((row, behind), text) ← pointed (fun byte => (Json.hexValue byte).isSome)
    text
  let (power, text) ← power 112 text
  let value := (row ++ behind).foldl
    (fun value byte => value * 16 + (Json.hexValue byte).getD 0) 0
  some (value * 2 ^ (power - 4 * behind.length), text)

/-- `%lf` behind the blanks. -/
def read (text : List UInt8) : Option (Double × List UInt8) :=
  let (negative, text) := sign text
  if matched (ascii "inf") text = 3 then
    let more := matched (ascii "inity") (text.drop 3)
    if more = 0 then some (.infinite negative, text.drop 3)
    else if more = 5 then some (.infinite negative, text.drop 8)
    else none
  else if matched (ascii "nan") text = 3 then
    let (opened, behind) := Json.optionalByte 40 (text.drop 3)
    if opened then
      let (closed, behind) := Json.optionalByte 41 (behind.dropWhile
        fun byte => isDigit byte || byte == 95 ||
          97 ≤ lower byte && lower byte ≤ 122)
      if closed then some (.nan negative, behind) else none
    else some (.nan negative, behind)
  else if matched (ascii "0x") text = 2 then
    (hexNumber (text.drop 2)).map fun (value, text) =>
      (.nearest negative value, text)
  else
    (decimalNumber text).map fun (value, text) =>
      (.nearest negative value, text)

end Strtod

/-! ## Formats -/

inductive ScanDirective where
  | blanks
  | byte (expected : UInt8)
  | double

/-- `sscanf`: what it returns and the values it stores.  At the end of the
text it returns EOF if nothing has been stored. -/
def sscanf (text : List UInt8) :
    List ScanDirective → List Double → ℤ × List Double
  | [], stored => (stored.length, stored)
  | .blanks :: format, stored =>
      sscanf (text.dropWhile Strtod.isBlank) format stored
  | .byte expected :: format, stored =>
      match text with
      | [] => (if stored = [] then -1 else stored.length, stored)
      | first :: text =>
          if first = expected then sscanf text format stored
          else (stored.length, stored)
  | .double :: format, stored =>
      match text.dropWhile Strtod.isBlank with
      | [] => (if stored = [] then -1 else stored.length, stored)
      | first :: text =>
          match Strtod.read (first :: text) with
          | none => (stored.length, stored)
          | some (value, text) => sscanf text format (stored ++ [value])

/-! ## Reading what was printed -/

/-- The value that `%lf` stores for what `%lf` prints. -/
def Double.reread : Double → Double
  | finite negative mantissa exponent _ _ =>
      nearest negative (millionths mantissa exponent / 1000000)
  | infinite negative => .infinite negative
  | nan negative => .nan negative

namespace Strtod

/-- A byte with which no number goes on. -/
def Breaks (rest : List UInt8) : Prop :=
  ∀ byte ∈ rest.head?, isDigit byte = false ∧ byte ≠ 46 ∧
    lower byte ≠ 101 ∧ lower byte ≠ 105 ∧ byte ≠ 40

theorem span_append {accept : UInt8 → Bool} {row rest : List UInt8}
    (all : ∀ byte ∈ row, accept byte = true)
    (ends : ∀ byte ∈ rest.head?, accept byte = false) :
    (row ++ rest).takeWhile accept = row ∧
      (row ++ rest).dropWhile accept = rest := by
  have behind : rest.takeWhile accept = [] ∧ rest.dropWhile accept = rest := by
    cases rest with
    | nil => exact ⟨rfl, rfl⟩
    | cons byte rest =>
        have last := ends byte rfl
        exact ⟨List.takeWhile_cons_of_neg (by simp [last]),
          List.dropWhile_cons_of_neg (by simp [last])⟩
  constructor
  · rw [List.takeWhile_append_of_pos all, behind.1, List.append_nil]
  · rw [List.dropWhile_append_of_pos all, behind.2]

theorem lower_digit {byte : UInt8} (digit : isDigit byte = true) :
    lower byte = byte := by
  have range := isDigit_iff.mp digit
  rw [lower, if_neg]
  simp only [UInt8.le_iff_toNat_le]
  intro ⟨above, _⟩
  have bound : 65 ≤ byte.toNat := above
  omega

theorem sign_signed (negative : Bool) (n : ℕ) (rest : List UInt8) :
    sign (signed negative (decimal n ++ rest)) =
      (negative, decimal n ++ rest) := by
  cases negative with
  | true => rfl
  | false =>
      obtain ⟨byte, text, row, digit⟩ := Json.decimal_starts n
      have noSign : byte ≠ 45 ∧ byte ≠ 43 := by
        constructor
        · rintro rfl
          cases digit
        · rintro rfl
          cases digit
      rw [signed, row]
      simp [sign, noSign]

/-- Digits are no word. -/
theorem matched_digit {byte letter : UInt8} (digit : isDigit byte = true)
    (isLetter : isDigit letter = false) (word text : List UInt8) :
    matched (letter :: word) (byte :: text) = 0 := by
  rw [matched, if_neg]
  rw [lower_digit digit]
  rintro rfl
  rw [digit] at isLetter
  cases isLetter

theorem power_breaks {rest : List UInt8} (breaks : Breaks rest) :
    power 101 rest = some (0, rest) := by
  cases rest with
  | nil => rfl
  | cons byte rest =>
      have other := (breaks byte rfl).2.2.1
      simp [power, other]

theorem decimalNumber_fixed (millionths : ℕ) {rest : List UInt8}
    (breaks : Breaks rest) :
    decimalNumber (fixedText millionths ++ rest) =
      some ((millionths : ℚ) / 1000000, rest) := by
  have row := @span_append isDigit (decimal (millionths / 1000000))
    (46 :: (paddedDecimal 6 millionths ++ rest))
    (decimal_isDigit _) (by simp [isDigit])
  have behind := @span_append isDigit (paddedDecimal 6 millionths) rest
    (paddedDecimal_isDigit 6 millionths)
    (fun byte inside => (breaks byte inside).1)
  have some : decimal (millionths / 1000000) ++
      paddedDecimal 6 millionths ≠ [] := by
    simp [decimal_ne_nil]
  have scale : ((10 : ℚ) ^ ((0 : ℤ) - (6 : ℕ))) = 1 / 1000000 := by
    norm_num
  have halves : pointed isDigit (fixedText millionths ++ rest) =
      .some ((decimal (millionths / 1000000), paddedDecimal 6 millionths),
        rest) := by
    rw [fixedText, List.append_assoc, List.cons_append]
    simp only [pointed, row.1, row.2, Json.optionalByte, if_true, behind.1,
      behind.2, if_neg some]
  rw [decimalNumber, halves]
  simp only [Option.bind_eq_bind, Option.bind_some, power_breaks breaks,
    digitsValue_fixed, length_paddedDecimal, scale]
  congr 2
  ring

/-- The two bytes at which a printed number begins. -/
theorem fixedText_starts (millionths : ℕ) (rest : List UInt8) :
    ∃ first second text,
      fixedText millionths ++ rest = first :: second :: text ∧
        isDigit first = true ∧ lower second ≠ 120 := by
  obtain ⟨first, text, row, digit⟩ :=
    Json.decimal_starts (millionths / 1000000)
  have all := decimal_isDigit (millionths / 1000000)
  rw [fixedText, row]
  rw [row] at all
  cases text with
  | nil => exact ⟨first, 46, _, rfl, digit, by decide⟩
  | cons second text =>
      have isSecond := all second (by simp)
      refine ⟨first, second, _, rfl, digit, ?_⟩
      rw [lower_digit isSecond]
      rintro rfl
      cases isSecond

theorem read_finite (negative : Bool) (millionths : ℕ) {rest : List UInt8}
    (breaks : Breaks rest) :
    read (signed negative (fixedText millionths) ++ rest) =
      some (.nearest negative ((millionths : ℚ) / 1000000), rest) := by
  obtain ⟨first, second, text, starts, digit, noHex⟩ :=
    fixedText_starts millionths rest
  have noInf : matched (ascii "inf") (first :: second :: text) = 0 :=
    matched_digit digit (by decide) _ _
  have noNan : matched (ascii "nan") (first :: second :: text) = 0 :=
    matched_digit digit (by decide) _ _
  have short : matched (ascii "0x") (first :: second :: text) ≠ 2 := by
    change matched [48, 120] (first :: second :: text) ≠ 2
    simp only [matched, if_neg noHex]
    split_ifs <;> decide
  have unsigned : sign (signed negative (fixedText millionths) ++ rest) =
      (negative, first :: second :: text) := by
    rw [Json.signed_append, ← starts, fixedText, List.append_assoc]
    exact sign_signed negative _ _
  rw [read, unsigned]
  simp only [noInf, noNan, if_neg short]
  rw [← starts, decimalNumber_fixed millionths breaks]
  rfl

theorem matched_breaks {rest : List UInt8} (breaks : Breaks rest) :
    matched (ascii "inity") rest = 0 := by
  cases rest with
  | nil => rfl
  | cons byte rest =>
      have other := (breaks byte rfl).2.2.2.1
      change matched [105, 110, 105, 116, 121] (byte :: rest) = 0
      rw [matched, if_neg other]

/-- What `%lf` prints is read back, however the text goes on. -/
theorem read_text (value : Double) {rest : List UInt8}
    (breaks : Breaks rest) :
    read (value.text ++ rest) = some (value.reread, rest) := by
  cases value with
  | finite negative mantissa exponent _ _ =>
      exact read_finite negative _ breaks
  | infinite negative =>
      have unsigned : sign ((Double.infinite negative).text ++ rest) =
          (negative, 105 :: 110 :: 102 :: rest) := by
        cases negative <;> rfl
      have isInf : matched (ascii "inf") (105 :: 110 :: 102 :: rest) = 3 := by
        change matched [105, 110, 102] (105 :: 110 :: 102 :: rest) = 3
        simp [matched, lower]
      rw [read, unsigned]
      simp only [isInf, if_true, List.drop_succ_cons, List.drop_zero,
        matched_breaks breaks]
      rfl
  | nan negative =>
      have unsigned : sign ((Double.nan negative).text ++ rest) =
          (negative, 110 :: 97 :: 110 :: rest) := by
        cases negative <;> rfl
      have noInf : matched (ascii "inf") (110 :: 97 :: 110 :: rest) = 0 := by
        change matched [105, 110, 102] (110 :: 97 :: 110 :: rest) = 0
        simp [matched, lower]
      have isNan : matched (ascii "nan") (110 :: 97 :: 110 :: rest) = 3 := by
        change matched [110, 97, 110] (110 :: 97 :: 110 :: rest) = 3
        simp [matched, lower]
      have closed : Json.optionalByte 40 rest = (false, rest) := by
        cases rest with
        | nil => rfl
        | cons byte rest =>
            exact if_neg (breaks byte rfl).2.2.2.2
      rw [read, unsigned]
      simp only [noInf, isNan, List.drop_succ_cons, List.drop_zero, closed]
      rfl

end Strtod

/-- No number begins with a blank. -/
theorem Double.text_starts (value : Double) :
    ∃ first text, value.text = first :: text ∧
      Strtod.isBlank first = false := by
  have digits : ∀ (negative : Bool) (millionths : ℕ), ∃ first text,
      signed negative (fixedText millionths) = first :: text ∧
        Strtod.isBlank first = false := by
    intro negative millionths
    obtain ⟨first, text, row, digit⟩ :=
      Json.decimal_starts (millionths / 1000000)
    cases negative with
    | true => exact ⟨45, _, rfl, rfl⟩
    | false =>
        refine ⟨first, _, by rw [signed, fixedText, row]; rfl, ?_⟩
        have range := isDigit_iff.mp digit
        simp only [Strtod.isBlank, Bool.or_eq_false_iff, beq_eq_false_iff_ne,
          Bool.and_eq_false_iff, decide_eq_false_iff_not,
          UInt8.le_iff_toNat_le, ne_eq, ← UInt8.toNat_inj]
        have nine : (9 : UInt8).toNat = 9 := rfl
        have last : (13 : UInt8).toNat = 13 := rfl
        have blank : (32 : UInt8).toNat = 32 := rfl
        omega
  cases value with
  | finite negative mantissa exponent _ _ => exact digits negative _
  | infinite negative => cases negative <;> exact ⟨_, _, rfl, rfl⟩
  | nan negative => cases negative <;> exact ⟨_, _, rfl, rfl⟩

theorem sscanf_byte (byte : UInt8) (text : List UInt8)
    (format : List ScanDirective) (stored : List Double) :
    sscanf (byte :: text) (.byte byte :: format) stored =
      sscanf text format stored := by
  rw [sscanf, if_pos rfl]

theorem sscanf_blank {byte : UInt8} (blank : Strtod.isBlank byte = true)
    (text : List UInt8) (format : List ScanDirective)
    (stored : List Double) :
    sscanf (byte :: text) (.blanks :: format) stored =
      sscanf text (.blanks :: format) stored := by
  rw [sscanf, List.dropWhile_cons_of_pos blank, sscanf]

theorem sscanf_noBlank {byte : UInt8} (noBlank : Strtod.isBlank byte = false)
    (text : List UInt8) (format : List ScanDirective)
    (stored : List Double) :
    sscanf (byte :: text) (.blanks :: format) stored =
      sscanf (byte :: text) format stored := by
  rw [sscanf, List.dropWhile_cons_of_neg (by simp [noBlank])]

theorem Double.dropBlank_text (value : Double) (rest : List UInt8) :
    (value.text ++ rest).dropWhile Strtod.isBlank = value.text ++ rest := by
  obtain ⟨first, text, starts, noBlank⟩ := value.text_starts
  rw [starts, List.cons_append, List.dropWhile_cons_of_neg (by simp [noBlank])]

theorem sscanf_double (value : Double) {rest : List UInt8}
    (breaks : Strtod.Breaks rest) (format : List ScanDirective)
    (stored : List Double) :
    sscanf (value.text ++ rest) (.double :: format) stored =
      sscanf rest format (stored ++ [value.reread]) := by
  obtain ⟨first, text, starts, _⟩ := value.text_starts
  have read := Strtod.read_text value breaks
  have kept := value.dropBlank_text rest
  rw [starts, List.cons_append] at read kept
  rw [sscanf, starts, List.cons_append, kept]
  simp only [read]

/-- Behind blanks the value is found all the same. -/
theorem sscanf_blanks_double (value : Double) {rest : List UInt8}
    (breaks : Strtod.Breaks rest) (format : List ScanDirective)
    (stored : List Double) :
    sscanf (value.text ++ rest) (.blanks :: .double :: format) stored =
      sscanf rest format (stored ++ [value.reread]) := by
  rw [sscanf, value.dropBlank_text, sscanf_double value breaks]

/-! ## The precision -/

namespace Double

theorem millionths_near (mantissa : ℕ) (exponent : ℤ) :
    |(millionths mantissa exponent : ℚ) - mantissa * 2 ^ exponent * 1000000| ≤
      1 / 2 := by
  have near := roundHalfEven_near
    (mantissa * 1000000 * 2 ^ exponent.toNat)
    (Nat.two_pow_pos (-exponent).toNat)
  have scaled : ((mantissa * 1000000 * 2 ^ exponent.toNat : ℕ) : ℚ) /
      ((2 ^ (-exponent).toNat : ℕ) : ℚ) =
        mantissa * 2 ^ exponent * 1000000 := by
    push_cast
    rcases le_total 0 exponent with up | down
    · obtain ⟨power, rfl⟩ := Int.eq_ofNat_of_zero_le up
      have none : (-(power : ℤ)).toNat = 0 := by omega
      simp only [none, Int.toNat_natCast, pow_zero, div_one, zpow_natCast]
      ring
    · obtain ⟨power, isPower⟩ := Int.eq_ofNat_of_zero_le
        (Int.neg_nonneg.mpr down)
      obtain rfl : exponent = -(power : ℤ) := by omega
      have none : (-(power : ℤ)).toNat = 0 := by omega
      simp only [none, neg_neg, Int.toNat_natCast, pow_zero, mul_one,
        zpow_neg, zpow_natCast]
      field_simp
  rwa [scaled] at near

/-- No `double` is so large that the printed fraction would overflow. -/
theorem millionths_lt {mantissa : ℕ} {exponent : ℤ}
    (bits : mantissa < 9007199254740992) (largest : exponent ≤ 971) :
    (millionths mantissa exponent : ℚ) / 1000000 <
      18014398509481983 * 2 ^ (970 : ℤ) := by
  have near := (abs_le.mp (millionths_near mantissa exponent)).2
  have step : (1 : ℚ) ≤ 2 ^ (970 : ℤ) :=
    one_le_zpow₀ (by norm_num) (by norm_num)
  have twice : (2 : ℚ) ^ (971 : ℤ) = 2 * 2 ^ (970 : ℤ) := by
    rw [show (971 : ℤ) = 1 + 970 by rfl, zpow_add₀ two_ne_zero, zpow_one]
  have power : (2 : ℚ) ^ exponent ≤ 2 * 2 ^ (970 : ℤ) :=
    twice ▸ zpow_le_zpow_right₀ (by norm_num) largest
  have cast : (mantissa : ℚ) ≤ 9007199254740991 := by
    exact_mod_cast Nat.le_of_lt_succ bits
  have value : (mantissa : ℚ) * 2 ^ exponent ≤
      9007199254740991 * (2 * 2 ^ (970 : ℤ)) :=
    mul_le_mul cast power (zpow_nonneg (by norm_num) _) (by norm_num)
  generalize (2 : ℚ) ^ (970 : ℤ) = unit at step value ⊢
  rw [div_lt_iff₀ (by norm_num)]
  linarith

theorem signedRat_sub (negative : Bool) (left right : ℚ) :
    |signedRat negative left - signedRat negative right| = |left - right| := by
  cases negative with
  | false => simp [signedRat]
  | true =>
      rw [signedRat, signedRat, ← mul_sub, abs_mul]
      simp

/-- What is read back is off by a millionth at most: the printed fraction is off
by half of one, and the stored number is no farther from the fraction than the
one that was printed. -/
theorem reread_near {value : Double} {exact : ℚ}
    (isValue : value.value = some exact) :
    ∃ stored, value.reread.value = some stored ∧
      |stored - exact| ≤ 1 / 1000000 := by
  cases value with
  | finite negative mantissa exponent bits range =>
      cases isValue
      have nonneg : (0 : ℚ) ≤ (millionths mantissa exponent : ℚ) / 1000000 := by
        positivity
      refine ⟨_, nearest_value negative nonneg (millionths_lt bits range.2), ?_⟩
      rw [signedRat_sub]
      have closer := gridPoint_le nonneg bits range.1
      have printed : |(mantissa : ℚ) * 2 ^ exponent -
          (millionths mantissa exponent : ℚ) / 1000000| ≤ 1 / 2000000 := by
        have near := abs_le.mp (millionths_near mantissa exponent)
        rw [abs_le]
        constructor <;> linarith [near.1, near.2]
      have both := abs_sub_le
        (gridPoint ((millionths mantissa exponent : ℚ) / 1000000))
        ((millionths mantissa exponent : ℚ) / 1000000)
        ((mantissa : ℚ) * 2 ^ exponent)
      rw [abs_sub_comm (_ / _) _] at both
      linarith
  | infinite _ => cases isValue
  | nan _ => cases isValue

end Double

end Foundation
