import EmbeddedMiddle.Foundation.JsonStrings

/-!
# Reading JSON values

Printed numbers are read as what they stand for, and the members of an object
one behind the other.
-/

namespace Foundation

namespace Json

/-! ## Reading numbers -/

/-- A byte that ends a number. -/
def Stops (rest : List UInt8) : Prop :=
  ∀ byte ∈ rest.head?,
    isDigit byte = false ∧ byte ≠ 46 ∧ byte ≠ 101 ∧ byte ≠ 69

/-- The first byte of a number. -/
def Starts (byte : UInt8) : Prop := byte = 45 ∨ isDigit byte = true

theorem digits_append {row rest : List UInt8}
    (allDigits : ∀ byte ∈ row, isDigit byte = true) (some : row ≠ [])
    (ends : ∀ byte ∈ rest.head?, isDigit byte = false) :
    digits (row ++ rest) = .some (row, rest) := by
  have behind : rest.takeWhile isDigit = [] ∧
      rest.dropWhile isDigit = rest := by
    cases rest with
    | nil => exact ⟨rfl, rfl⟩
    | cons byte rest =>
        have last := ends byte rfl
        exact ⟨List.takeWhile_cons_of_neg (by simp [last]),
          List.dropWhile_cons_of_neg (by simp [last])⟩
  have taken : (row ++ rest).takeWhile isDigit = row := by
    rw [List.takeWhile_append_of_pos allDigits, behind.1, List.append_nil]
  have dropped : (row ++ rest).dropWhile isDigit = rest := by
    rw [List.dropWhile_append_of_pos allDigits, behind.2]
  rw [digits, taken, dropped, if_neg some]

theorem whole_decimal (n : ℕ) {rest : List UInt8}
    (ends : ∀ byte ∈ rest.head?, isDigit byte = false) :
    whole (decimal n ++ rest) = some (decimal n, rest) := by
  rw [whole, digits_append (decimal_isDigit n) (decimal_ne_nil n) ends,
    Option.filter_some, if_pos]
  rcases Nat.eq_zero_or_pos n with rfl | positive
  · rfl
  · simpa using .inl (decimal_head positive)

theorem fraction_stops {rest : List UInt8} (stops : Stops rest) :
    fraction rest = some ([], rest) := by
  cases rest with
  | nil => rfl
  | cons byte rest =>
      simp [fraction, optionalByte, (stops byte rfl).2.1]

theorem exponent_stops {rest : List UInt8} (stops : Stops rest) :
    exponent rest = some (0, rest) := by
  cases rest with
  | nil => rfl
  | cons byte rest =>
      simp [exponent, (stops byte rfl).2.2]

theorem decimal_starts (n : ℕ) :
    ∃ byte text, decimal n = byte :: text ∧ isDigit byte = true := by
  cases row : decimal n with
  | nil => exact absurd row (decimal_ne_nil n)
  | cons byte text =>
      have digit := decimal_isDigit n
      rw [row] at digit
      exact ⟨byte, text, rfl, digit byte List.mem_cons_self⟩

theorem optionalByte_signed (negative : Bool) (n : ℕ) (rest : List UInt8) :
    optionalByte 45 (signed negative (decimal n ++ rest)) =
      (negative, decimal n ++ rest) := by
  cases negative with
  | true => rfl
  | false =>
      obtain ⟨byte, text, row, digit⟩ := decimal_starts n
      have noMinus : byte ≠ 45 := by
        rintro rfl
        cases digit
      rw [signed, row]
      simp [optionalByte, noMinus]

theorem signed_append (negative : Bool) (text rest : List UInt8) :
    signed negative text ++ rest = signed negative (text ++ rest) := by
  cases negative with
  | true => rfl
  | false => rfl

theorem numberText_int (n : ℤ) {rest : List UInt8} (stops : Stops rest) :
    numberText (intText n ++ rest) = some ((n : ℚ), rest) := by
  have value : ((if decide (n < 0) = true then -1 else 1) *
      (n.natAbs : ℚ)) = n := by
    rcases lt_or_ge n 0 with negative | positive
    · rw [if_pos (by simpa using negative)]
      have magnitude : (n.natAbs : ℤ) = -n := by omega
      rw [← Int.cast_natCast, magnitude]
      push_cast
      ring
    · rw [if_neg (by simpa using positive)]
      have magnitude : (n.natAbs : ℤ) = n := by omega
      rw [← Int.cast_natCast, magnitude, one_mul]
  rw [numberText, intText, signed_append, optionalByte_signed]
  simp only [whole_decimal _ fun byte inside => (stops byte inside).1,
    fraction_stops stops, exponent_stops stops, Option.bind_eq_bind,
    Option.bind_some, List.append_nil, digitsValue_decimal, value]
  simp

theorem numberText_fixed (negative : Bool) (millionths : ℕ)
    {rest : List UInt8} (stops : Stops rest) :
    numberText (signed negative (fixedText millionths) ++ rest) =
      some ((if negative then -1 else 1) * ((millionths : ℚ) / 1000000),
        rest) := by
  have point : fraction (46 :: paddedDecimal 6 millionths ++ rest) =
      some (paddedDecimal 6 millionths, rest) := by
    have nonempty : paddedDecimal 6 millionths ≠ [] := by
      rw [← List.length_pos_iff, length_paddedDecimal]
      decide
    exact digits_append (paddedDecimal_isDigit 6 millionths) nonempty
      fun byte inside => (stops byte inside).1
  have dot : ∀ byte ∈ (46 :: paddedDecimal 6 millionths ++ rest).head?,
      isDigit byte = false := by
    intro byte first
    cases first
    rfl
  have scale : ((10 : ℚ) ^ ((0 : ℤ) - (6 : ℕ))) = 1 / 1000000 := by
    norm_num
  rw [numberText, signed_append, fixedText, List.append_assoc,
    optionalByte_signed]
  simp only [whole_decimal _ dot, point, exponent_stops stops,
    Option.bind_eq_bind, Option.bind_some, digitsValue_fixed,
    length_paddedDecimal, scale]
  congr 2
  ring

theorem numeral_starts (negative : Bool) (n : ℕ) (rest : List UInt8) :
    ∃ byte text, signed negative (decimal n ++ rest) = byte :: text ∧
      Starts byte := by
  cases negative with
  | true => exact ⟨45, decimal n ++ rest, rfl, .inl rfl⟩
  | false =>
      obtain ⟨byte, text, row, digit⟩ := decimal_starts n
      exact ⟨byte, text ++ rest, by rw [row]; rfl, .inr digit⟩

/-! ## Reading values -/

/-- A number begins neither like a blank nor like another value. -/
theorem starts_visible {byte : UInt8} (starts : Starts byte) :
    isSpace byte = false ∧
      ∀ other ∈ [123, 91, 34, 110, 116, 102], byte ≠ other := by
  rcases starts with rfl | digit
  · decide +kernel
  · obtain ⟨lower, upper⟩ := isDigit_iff.mp digit
    have same : byte = UInt8.ofNat byte.toNat := by simp
    rw [same]
    interval_cases byte.toNat
    all_goals decide +kernel

theorem value_number {byte : UInt8} {text rest : List UInt8} {number : ℚ}
    (starts : Starts byte)
    (found : numberText (byte :: text) = some (number, rest)) (depth : ℕ) :
    value (depth + 1) (32 :: byte :: text) = some (.number number, rest) := by
  obtain ⟨visible, other⟩ := starts_visible starts
  simp only [List.forall_mem_cons] at other
  obtain ⟨brace, bracket, quote, n, t, f, _⟩ := other
  have blank : isSpace 32 = true := by decide
  have here : skip (32 :: byte :: text) = byte :: text := by
    rw [skip, List.dropWhile_cons_of_pos blank,
      List.dropWhile_cons_of_neg (by simp [visible])]
  rw [value, token_space, token_space, token_space, token_cons visible,
    token_cons visible, token_cons visible, if_neg brace, if_neg bracket,
    if_neg quote]
  simp [here, scalar, word, ascii, List.cons_prefix_cons, n.symm, t.symm,
    f.symm, found]

theorem value_int (n : ℤ) {rest : List UInt8} (stops : Stops rest)
    (depth : ℕ) :
    value (depth + 1) (32 :: (intText n ++ rest)) =
      some (.number n, rest) := by
  have found := numberText_int n stops
  obtain ⟨byte, text, split, starts⟩ :=
    numeral_starts (decide (n < 0)) n.natAbs rest
  rw [intText, signed_append, split] at found ⊢
  exact value_number starts found depth

theorem value_fixed (negative : Bool) (millionths : ℕ) {rest : List UInt8}
    (stops : Stops rest) (depth : ℕ) :
    value (depth + 1)
        (32 :: (signed negative (fixedText millionths) ++ rest)) =
      some (.number
        ((if negative then -1 else 1) * ((millionths : ℚ) / 1000000)),
        rest) := by
  have found := numberText_fixed negative millionths stops
  obtain ⟨byte, text, split, starts⟩ :=
    numeral_starts negative (millionths / 1000000)
      (46 :: paddedDecimal 6 millionths ++ rest)
  rw [signed_append, fixedText, List.append_assoc, split] at found ⊢
  exact value_number starts found depth

theorem value_string (text : List UInt8) (depth : ℕ) :
    value (depth + 1) (32 :: 34 :: text) =
      (chars text).map fun (row, rest) => (.string row, rest) := by
  have visible : isSpace 34 = false := by decide
  rw [value, token_space, token_space, token_space, token_cons visible,
    token_cons visible, token_cons visible]
  rfl

theorem member_eq_some_iff {value : List UInt8 → Option (Json × List UInt8)}
    {key text behind rest : List UInt8} {found : Json}
    (shape : text = 32 :: 34 :: (key ++ 34 :: 58 :: behind)) :
    member value text = some ((key, found), rest) ↔
      Plain key ∧ value behind = some (found, rest) := by
  have visible : isSpace 34 = false := by decide
  have colon : token 58 (58 :: behind) = some behind := by
    rw [token_cons (by decide), if_pos rfl]
  rw [shape, member, token_space, token_cons visible, if_pos rfl]
  simp only [Option.bind_eq_bind, Option.bind_some,
    Option.bind_eq_some_iff, Prod.exists, Option.some.injEq,
    Prod.mk.injEq]
  constructor
  · rintro ⟨_, after, keyFound, start, separated, _, _, valueFound,
      ⟨rfl, rfl⟩, rfl⟩
    obtain ⟨plain, rfl⟩ := chars_eq_iff.mp keyFound
    rw [colon] at separated
    cases separated
    exact ⟨plain, valueFound⟩
  · rintro ⟨plain, valueFound⟩
    exact ⟨key, _, chars_plain plain _, behind, colon, found, rest,
      valueFound, ⟨rfl, rfl⟩, rfl⟩

theorem items_cons_iff {Item : Type}
    {item : List UInt8 → Option (Item × List UInt8)} {close : UInt8}
    {fuel : ℕ} {text rest : List UInt8} {first : Item} {more : List Item} :
    items item close (fuel + 1) text = some (first :: more, rest) ↔
      ∃ behind, item text = some (first, behind) ∧
        ((∃ next, token 44 behind = some next ∧
            items item close fuel next = some (more, rest)) ∨
          token 44 behind = none ∧ token close behind = some rest ∧
            more = []) := by
  rw [items]
  cases one : item text with
  | none => simp
  | some result =>
      obtain ⟨other, behind⟩ := result
      simp only [Option.bind_eq_bind, Option.bind_some, Option.some.injEq,
        Prod.mk.injEq]
      cases comma : token 44 behind with
      | none =>
          simp only [Option.bind_eq_some_iff, Option.some.injEq,
            Prod.mk.injEq, List.cons.injEq]
          constructor
          · rintro ⟨after, closed, ⟨rfl, rfl⟩, rfl⟩
            exact ⟨behind, ⟨rfl, rfl⟩, .inr ⟨comma, closed, rfl⟩⟩
          · rintro ⟨_, ⟨rfl, rfl⟩, ⟨next, found, _⟩ | ⟨_, closed, rfl⟩⟩
            · rw [comma] at found
              cases found
            · exact ⟨rest, closed, ⟨rfl, rfl⟩, rfl⟩
      | some next =>
          simp only [Option.bind_eq_some_iff, Option.some.injEq,
            Prod.mk.injEq, Prod.exists, List.cons.injEq]
          constructor
          · rintro ⟨others, after, found, ⟨rfl, rfl⟩, rfl⟩
            exact ⟨behind, ⟨rfl, rfl⟩, .inl ⟨next, comma, found⟩⟩
          · rintro ⟨_, ⟨rfl, rfl⟩, ⟨_, found, others⟩ | ⟨absent, _⟩⟩
            · rw [comma] at found
              cases found
              exact ⟨more, rest, others, ⟨rfl, rfl⟩, rfl⟩
            · rw [comma] at absent
              cases absent

theorem parse_object_iff {text : List UInt8}
    {members : List (List UInt8 × Json)}
    (inhabited : token 125 text = none) :
    parse (123 :: text) = some (.object members) ↔
      ∃ rest, items (member (value text.length.succ)) 125 text.length text =
        some (members, rest) ∧ skip rest = [] := by
  have visible : isSpace 123 = false := by decide
  rw [parse, List.length_cons, value, token_cons visible, if_pos rfl]
  simp only [bracketed, inhabited]
  cases found : items (member (value text.length.succ)) 125 text.length
      text with
  | none => simp
  | some result =>
      obtain ⟨others, rest⟩ := result
      simp [and_comm]

end Json

end Foundation
