import EmbeddedMiddle.Foundation.Json

/-!
# Reading JSON strings

A string without a character that has to be escaped is read as itself.  An
escape is longer than what it stands for and hides no quotation mark that it
does not stand for, so nothing else can be read as the bytes that are there.
-/

namespace Foundation

namespace Json

/-! ## Reading tokens -/

@[simp] theorem token_space (byte : UInt8) (text : List UInt8) :
    token byte (32 :: text) = token byte text := by
  have blank : isSpace 32 = true := by decide
  rw [token, skip, List.dropWhile_cons_of_pos blank]
  rfl

theorem token_cons {first : UInt8} (visible : isSpace first = false)
    (byte : UInt8) (text : List UInt8) :
    token byte (first :: text) = if first = byte then some text else none := by
  rw [token, skip, List.dropWhile_cons_of_neg (by simp [visible])]

/-! ## Reading strings -/

/-- Nothing that a string would have to escape. -/
def Plain (text : List UInt8) : Prop :=
  ∀ byte ∈ text, 32 ≤ byte ∧ byte ≠ 34 ∧ byte ≠ 92

instance (text : List UInt8) : Decidable (Plain text) :=
  inferInstanceAs (Decidable (∀ byte ∈ text, _))

theorem charsFrom_plain {text : List UInt8} (plain : Plain text)
    (rest : List UInt8) {fuel : ℕ} (enough : text.length < fuel) :
    charsFrom fuel (text ++ 34 :: rest) = some (text, rest) := by
  induction text generalizing fuel with
  | nil =>
      obtain ⟨fuel, rfl⟩ := Nat.exists_eq_add_one_of_ne_zero
        (Nat.ne_zero_of_lt enough)
      rfl
  | cons byte text induction =>
      obtain ⟨fuel, rfl⟩ := Nat.exists_eq_add_one_of_ne_zero
        (Nat.ne_zero_of_lt enough)
      rw [Plain, List.forall_mem_cons] at plain
      obtain ⟨⟨visible, noQuote, noEscape⟩, plain⟩ := plain
      have first : char byte (text ++ 34 :: rest) =
          some ([byte], text ++ 34 :: rest) := by
        rw [char, if_neg noEscape, if_neg (UInt8.not_lt.mpr visible)]
      have more := induction plain (Nat.lt_of_succ_lt_succ enough)
      rw [List.cons_append, charsFrom, if_neg noQuote, first]
      simp [more]

theorem chars_plain {text : List UInt8} (plain : Plain text)
    (rest : List UInt8) : chars (text ++ 34 :: rest) = some (text, rest) :=
  charsFrom_plain plain rest (by simp)

/-- What characters are read from: from themselves, or from more bytes with no
more quotation marks. -/
def Stands (taken chars : List UInt8) : Prop :=
  taken = chars ∧ Plain taken ∨
    chars.length < taken.length ∧ taken.count 34 ≤ chars.count 34

theorem Stands.append {left right leftChars rightChars : List UInt8}
    (leftStands : Stands left leftChars)
    (rightStands : Stands right rightChars) :
    Stands (left ++ right) (leftChars ++ rightChars) := by
  rcases leftStands with ⟨rfl, leftPlain⟩ | ⟨leftLess, leftCount⟩
  · rcases rightStands with ⟨rfl, rightPlain⟩ | ⟨rightLess, rightCount⟩
    · left
      refine ⟨rfl, ?_⟩
      intro byte inside
      rcases List.mem_append.mp inside with before | behind
      · exact leftPlain byte before
      · exact rightPlain byte behind
    · right
      simp only [List.length_append, List.count_append]
      omega
  · right
    simp only [List.length_append, List.count_append]
    rcases rightStands with ⟨rfl, _⟩ | ⟨rightLess, rightCount⟩
    · omega
    · omega

theorem hexValue_some {byte : UInt8} {value : ℕ}
    (found : hexValue byte = some value) : byte ≠ 34 ∧ value < 16 := by
  constructor
  · rintro rfl
    cases found
  · unfold hexValue at found
    simp only [UInt8.le_iff_toNat_le] at found
    split_ifs at found with decimal upper lower
    · cases found
      have : (57 : UInt8).toNat = 57 := rfl
      omega
    · cases found
      have : (70 : UInt8).toNat = 70 := rfl
      omega
    · cases found
      have : (102 : UInt8).toNat = 102 := rfl
      omega

theorem hex4_some {text rest : List UInt8} {code : ℕ}
    (found : hex4 text = some (code, rest)) :
    ∃ taken, text = taken ++ rest ∧ taken.length = 4 ∧
      taken.count 34 = 0 ∧ code < 65536 := by
  match text, found with
  | a :: b :: c :: d :: text, found =>
      simp only [hex4, Option.bind_eq_bind, Option.bind_eq_some_iff,
        Option.some.injEq, Prod.mk.injEq] at found
      obtain ⟨first, foundA, second, foundB, third, foundC, fourth, foundD,
        rfl, rfl⟩ := found
      obtain ⟨noA, smallA⟩ := hexValue_some foundA
      obtain ⟨noB, smallB⟩ := hexValue_some foundB
      obtain ⟨noC, smallC⟩ := hexValue_some foundC
      obtain ⟨noD, smallD⟩ := hexValue_some foundD
      refine ⟨[a, b, c, d], rfl, rfl, ?_, by omega⟩
      simp [List.count_eq_zero, noA.symm, noB.symm, noC.symm, noD.symm]

theorem length_utf8_le (code : ℕ) : (utf8 code).length ≤ 4 := by
  unfold utf8
  split_ifs
  all_goals simp

theorem lowSurrogate_some {text rest : List UInt8} {code : ℕ}
    (found : lowSurrogate text = some (code, rest)) :
    ∃ taken, text = taken ++ rest ∧ taken.length = 6 ∧
      taken.count 34 = 0 := by
  match text, found with
  | backslash :: u :: text, found =>
      rw [lowSurrogate] at found
      split_ifs at found with introduced
      obtain ⟨rfl, rfl⟩ := introduced
      have digits := (Option.filter_eq_some_iff.mp found).1
      obtain ⟨taken, rfl, length, count, _⟩ := hex4_some digits
      refine ⟨92 :: 117 :: taken, rfl, by simp [length], ?_⟩
      simpa using count

/-- With the backslash and the letter before them the digits are more than
what they stand for. -/
theorem unicode_some {text rest first : List UInt8}
    (found : unicode text = some (first, rest)) :
    ∃ taken, text = taken ++ rest ∧ 3 < taken.length ∧
      first.length < taken.length + 2 ∧ taken.count 34 = 0 := by
  simp only [unicode, Option.bind_eq_bind, Option.bind_eq_some_iff,
    Prod.exists] at found
  obtain ⟨code, behind, digits, found⟩ := found
  obtain ⟨taken, rfl, length, count, _⟩ := hex4_some digits
  have alone : some (utf8 code, behind) = some (first, rest) →
      ∃ consumed, taken ++ behind = consumed ++ rest ∧
        3 < consumed.length ∧ first.length < consumed.length + 2 ∧
        consumed.count 34 = 0 := by
    intro same
    cases same
    have short := length_utf8_le code
    exact ⟨taken, rfl, by omega, by omega, count⟩
  split_ifs at found with high
  · cases pair : lowSurrogate behind with
    | none =>
        rw [pair] at found
        exact alone found
    | some half =>
        obtain ⟨low, after⟩ := half
        rw [pair] at found
        obtain ⟨rfl, rfl⟩ := Prod.mk.inj (Option.some.inj found)
        obtain ⟨more, rfl, moreLength, moreCount⟩ := lowSurrogate_some pair
        have short := length_utf8_le
          (65536 + (code - 55296) * 1024 + (low - 56320))
        refine ⟨taken ++ more, (List.append_assoc _ _ _).symm, ?_, ?_, ?_⟩
        · rw [List.length_append]
          omega
        · rw [List.length_append]
          omega
        · rw [List.count_append, count, moreCount]
  · exact alone found

theorem escaped_quote {byte value : UInt8}
    (found : escaped byte = some value) : byte = 34 → value = 34 := by
  rintro rfl
  cases found
  rfl

theorem char_stands {byte : UInt8} {text first rest : List UInt8}
    (noQuote : byte ≠ 34) (found : char byte text = some (first, rest)) :
    ∃ taken, byte :: text = taken ++ rest ∧ Stands taken first := by
  unfold char at found
  split_ifs at found with backslash control
  · subst backslash
    match text, found with
    | next :: text, found =>
        rw [escape] at found
        split_ifs at found with letter
        · subst letter
          obtain ⟨taken, rfl, _, length, count⟩ := unicode_some found
          refine ⟨92 :: 117 :: taken, rfl, .inr ⟨?_, ?_⟩⟩
          · simp only [List.length_cons]
            omega
          · rw [List.count_cons_of_ne (by decide),
              List.count_cons_of_ne (by decide), count]
            exact Nat.zero_le _
        · obtain ⟨value, stands, same⟩ := Option.map_eq_some_iff.mp found
          cases same
          refine ⟨[92, next], rfl, .inr ⟨by simp, ?_⟩⟩
          rw [List.count_cons_of_ne (by decide)]
          by_cases quote : next = 34
          · rw [quote, escaped_quote stands quote]
          · simp [List.count_singleton, quote]
  · cases found
    refine ⟨[byte], rfl, .inl ⟨rfl, ?_⟩⟩
    intro inside member
    obtain rfl := List.mem_singleton.mp member
    exact ⟨UInt8.not_lt.mp control, noQuote, backslash⟩

theorem charsFrom_stands {fuel : ℕ} {text chars rest : List UInt8}
    (found : charsFrom fuel text = some (chars, rest)) :
    ∃ taken, text = taken ++ 34 :: rest ∧ Stands taken chars := by
  induction fuel generalizing text chars with
  | zero => cases found
  | succ fuel induction =>
      match text, found with
      | byte :: text, found =>
          rw [charsFrom] at found
          split_ifs at found with quote
          · cases found
            refine ⟨[], by rw [quote]; rfl, .inl ⟨rfl, ?_⟩⟩
            intro inside member
            cases member
          · simp only [Option.bind_eq_bind, Option.bind_eq_some_iff,
              Prod.exists, Option.some.injEq, Prod.mk.injEq] at found
            obtain ⟨first, behind, one, more, after, others, rfl, rfl⟩ :=
              found
            obtain ⟨left, split, leftStands⟩ := char_stands quote one
            obtain ⟨right, rfl, rightStands⟩ := induction others
            refine ⟨left ++ right, ?_, leftStands.append rightStands⟩
            rw [split, List.append_assoc]

/-- A string is read as the bytes in front of a quotation mark only if these
are plain, and then it ends at that mark. -/
theorem chars_eq_iff {text behind rest : List UInt8} :
    chars (text ++ 34 :: behind) = some (text, rest) ↔
      Plain text ∧ rest = behind := by
  constructor
  · intro found
    obtain ⟨taken, split, stands⟩ := charsFrom_stands found
    rcases stands with ⟨rfl, plain⟩ | ⟨longer, count⟩
    · exact ⟨plain, (List.cons.inj (List.append_cancel_left split)).2.symm⟩
    · rcases List.append_eq_append_iff.mp split with
        ⟨more, rfl, tail⟩ | ⟨more, rfl, _⟩
      · cases more with
        | nil => simp at longer
        | cons quote more =>
            obtain ⟨rfl, _⟩ := List.cons.inj tail
            simp at count
      · simp only [List.length_append] at longer
        omega
  · rintro ⟨plain, rfl⟩
    exact chars_plain plain rest

end Json

end Foundation
