import Mathlib.Data.List.TakeWhile

/-!
# Scanning words

The conversion `%<width>s` of `sscanf`, and several of them in a row: each
skips blanks and takes the characters up to the next blank, `width` of them at
most.  A longer word is taken in pieces.
-/

namespace Foundation

/-- `isspace` of the C locale. -/
def isBlank (byte : UInt8) : Bool :=
  byte == 32 || (9 ≤ byte && byte ≤ 13)

/-- One conversion: the word and what is left, or `none` at the end. -/
def scanWord (width : ℕ) (text : List UInt8) :
    Option (List UInt8 × List UInt8) :=
  let rest := text.dropWhile isBlank
  let word := (rest.takeWhile (fun byte => !isBlank byte)).take width
  if word = [] then none else some (word, rest.drop word.length)

/-- `count` conversions, up to the first that finds nothing. -/
def scanWords (width : ℕ) : ℕ → List UInt8 → List (List UInt8)
  | 0, _ => []
  | count + 1, text =>
      match scanWord width text with
      | none => []
      | some (word, rest) => word :: scanWords width count rest

/-- All the words of a text. -/
def wordsOf (width : ℕ) (text : List UInt8) : List (List UInt8) :=
  scanWords width text.length text

variable {width count : ℕ} {text word rest : List UInt8}

/-! ## One word -/

theorem scanWord_some (found : scanWord width text = some (word, rest)) :
    word ≠ [] ∧ word.length ≤ width ∧ word ⊆ text ∧
      rest.length < text.length ∧ rest ⊆ text := by
  unfold scanWord at found
  dsimp only at found
  split_ifs at found with none
  obtain ⟨rfl, rfl⟩ := Prod.mk.inj (Option.some.inj found)
  have suffix : (text.dropWhile isBlank) <:+ text :=
    List.dropWhile_suffix _
  have taken : (((text.dropWhile isBlank).takeWhile
      (fun byte => !isBlank byte)).take width) <+: text.dropWhile isBlank :=
    (List.take_prefix _ _).trans (List.takeWhile_prefix _)
  have positive := List.length_pos_iff.mpr none
  have inside := taken.length_le
  have shorter := suffix.length_le
  refine ⟨none, List.length_take_le _ _, ?_, ?_, ?_⟩
  · exact List.Subset.trans taken.subset suffix.subset
  · rw [List.length_drop]
    omega
  · exact List.Subset.trans (List.drop_subset _ _) suffix.subset

theorem scanWord_blank {blank : UInt8} (separates : isBlank blank = true) :
    scanWord width (blank :: text) = scanWord width text := by
  unfold scanWord
  rw [List.dropWhile_cons_of_pos separates]

/-- A word that fits is taken as a whole. -/
theorem scanWord_word {blank : UInt8} (nonempty : word ≠ [])
    (fits : word.length ≤ width)
    (noBlank : ∀ byte ∈ word, isBlank byte = false)
    (separates : isBlank blank = true) :
    scanWord width (word ++ blank :: rest) = some (word, blank :: rest) := by
  have starts : (word ++ blank :: rest).dropWhile isBlank =
      word ++ blank :: rest := by
    cases word with
    | nil => exact absurd rfl nonempty
    | cons first others =>
        have nonblank := noBlank first (List.mem_cons_self ..)
        rw [List.cons_append, List.dropWhile_cons_of_neg (by simp [nonblank])]
  have takes : (word ++ blank :: rest).takeWhile (fun byte => !isBlank byte) =
      word := by
    rw [List.takeWhile_append_of_pos (fun byte member => by
      simp [noBlank byte member]), List.takeWhile_cons_of_neg (by
      simp [separates]), List.append_nil]
  unfold scanWord
  dsimp only
  rw [starts, takes, List.take_of_length_le fits, if_neg nonempty,
    List.drop_left]

/-! ## All words -/

theorem scanWords_length_le : (scanWords width count text).length ≤ count := by
  induction count generalizing text with
  | zero => exact Nat.le_refl 0
  | succ count induction =>
      unfold scanWords
      cases scanWord width text with
      | none => exact Nat.zero_le _
      | some found => exact Nat.succ_le_succ induction

theorem scanWords_blank {blank : UInt8} (separates : isBlank blank = true) :
    scanWords width count (blank :: text) = scanWords width count text := by
  cases count with
  | zero => rfl
  | succ count => rw [scanWords, scanWords, scanWord_blank separates]

/-- Every word is a piece of the text of at most `width` characters. -/
theorem scanWords_mem (member : word ∈ scanWords width count text) :
    word ≠ [] ∧ word.length ≤ width ∧ word ⊆ text := by
  induction count generalizing text with
  | zero => cases member
  | succ count induction =>
      unfold scanWords at member
      cases found : scanWord width text with
      | none =>
          rw [found] at member
          cases member
      | some pair =>
          obtain ⟨first, behind⟩ := pair
          obtain ⟨nonempty, fits, inside, _, left⟩ := scanWord_some found
          rw [found] at member
          rcases List.mem_cons.mp member with rfl | later
          · exact ⟨nonempty, fits, inside⟩
          · obtain ⟨isWord, short, isIn⟩ := induction later
            exact ⟨isWord, short, List.Subset.trans isIn left⟩

theorem scanWords_take {more : ℕ} (fewer : count ≤ more) :
    (scanWords width more text).take count = scanWords width count text := by
  induction count generalizing more text with
  | zero => rfl
  | succ count induction =>
      obtain ⟨more, rfl⟩ := Nat.exists_eq_add_of_le' fewer
      rw [← Nat.add_assoc, scanWords, scanWords]
      cases scanWord width text with
      | none => rfl
      | some found =>
          rw [List.take_succ_cons, induction (Nat.le_add_left count more)]

/-- More conversions than there are characters find nothing more. -/
theorem scanWords_enough {more : ℕ} (enough : text.length ≤ count)
    (alsoEnough : text.length ≤ more) :
    scanWords width count text = scanWords width more text := by
  induction count generalizing more text with
  | zero =>
      obtain rfl := List.length_eq_zero_iff.mp (Nat.le_zero.mp enough)
      cases more with
      | zero => rfl
      | succ more => simp [scanWords, scanWord]
  | succ count induction =>
      cases more with
      | zero =>
          obtain rfl := List.length_eq_zero_iff.mp (Nat.le_zero.mp alsoEnough)
          simp [scanWords, scanWord]
      | succ more =>
          rw [scanWords, scanWords]
          cases found : scanWord width text with
          | none => rfl
          | some pair =>
              obtain ⟨first, behind⟩ := pair
              obtain ⟨_, _, _, shorter, _⟩ := scanWord_some found
              have following := @induction behind more
                (Nat.le_of_lt_succ (shorter.trans_le enough))
                (Nat.le_of_lt_succ (shorter.trans_le alsoEnough))
              dsimp only
              rw [following]

/-- The conversions find the first words of the text. -/
theorem scanWords_eq_take :
    scanWords width count text = (wordsOf width text).take count := by
  rcases Nat.le_total count text.length with fewer | enough
  · exact (scanWords_take fewer).symm
  · rw [wordsOf, List.take_of_length_le (scanWords_length_le.trans enough)]
    exact scanWords_enough enough (Nat.le_refl _)

/-- A word in front of a text is one more word. -/
theorem scanWords_word {blank : UInt8} (nonempty : word ≠ [])
    (fits : word.length ≤ width)
    (noBlank : ∀ byte ∈ word, isBlank byte = false)
    (separates : isBlank blank = true) :
    scanWords width (count + 1) (word ++ blank :: rest) =
      word :: scanWords width count rest := by
  rw [scanWords, scanWord_word nonempty fits noBlank separates,
    ← scanWords_blank separates]

end Foundation
