import Mathlib.Data.List.Chain
import Mathlib.Data.Int.Order.Basic
import Mathlib.Tactic.Linarith

/-!
# Chains of adjacent extents

General facts about lists in which neighbours are related: exchanging the
middle of such a list, extents that touch end to end, and chains in which no
two neighbours are both free.
-/

namespace Foundation

universe u

variable {Item : Type u} {old new : Item → Item → Prop}

/-! ## Exchanging a part of a chain -/

/-- The part before `last` keeps its links when its items keep theirs. -/
theorem isChain_before {items : List Item} {last : Item}
    (chain : (items ++ [last]).IsChain old)
    (kept : ∀ left, left ∈ items → ∀ right, right ∈ items ++ [last] →
      old left right → new left right) :
    (items ++ [last]).IsChain new := by
  induction items with
  | nil => exact .singleton last
  | cons item items induction =>
      cases items with
      | nil =>
          have linked := (List.isChain_cons_cons.mp chain).1
          apply List.isChain_cons_cons.mpr
          exact ⟨kept item (by simp) last (by simp) linked, .singleton last⟩
      | cons next items =>
          obtain ⟨linked, rest⟩ := List.isChain_cons_cons.mp chain
          apply List.isChain_cons_cons.mpr
          constructor
          · exact kept item (by simp) next (by simp) linked
          · apply induction rest
            intro left leftMember right rightMember
            exact kept left (by simp [leftMember]) right
              (List.mem_cons_of_mem item rightMember)

/-- The part after `first` keeps its links when its items keep theirs. -/
theorem isChain_after {items : List Item} {first : Item}
    (chain : (first :: items).IsChain old)
    (kept : ∀ left, left ∈ first :: items → ∀ right, right ∈ items →
      old left right → new left right) :
    (first :: items).IsChain new := by
  induction items generalizing first with
  | nil => exact .singleton first
  | cons item items induction =>
      obtain ⟨linked, rest⟩ := List.isChain_cons_cons.mp chain
      apply List.isChain_cons_cons.mpr
      constructor
      · exact kept first (by simp) item (by simp) linked
      · apply induction rest
        intro left leftMember right rightMember
        exact kept left (List.mem_cons_of_mem first leftMember) right
          (by simp [rightMember])

theorem isChain_around {left right middle : List Item} {first last : Item} :
    (left ++ first :: (middle ++ last :: right)).IsChain old ↔
      (left ++ [first]).IsChain old ∧
        (first :: (middle ++ [last])).IsChain old ∧
        (last :: right).IsChain old := by
  have inner : (first :: (middle ++ last :: right)).IsChain old ↔
      (first :: (middle ++ [last])).IsChain old ∧
        (last :: right).IsChain old :=
    @List.isChain_split _ _ last (first :: middle) right
  rw [List.isChain_split, inner]

/-- Neighbours in a chain are linked. -/
theorem isChain_step {items : List Item} {first second : Item}
    (chain : items.IsChain old) (left right : List Item)
    (split : items = left ++ first :: second :: right) : old first second := by
  rw [split] at chain
  obtain ⟨_, rear, _⟩ := List.isChain_append.mp chain
  exact (List.isChain_cons_cons.mp rear).1

/-! ## Extents that touch -/

section Extents

variable (start length : Item → ℤ)

def Touches (left right : Item) : Prop :=
  start left + length left = start right

variable {start length}

/-- In a chain of touching extents every extent ends before the later ones
begin. -/
theorem pairwise_of_touches {items : List Item}
    (chain : items.IsChain (Touches start length))
    (nonneg : ∀ item, item ∈ items → 0 ≤ length item) :
    items.Pairwise (fun left right =>
      start left + length left ≤ start right) := by
  induction items with
  | nil => exact .nil
  | cons item items induction =>
      have rest := induction chain.tail
        (fun other member => nonneg other (List.mem_cons_of_mem item member))
      refine List.pairwise_cons.mpr ⟨?_, rest⟩
      intro other member
      cases items with
      | nil => simp at member
      | cons next items =>
          have touch : start item + length item = start next :=
            (List.isChain_cons_cons.mp chain).1
          have nextNonneg := nonneg next (by simp)
          rcases List.mem_cons.mp member with rfl | later
          · exact touch.le
          · have ordered := (List.pairwise_cons.mp rest).1 other later
            linarith

/-- Touching extents leave no position uncovered. -/
theorem exists_covering {items : List Item} {last : Item}
    (chain : (items ++ [last]).IsChain (Touches start length))
    {position : ℤ}
    (lower : ∀ first, (items ++ [last]).head? = some first →
      start first ≤ position)
    (upper : position < start last) :
    ∃ before item after,
      items = before ++ item :: after ∧
        start item ≤ position ∧ position < start item + length item := by
  induction items with
  | nil =>
      have := lower last (by simp)
      omega
  | cons item items induction =>
      by_cases inside : position < start item + length item
      · exact ⟨[], item, items, rfl, lower item (by simp), inside⟩
      · have nextLower : ∀ first, (items ++ [last]).head? = some first →
            start first ≤ position := by
          intro first isFirst
          have touch : start item + length item = start first := by
            cases items with
            | nil =>
                cases Option.some.inj isFirst
                exact (List.isChain_cons_cons.mp chain).1
            | cons next items =>
                cases Option.some.inj isFirst
                exact (List.isChain_cons_cons.mp chain).1
          omega
        obtain ⟨before, found, after, rfl, covers⟩ :=
          induction chain.tail nextLower
        exact ⟨item :: before, found, after, rfl, covers⟩

/-- The lengths of touching extents add up to what they cover. -/
theorem sum_of_touches {items : List Item} {first last : Item}
    (chain : items.IsChain (Touches start length))
    (starts : items.head? = some first)
    (ends : items.getLast? = some last) :
    start first + (items.map length).sum = start last + length last := by
  induction items generalizing first with
  | nil => cases starts
  | cons item items induction =>
      cases Option.some.inj starts
      cases items with
      | nil =>
          cases Option.some.inj ends
          rw [List.map_singleton, List.sum_singleton, List.getLast_singleton]
      | cons next items =>
          have touch : start item + length item = start next :=
            (List.isChain_cons_cons.mp chain).1
          have rest := induction chain.tail rfl ends
          rw [List.map_cons, List.sum_cons, ← add_assoc, touch, rest]

end Extents

/-! ## Alternating chains -/

theorem countP_free_le {free : Item → Bool} {items : List Item}
    {first last : Item}
    (chain : (first :: items).IsChain
      (fun left right => free left = true → free right = false))
    (endsWith : (first :: items).getLast? = some last)
    (lastTaken : free last = false) :
    (first :: items).countP free + (if free first then 0 else 1) ≤
      (first :: items).countP (fun item => !free item) := by
  induction items generalizing first with
  | nil =>
      have same : first = last := by simpa using endsWith
      subst same
      simp [lastTaken]
  | cons next items induction =>
      obtain ⟨linked, rest⟩ := List.isChain_cons_cons.mp chain
      have tail := induction rest (by simpa using endsWith)
      have counted : ∀ test : Item → Bool,
          (first :: next :: items).countP test =
            (next :: items).countP test + if test first then 1 else 0 :=
        fun _ => List.countP_cons
      rw [counted, counted]
      cases firstFree : free first with
      | true =>
          simp only [linked firstFree, Bool.false_eq_true, ↓reduceIte] at tail
          simp only [↓reduceIte, Bool.not_true, Bool.false_eq_true]
          omega
      | false =>
          simp only [Bool.false_eq_true, ↓reduceIte, Bool.not_false]
          omega

/-- When no two neighbours are free and neither end is, the free items are
fewer than the others. -/
theorem countP_free_lt {free : Item → Bool} {items : List Item}
    {first last : Item}
    (chain : items.IsChain
      (fun left right => free left = true → free right = false))
    (startsWith : items.head? = some first)
    (endsWith : items.getLast? = some last)
    (firstTaken : free first = false) (lastTaken : free last = false) :
    items.countP free < items.countP (fun item => !free item) := by
  cases items with
  | nil => simp at startsWith
  | cons item items =>
      cases Option.some.inj startsWith
      have counted := countP_free_le chain endsWith lastTaken
      simp only [firstTaken, Bool.false_eq_true, ↓reduceIte] at counted
      exact counted

end Foundation
