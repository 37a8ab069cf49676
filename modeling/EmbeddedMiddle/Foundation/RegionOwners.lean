import EmbeddedMiddle.Foundation.RegionLifecycle
import Mathlib.Logic.Function.Basic
import Mathlib.Order.Interval.Finset.Nat

/-!
# Pointers that own regions

The pointers of a program name the regions that are live, each region by one
pointer.  A pointer to a region can be used and be released without a further
condition; what no pointer names any more is lost.
-/

namespace Foundation

universe u

variable {Pointer : Type u} {pointers : Pointer → Option ℕ}
  {pointer : Pointer} {heap before after : RegionHeap} {region : ℕ}

/-- The live regions are those that a pointer names, and no two pointers name
the same one. -/
structure Owned (heap : RegionHeap) (pointers : Pointer → Option ℕ) : Prop where
  sound : ∃ live, heap.Sound live ∧
    ∀ region, region ∈ live ↔ ∃ pointer, pointers pointer = some region
  apart : ∀ left right region, pointers left = some region →
    pointers right = some region → left = right

namespace Owned

theorem lt_next (owned : Owned heap pointers)
    (named : pointers pointer = some region) : region < heap.next := by
  obtain ⟨live, sound, names⟩ := owned.sound
  exact sound.lt_next ((names region).mpr ⟨pointer, named⟩)

theorem use (owned : Owned heap pointers) (pointer : Pointer) :
    Owned (heap.use (pointers pointer)) pointers := by
  cases named : pointers pointer with
  | none => exact owned
  | some region =>
      obtain ⟨live, sound, names⟩ := owned.sound
      have member := (names region).mpr ⟨pointer, named⟩
      exact ⟨⟨live, sound.use member, names⟩, owned.apart⟩

variable [DecidableEq Pointer]

theorem free (owned : Owned heap pointers) (pointer : Pointer) :
    Owned (heap.free (pointers pointer))
      (Function.update pointers pointer none) := by
  cases named : pointers pointer with
  | none =>
      rw [← named, Function.update_eq_self, named]
      exact owned
  | some region =>
      obtain ⟨live, sound, names⟩ := owned.sound
      have member := (names region).mpr ⟨pointer, named⟩
      have others : ∀ other name, Function.update pointers pointer none other =
          some name ↔ other ≠ pointer ∧ pointers other = some name := by
        intro other name
        by_cases same : other = pointer
        · simp [same]
        · simp [same]
      refine ⟨⟨live.erase region, sound.free member, ?_⟩, ?_⟩
      · intro name
        simp only [Finset.mem_erase, names, others]
        constructor
        · rintro ⟨different, other, isName⟩
          refine ⟨other, fun same => different ?_, isName⟩
          rw [same, named] at isName
          exact (Option.some.inj isName).symm
        · rintro ⟨other, different, isName⟩
          refine ⟨fun same => different ?_, other, isName⟩
          exact owned.apart other pointer region (same ▸ isName) named
      · intro left right name isLeft isRight
        exact owned.apart left right name ((others left name).mp isLeft).2
          ((others right name).mp isRight).2

/-- A pointer that names nothing is given what a request returns. -/
theorem call (owned : Owned heap pointers) (allocFunc : AllocFunc) (size : ℕ)
    (unset : pointers pointer = none) :
    Owned (allocFunc.call size heap).2
      (Function.update pointers pointer (allocFunc.call size heap).1) := by
  unfold AllocFunc.call
  split_ifs with granted
  · obtain ⟨live, sound, names⟩ := owned.sound
    have old : ∀ other, pointers other ≠ some heap.next :=
      fun other named => absurd (owned.lt_next named) (Nat.lt_irrefl _)
    have names' : ∀ other name, Function.update pointers pointer
        (some heap.next) other = some name ↔
          other = pointer ∧ name = heap.next ∨ pointers other = some name := by
      intro other name
      by_cases same : other = pointer
      · simp [same, unset, eq_comm]
      · simp [same]
    refine ⟨⟨insert heap.next live, sound.alloc, ?_⟩, ?_⟩
    · intro name
      simp only [Finset.mem_insert, names, RegionHeap.alloc_fst, names']
      constructor
      · rintro (isNew | ⟨other, isName⟩)
        · exact ⟨pointer, .inl ⟨rfl, isNew⟩⟩
        · exact ⟨other, .inr isName⟩
      · rintro ⟨other, ⟨_, isNew⟩ | isName⟩
        · exact .inl isNew
        · exact .inr ⟨other, isName⟩
    · intro left right name isLeft isRight
      rcases (names' left name).mp isLeft with ⟨isPointer, isNew⟩ | isName
      · rcases (names' right name).mp isRight with ⟨same, _⟩ | isName
        · rw [isPointer, same]
        · exact absurd (isNew ▸ isName) (old right)
      · rcases (names' right name).mp isRight with ⟨_, isNew⟩ | isName'
        · exact absurd (isNew ▸ isName) (old left)
        · exact owned.apart left right name isName isName'
  · rw [← unset, Function.update_eq_self]
    exact owned

end Owned

/-! ## Requests only -/

/-- Between the two heaps there are only requests. -/
def Requested (before after : RegionHeap) : Prop :=
  Relation.ReflTransGen (fun heap next => next = heap.alloc.2) before after

namespace Requested

theorem call (allocFunc : AllocFunc) (size : ℕ) :
    Requested before (allocFunc.call size before).2 := by
  unfold AllocFunc.call
  split_ifs
  · exact .single rfl
  · exact .refl

theorem trans {middle : RegionHeap} (earlier : Requested before middle)
    (next : Requested middle after) : Requested before after :=
  Relation.ReflTransGen.trans earlier next

/-- What is live afterwards was live before or is new. -/
theorem sound (requested : Requested before after) {live : Finset ℕ}
    (sound : before.Sound live) :
    before.next ≤ after.next ∧
      after.Sound (live ∪ Finset.Ico before.next after.next) := by
  induction requested with
  | refl =>
      rw [Finset.Ico_self, Finset.union_empty]
      exact ⟨le_refl _, sound⟩
  | @tail middle _ _ taken induction =>
      obtain ⟨later, soundMiddle⟩ := induction
      subst taken
      rw [RegionHeap.alloc_next]
      refine ⟨Nat.le_succ_of_le later, ?_⟩
      have grown := soundMiddle.alloc
      rwa [← Finset.union_insert, ← Nat.Ico_succ_right_eq_insert_Ico later]
        at grown

end Requested

/-- A component makes requests, which give it these pointers. -/
structure Requests (before : RegionHeap) (obtained : List (Option ℕ))
    (after : RegionHeap) : Prop where
  obtains : Obtains before obtained after
  requested : Requested before after

namespace Requests

variable {middle : RegionHeap} {first second : List (Option ℕ)}

theorem nil : Requests before [] before := ⟨.nil, .refl⟩

theorem call (allocFunc : AllocFunc) (size : ℕ) :
    Requests before [(allocFunc.call size before).1]
      (allocFunc.call size before).2 :=
  ⟨.call allocFunc size, .call allocFunc size⟩

theorem trans (earlier : Requests before first middle)
    (next : Requests middle second after) :
    Requests before (first ++ second) after :=
  ⟨earlier.obtains.trans next.obtains,
    earlier.requested.trans next.requested⟩

end Requests

/-! ## Releases of many pointers -/

/-- The pointers are released one after the other. -/
def RegionHeap.freeAll (heap : RegionHeap) (ptrs : List (Option ℕ)) :
    RegionHeap :=
  ptrs.foldl RegionHeap.free heap

section FreeAll

variable {ptrs : List (Option ℕ)} {outer live : Finset ℕ}

theorem RegionHeap.freeAll_append (first second : List (Option ℕ)) :
    heap.freeAll (first ++ second) = (heap.freeAll first).freeAll second :=
  List.foldl_append

theorem Releases.freeAll (heap : RegionHeap) (ptrs : List (Option ℕ)) :
    Releases heap ptrs (heap.freeAll ptrs) := by
  induction ptrs generalizing heap with
  | nil => exact .nil
  | cons ptr ptrs induction =>
      exact (Releases.free ptr).trans (induction (heap.free ptr))

/-- Live regions can be released once each. -/
theorem RegionHeap.Sound.freeAll (sound : heap.Sound live)
    (once : ∀ region, ptrs.count (some region) ≤ 1)
    (areLive : ∀ region, some region ∈ ptrs → region ∈ live) :
    (heap.freeAll ptrs).Lawful := by
  induction ptrs generalizing heap live with
  | nil => exact sound.lawful
  | cons ptr ptrs induction =>
      have onceLater : ∀ region, ptrs.count (some region) ≤ 1 :=
        fun region => List.count_le_count_cons.trans (once region)
      cases ptr with
      | none =>
          exact induction sound onceLater
            (fun region member => areLive region (.tail _ member))
      | some released =>
          refine induction (sound.free (areLive released (.head _)))
            onceLater fun region member => ?_
          refine Finset.mem_erase.mpr ⟨?_, areLive region (.tail _ member)⟩
          rintro rfl
          have counted := once region
          rw [List.count_cons_self] at counted
          have positive := List.count_pos_iff.mpr member
          omega

/-- What was live at the end has to be released, but for what was live at the
start. -/
theorem RegionHeap.Sound.givesBack_freeAll_iff {middle : RegionHeap}
    (first : before.Sound outer) (last : middle.Sound live)
    (later : before.next ≤ middle.next) :
    before.GivesBack (middle.freeAll ptrs) ↔ ∀ region,
      ptrs.count (some region) + (if region ∈ outer then 1 else 0) =
        if region ∈ live then 1 else 0 := by
  have gave := Releases.freeAll middle ptrs
  refine forall_congr' fun region => ?_
  rw [gave.freed_eq, gave.next_eq]
  have atFirst := first.freed_eq region
  have atLast := last.freed_eq region
  have range : (if region < before.next then 1 else 0) +
      (if before.next ≤ region ∧ region < middle.next then 1 else 0) =
        if region < middle.next then 1 else 0 := by
    split_ifs <;> omega
  omega

/-- A component releases, at the end, pointers that its requests gave it, and
others have made requests meanwhile.  All is given back when the component
releases everything and the others have nothing any more. -/
theorem Requests.givesBack_freeAll_iff {obtained : List (Option ℕ)}
    {middle : RegionHeap} (got : Requests before obtained after)
    (first : before.Sound outer) (last : middle.Sound live)
    (later : after.next ≤ middle.next)
    (kept : outer ∪ Finset.Ico before.next after.next ⊆ live)
    (within : ∀ region,
      ptrs.count (some region) ≤ obtained.count (some region)) :
    (middle.freeAll ptrs).Lawful ∧
      (before.GivesBack (middle.freeAll ptrs) ↔
        (∀ region, ptrs.count (some region) =
          obtained.count (some region)) ∧
        live = outer ∪ Finset.Ico before.next after.next) := by
  have isOwn : ∀ region, obtained.count (some region) =
      if region ∈ Finset.Ico before.next after.next then 1 else 0 := by
    intro region
    rw [got.obtains.count_eq]
    simp only [Finset.mem_Ico]
  have apart : ∀ region, region ∈ outer →
      region ∉ Finset.Ico before.next after.next := by
    intro region member own
    exact absurd (first.lt_next member)
      (Nat.not_lt.mpr (Finset.mem_Ico.mp own).1)
  constructor
  · refine last.freeAll (fun region => ?_) (fun region member => kept ?_)
    · refine (within region).trans ?_
      rw [isOwn]
      split_ifs <;> omega
    · have positive := (List.count_pos_iff.mpr member).trans_le (within region)
      rw [isOwn] at positive
      split_ifs at positive with own
      · exact Finset.mem_union_right _ own
      · omega
  · rw [first.givesBack_freeAll_iff last (got.obtains.later.trans later)]
    have atMost := fun region => isOwn region ▸ within region
    constructor
    · intro balanced
      have onlyKept : live ⊆ outer ∪ Finset.Ico before.next after.next := by
        intro region member
        by_contra other
        rw [Finset.mem_union, not_or] at other
        have balance := balanced region
        have bound := atMost region
        rw [if_neg other.1, if_pos member] at balance
        rw [if_neg other.2] at bound
        omega
      have same := Finset.Subset.antisymm onlyKept kept
      refine ⟨fun region => ?_, same⟩
      have balance := balanced region
      simp only [same, Finset.mem_union] at balance
      rw [isOwn]
      by_cases isOuter : region ∈ outer
      · simp only [isOuter, true_or, if_true] at balance
        rw [if_neg (apart region isOuter)]
        omega
      · simp only [isOuter, false_or, if_false] at balance
        exact balance
    · rintro ⟨all, rfl⟩ region
      simp only [all, isOwn, Finset.mem_union]
      by_cases isOuter : region ∈ outer
      · simp only [isOuter, apart region isOuter, true_or, if_true, if_false]
      · simp only [isOuter, false_or, if_false, Nat.add_zero]

end FreeAll

end Foundation
