import EmbeddedMiddle.Foundation.ResourceUse
import Mathlib.Data.Finset.SDiff
import Mathlib.Tactic.Linarith

/-!
# Regions of a heap

An allocator gives a new region at every request; the heap remembers what was
requested, used and released.  A pointer is the region it points to, or `none`
for NULL, of which nothing is remembered.
-/

namespace Foundation

open ResourceEvent

structure RegionHeap where
  next : ℕ
  events : List (ResourceEvent ℕ)
  deriving DecidableEq

namespace RegionHeap

def alloc (heap : RegionHeap) : Option ℕ × RegionHeap :=
  (some heap.next, ⟨heap.next + 1, heap.events ++ [.create heap.next]⟩)

def use (heap : RegionHeap) : Option ℕ → RegionHeap
  | none => heap
  | some region => ⟨heap.next, heap.events ++ [.use region]⟩

def free (heap : RegionHeap) : Option ℕ → RegionHeap
  | none => heap
  | some region => ⟨heap.next, heap.events ++ [.release region]⟩

/-- How often a region was released. -/
def freed (heap : RegionHeap) (region : ℕ) : ℕ :=
  heap.events.count (.release region)

/-- Between the two heaps every region that was obtained is released exactly
once, and no other region is. -/
def GivesBack (before after : RegionHeap) : Prop :=
  ∀ region, after.freed region = before.freed region +
    if before.next ≤ region ∧ region < after.next then 1 else 0

/-- Nothing is used or released that is not live. -/
def Lawful (heap : RegionHeap) : Prop := AllLawful ∅ heap.events

variable {heap before after : RegionHeap} {region : ℕ} {ptr : Option ℕ}

@[simp] theorem alloc_fst : heap.alloc.1 = some heap.next := rfl

@[simp] theorem alloc_next : heap.alloc.2.next = heap.next + 1 := rfl

@[simp] theorem alloc_freed :
    heap.alloc.2.freed region = heap.freed region := by
  simp [alloc, freed]

@[simp] theorem use_next : (heap.use ptr).next = heap.next := by
  cases ptr with
  | none => rfl
  | some region => rfl

@[simp] theorem free_next : (heap.free ptr).next = heap.next := by
  cases ptr with
  | none => rfl
  | some region => rfl

@[simp] theorem free_freed :
    (heap.free ptr).freed region =
      heap.freed region + if ptr = some region then 1 else 0 := by
  cases ptr with
  | none => rfl
  | some released =>
      by_cases same : released = region
      · simp [free, freed, same]
      · simp [free, freed, same]

theorem foldl_next {Item : Type*} {items : List Item}
    {round : RegionHeap → Item → RegionHeap}
    (kept : ∀ heap item, (round heap item).next = heap.next) :
    (items.foldl round heap).next = heap.next := by
  induction items generalizing heap with
  | nil => rfl
  | cons item items induction => exact induction.trans (kept heap item)

/-! ## Sound heaps -/

/-- The history is lawful and leaves `owned`; every region below `next` has
been created once. -/
structure Sound (heap : RegionHeap) (owned : Finset ℕ) : Prop where
  lawful : heap.Lawful
  live : allAfter ∅ heap.events = owned
  created : ∀ region, heap.events.count (.create region) =
    if region < heap.next then 1 else 0

namespace Sound

variable {owned remaining : Finset ℕ}

theorem empty : Sound ⟨0, []⟩ ∅ :=
  ⟨trivial, rfl, fun region => by simp⟩

/-- Every region that was obtained is live or was released once. -/
theorem freed_eq (sound : heap.Sound owned) (region : ℕ) :
    heap.freed region + (if region ∈ owned then 1 else 0) =
      if region < heap.next then 1 else 0 := by
  have counted := count_create sound.lawful region
  rw [sound.live, sound.created, if_neg (Finset.notMem_empty region)] at counted
  exact counted.symm

theorem lt_next (sound : heap.Sound owned) (member : region ∈ owned) :
    region < heap.next := by
  have counted := sound.freed_eq region
  rw [if_pos member] at counted
  by_contra notBelow
  rw [if_neg notBelow] at counted
  omega

theorem next_not_mem (sound : heap.Sound owned) : heap.next ∉ owned :=
  fun member => absurd (sound.lt_next member) (lt_irrefl heap.next)

theorem alloc (sound : heap.Sound owned) :
    heap.alloc.2.Sound (insert heap.next owned) := by
  refine ⟨?_, ?_, ?_⟩
  · apply allLawful_append.mpr
    refine ⟨sound.lawful, ?_, trivial⟩
    rw [sound.live]
    exact sound.next_not_mem
  · simp only [RegionHeap.alloc, allAfter_append, sound.live]
    rfl
  · intro region
    simp only [RegionHeap.alloc, List.count_append, sound.created,
      List.count_cons, List.count_nil]
    by_cases isNext : region = heap.next
    · simp [isNext]
    · have below : region < heap.next + 1 ↔ region < heap.next := by omega
      simp [below, Ne.symm isNext]

theorem use (sound : heap.Sound owned) (member : region ∈ owned) :
    (heap.use (some region)).Sound owned := by
  refine ⟨?_, ?_, ?_⟩
  · apply allLawful_append.mpr
    refine ⟨sound.lawful, ?_, trivial⟩
    rw [sound.live]
    exact member
  · simp only [RegionHeap.use, allAfter_append, sound.live]
    rfl
  · intro other
    change List.count _ (heap.events ++ [_]) =
      if other < heap.next then 1 else 0
    rw [List.count_append, sound.created]
    simp

theorem free (sound : heap.Sound owned) (member : region ∈ owned) :
    (heap.free (some region)).Sound (owned.erase region) := by
  refine ⟨?_, ?_, ?_⟩
  · apply allLawful_append.mpr
    refine ⟨sound.lawful, ?_, trivial⟩
    rw [sound.live]
    exact member
  · simp only [RegionHeap.free, allAfter_append, sound.live]
    rfl
  · intro other
    change List.count _ (heap.events ++ [_]) =
      if other < heap.next then 1 else 0
    rw [List.count_append, sound.created]
    simp

/-- The region that is released is named first. -/
theorem free_insert (sound : heap.Sound (insert region owned))
    (other : region ∉ owned) : (heap.free (some region)).Sound owned := by
  have released := sound.free (Finset.mem_insert_self region owned)
  rwa [Finset.erase_insert other] at released

/-- A loop whose rounds keep the heap sound. -/
theorem foldl {Item : Type*} {items : List Item}
    {round : RegionHeap → Item → RegionHeap} (sound : heap.Sound owned)
    (kept : ∀ item ∈ items, ∀ heap : RegionHeap, heap.Sound owned →
      (round heap item).Sound owned) :
    (items.foldl round heap).Sound owned := by
  induction items generalizing heap with
  | nil => exact sound
  | cons item items induction =>
      exact induction (kept item List.mem_cons_self heap sound)
        (fun other isOther => kept other (List.mem_cons_of_mem item isOther))

/-- What is live decides what was given back. -/
theorem givesBack_iff (sound : before.Sound owned)
    (kept : after.Sound remaining) (later : before.next ≤ after.next) :
    GivesBack before after ↔ remaining = owned := by
  have balance : ∀ region,
      (after.freed region = before.freed region +
        if before.next ≤ region ∧ region < after.next then 1 else 0) ↔
      (region ∈ remaining ↔ region ∈ owned) := by
    intro region
    have first := sound.freed_eq region
    have last := kept.freed_eq region
    have old : region ∈ owned → region < before.next := sound.lt_next
    have new : region ∈ remaining → region < after.next := kept.lt_next
    by_cases isOld : region ∈ owned <;> by_cases isNew : region ∈ remaining
      <;> simp only [isOld, isNew, if_true, if_false, iff_true, iff_false,
        true_implies, not_true, not_false_iff] at *
      <;> split_ifs at * <;> omega
  constructor
  · intro given
    ext region
    exact (balance region).mp (given region)
  · intro same region
    exact (balance region).mpr (by rw [same])

end Sound

end RegionHeap

end Foundation
