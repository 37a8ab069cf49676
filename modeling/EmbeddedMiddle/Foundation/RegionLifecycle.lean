import EmbeddedMiddle.Foundation.RegionHeap
import Mathlib.Logic.Relation

/-!
# Components that own regions

A component requests regions when it is created and passes them to a free
function when it is destroyed.  What is requested and what is released are
lists of pointers, which add up as components are put together.
-/

namespace Foundation

open RegionHeap

/-- Whether a request of so many bytes is granted. -/
abbrev AllocFunc := RegionHeap → ℕ → Bool

/-- NULL is returned where the request is not granted. -/
def AllocFunc.call (allocFunc : AllocFunc) (size : ℕ) (heap : RegionHeap) :
    Option ℕ × RegionHeap :=
  if allocFunc heap size then heap.alloc else (none, heap)

/-- A pointer to a function that releases regions: NULL, the one of the heap,
or whatever memory held before it was set. -/
inductive FreeFunc where
  | null
  | given
  | invalid
  deriving DecidableEq, Inhabited, Repr

/-- Only the function of the heap can be called. -/
def FreeFunc.call (freeFunc : FreeFunc) (heap : RegionHeap)
    (ptr : Option ℕ) : Option RegionHeap :=
  match freeFunc with
  | .given => some (heap.free ptr)
  | _ => none

variable {before middle after : RegionHeap} {ptr : Option ℕ}
  {obtained released first second : List (Option ℕ)}

theorem FreeFunc.given_of_call {freeFunc : FreeFunc}
    (called : freeFunc.call before ptr = some after) :
    freeFunc = .given ∧ after = before.free ptr := by
  cases freeFunc with
  | null => cases called
  | invalid => cases called
  | given => exact ⟨rfl, (Option.some.inj called).symm⟩

/-! ## Regions that are obtained and released -/

/-- The pointers `obtained` name the new regions of the heap, each once. -/
structure Obtains (before : RegionHeap) (obtained : List (Option ℕ))
    (after : RegionHeap) : Prop where
  later : before.next ≤ after.next
  freed_eq : ∀ region, after.freed region = before.freed region
  count_eq : ∀ region, obtained.count (some region) =
    if before.next ≤ region ∧ region < after.next then 1 else 0

/-- The pointers `released` were passed to the free function. -/
structure Releases (before : RegionHeap) (released : List (Option ℕ))
    (after : RegionHeap) : Prop where
  next_eq : after.next = before.next
  freed_eq : ∀ region,
    after.freed region = before.freed region + released.count (some region)

namespace Obtains

theorem nil : Obtains before [] before := by
  refine ⟨le_refl before.next, fun _ => rfl, fun region => ?_⟩
  rw [List.count_nil, if_neg (by omega)]

theorem trans (earlier : Obtains before first middle)
    (next : Obtains middle second after) :
    Obtains before (first ++ second) after := by
  refine ⟨earlier.later.trans next.later, fun region => ?_, fun region => ?_⟩
  · rw [next.freed_eq, earlier.freed_eq]
  · have ordered := earlier.later
    have ordered' := next.later
    rw [List.count_append, earlier.count_eq, next.count_eq]
    split_ifs <;> omega

theorem call (allocFunc : AllocFunc) (size : ℕ) :
    Obtains before [(allocFunc.call size before).1]
      (allocFunc.call size before).2 := by
  unfold AllocFunc.call
  split_ifs with granted
  · refine ⟨Nat.le_succ before.next, fun region => alloc_freed, ?_⟩
    intro region
    rw [alloc_fst, alloc_next, List.count_singleton]
    simp only [beq_iff_eq, Option.some.injEq]
    congr 1
    exact propext ⟨fun same => by omega, fun bounds => by omega⟩
  · refine ⟨le_refl before.next, fun _ => rfl, fun region => ?_⟩
    have noneNew : ¬ (before.next ≤ region ∧ region < before.next) := by omega
    exact (if_neg noneNew).symm

/-- No region is obtained twice. -/
theorem not_mem_rest {region : ℕ} {rest : List (Option ℕ)}
    (got : Obtains before (some region :: rest) after) :
    some region ∉ rest := by
  intro member
  have twice := got.count_eq region
  have counted := List.count_pos_iff.mpr member
  rw [List.count_cons_self] at twice
  split_ifs at twice
  omega

end Obtains

namespace Releases

theorem nil : Releases before [] before := ⟨rfl, fun _ => rfl⟩

theorem trans (earlier : Releases before first middle)
    (next : Releases middle second after) :
    Releases before (first ++ second) after := by
  refine ⟨next.next_eq.trans earlier.next_eq, fun region => ?_⟩
  rw [next.freed_eq, earlier.freed_eq, List.count_append, Nat.add_assoc]

theorem free (ptr : Option ℕ) : Releases before [ptr] (before.free ptr) := by
  refine ⟨free_next, fun region => ?_⟩
  rw [free_freed, List.count_singleton]
  simp only [beq_iff_eq]

/-- The order of the releases does not matter. -/
theorem perm (released : Releases before first after)
    (same : List.Perm first second) : Releases before second after := by
  refine ⟨released.next_eq, fun region => ?_⟩
  rw [released.freed_eq, same.count_eq]

end Releases

/-- Obtained and released regions have to be the same ones. -/
theorem Obtains.givesBack_iff (got : Obtains before obtained middle)
    (gave : Releases middle released after) :
    GivesBack before after ↔
      ∀ region,
        released.count (some region) = obtained.count (some region) := by
  refine forall_congr' fun region => ?_
  rw [gave.freed_eq, got.freed_eq, gave.next_eq, got.count_eq]
  exact Nat.add_left_cancel_iff

theorem Obtains.givesBack (got : Obtains before obtained middle)
    (gave : Releases middle released after)
    (same : List.Perm released obtained) : GivesBack before after :=
  (got.givesBack_iff gave).mpr fun region => same.count_eq (some region)

/-- A region of the component that the destruction does not name is lost. -/
theorem Obtains.lost {region : ℕ} (got : Obtains before obtained middle)
    (gave : Releases middle released after) (member : some region ∈ obtained)
    (unnamed : some region ∉ released) : ¬ GivesBack before after := by
  intro given
  have same := (got.givesBack_iff gave).mp given region
  rw [List.count_eq_zero_of_not_mem unnamed] at same
  exact absurd member (List.count_eq_zero.mp same.symm)

/-! ## Lifecycles -/

/-- A component: its pointers to regions, the creations that succeed, the
operations, which change no such pointer, and the destruction. -/
structure Lifecycle where
  Object : Type
  Regions : Type
  regions : Object → Regions
  create : RegionHeap → Option (Object × RegionHeap)
  Operation : Object → Object → Prop
  keeps : ∀ {before after : Object}, Operation before after →
    regions after = regions before
  destroy : Regions → RegionHeap → Option RegionHeap

namespace Lifecycle

variable (life : Lifecycle) {object later : life.Object}

/-- The regions are the same after every sequence of operations. -/
theorem regions_eq
    (operations : Relation.ReflTransGen life.Operation object later) :
    life.regions later = life.regions object := by
  induction operations with
  | refl => rfl
  | tail _ operation induction => exact (life.keeps operation).trans induction

/-- The destruction of a component gives back what the heap has given since
`before`. -/
def Returns (before middle : RegionHeap) (object : life.Object) : Prop :=
  ∃ after, life.destroy (life.regions object) middle = some after ∧
    GivesBack before after

theorem returns_iff
    (operations : Relation.ReflTransGen life.Operation object later) :
    life.Returns before middle later ↔ life.Returns before middle object := by
  unfold Returns
  rw [life.regions_eq operations]

end Lifecycle

end Foundation
