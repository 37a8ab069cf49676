import EmbeddedMiddle.Foundation.Transition
import Mathlib.Data.Fintype.Basic
import Mathlib.Data.Finset.Card

/-!
# Interleaved threads

Threads share a state and each has a place in its program.  A step of the
system is a step of one thread.  Counting the threads at certain places is the
bookkeeping that accounts of shared counters need.
-/

namespace Foundation

universe u v w x

structure Threads (Thread : Type u) (Shared : Type v) (Place : Type w) where
  shared : Shared
  place : Thread → Place

namespace Threads

variable {Thread : Type u} {Shared : Type v} {Place : Type w}
  {Action : Type x}

section Counting

variable [Fintype Thread] {kind : Place → Bool}

/-- The number of threads at the places of a kind. -/
def count (kind : Place → Bool) (place : Thread → Place) : ℕ :=
  (Finset.univ.filter (fun thread => kind (place thread) = true)).card

theorem count_const {start : Place} (outside : kind start = false) :
    count kind (fun _ : Thread => start) = 0 := by
  simp [count, outside]

end Counting

variable [DecidableEq Thread]

/-- One thread moves; the others stay where they are. -/
inductive Step
    (program : Thread → Shared → Place → Action → Shared → Place → Prop) :
    Threads Thread Shared Place → Thread × Action →
      Threads Thread Shared Place → Prop where
  | move {state : Threads Thread Shared Place} {thread : Thread}
      {action : Action} {shared : Shared} {place : Place} :
      program thread state.shared (state.place thread) action shared place →
      Step program state (thread, action)
        ⟨shared, Function.update state.place thread place⟩

theorem Step.place_of_ne
    {program : Thread → Shared → Place → Action → Shared → Place → Prop}
    {before after : Threads Thread Shared Place} {thread other : Thread}
    {action : Action}
    (taken : Step program before (thread, action) after)
    (different : other ≠ thread) : after.place other = before.place other := by
  cases taken
  exact Function.update_of_ne different _ _

variable [Fintype Thread]

/-- The number of the other threads at such places. -/
def countOthers (kind : Place → Bool) (place : Thread → Place)
    (thread : Thread) : ℕ :=
  ((Finset.univ.filter
    (fun other => kind (place other) = true)).erase thread).card

theorem count_eq (kind : Place → Bool) (place : Thread → Place)
    (thread : Thread) :
    count kind place =
      (kind (place thread)).toNat + countOthers kind place thread := by
  unfold count countOthers
  cases here : kind (place thread) with
  | true =>
      have member : thread ∈
          Finset.univ.filter (fun other => kind (place other) = true) := by
        simp [here]
      rw [← Finset.card_erase_add_one member]
      exact Nat.add_comm _ _
  | false =>
      have absent : thread ∉
          Finset.univ.filter (fun other => kind (place other) = true) := by
        simp [here]
      rw [Finset.erase_eq_of_notMem absent]
      exact (Nat.zero_add _).symm

theorem countOthers_update (kind : Place → Bool) (place : Thread → Place)
    (thread : Thread) (new : Place) :
    countOthers kind (Function.update place thread new) thread =
      countOthers kind place thread := by
  unfold countOthers
  congr 1
  ext other
  simp only [Finset.mem_erase, Finset.mem_filter, Finset.mem_univ, true_and]
  apply and_congr_right
  intro different
  rw [Function.update_of_ne different]

theorem count_update (kind : Place → Bool) (place : Thread → Place)
    (thread : Thread) (new : Place) :
    count kind (Function.update place thread new) =
      (kind new).toNat + countOthers kind place thread := by
  rw [count_eq kind _ thread, Function.update_self, countOthers_update]

end Threads

end Foundation
