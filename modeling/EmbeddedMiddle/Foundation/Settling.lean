import EmbeddedMiddle.Foundation.LockOwners
import Mathlib.Algebra.BigOperators.Group.Finset.Piecewise
import Mathlib.Algebra.Order.BigOperators.Group.Finset

/-!
# Runs that come to an end

Every place of a program has a rank, and the steps of a kind lead to places of
a lower one.  Then there are at most as many such steps as the ranks of all
threads together, in whatever order the threads take them.
-/

namespace Foundation

universe u v w x

/-! ## A measure of what remains -/

namespace Run

variable {State : Type u} {Label : Type v}
  {step : State → Label → State → Prop} {measure : State → ℕ}
  {counted : Label → Prop}

/-- A run of steps that lower a measure is no longer than the measure at its
start. -/
theorem length_le
    (lowers : ∀ before label after, step before label after →
      counted label → measure after < measure before)
    {start final : State} {labels : List Label}
    (run : Run step start labels final)
    (all : ∀ label ∈ labels, counted label) :
    labels.length + measure final ≤ measure start := by
  induction run with
  | nil => simp
  | snoc earlier taken induction =>
      have shorter := induction
        (fun label member => all label (List.mem_append_left _ member))
      have lower := lowers _ _ _ taken
        (all _ (List.mem_append_right _ (List.mem_singleton_self _)))
      rw [List.length_append, List.length_singleton]
      omega

/-- Whoever goes on gets to a state from which no such step is possible. -/
theorem exists_last
    (lowers : ∀ before label after, step before label after →
      counted label → measure after < measure before) (start : State) :
    ∃ labels final, Run step start labels final ∧
      (∀ label ∈ labels, counted label) ∧
        ∀ label next, counted label → ¬ step final label next := by
  induction measured : measure start using Nat.strong_induction_on
    generalizing start with
  | h rest induction =>
      by_cases last : ∀ label next, counted label → ¬ step start label next
      · exact ⟨[], start, .nil, by simp, last⟩
      · push Not at last
        obtain ⟨label, next, isCounted, taken⟩ := last
        obtain ⟨labels, final, run, all, last⟩ := induction (measure next)
          (measured ▸ lowers start label next taken isCounted) next rfl
        refine ⟨label :: labels, final, .cons taken run, ?_, last⟩
        intro other member
        rcases List.mem_cons.mp member with rfl | later
        · exact isCounted
        · exact all other later

end Run

/-! ## Threads that come to their ends -/

namespace Threads

variable {Thread : Type u} {Shared : Type v} {Place : Type w}
  {Action : Type x}

/-- No thread can take a step of the kind. -/
def Stuck
    (program : Thread → Shared → Place → Action → Shared → Place → Prop)
    (counted : Action → Prop) (state : Threads Thread Shared Place) : Prop :=
  ∀ thread action shared place, counted action →
    ¬ program thread state.shared (state.place thread) action shared place

/-- A lock with which everybody can go on is free. -/
theorem Stuck.free {Lock : Type*}
    {program : Thread → Shared → Place → Action → Shared → Place → Prop}
    {counted : Action → Prop} {state : Threads Thread Shared Place}
    {holds : Place → Lock → Bool} {owner : Lock → Option Thread}
    (stuck : Stuck program counted state)
    (owned : Owned holds owner state.place) (lock : Lock)
    (moves : ∀ thread, holds (state.place thread) lock = true →
      ∃ action shared place, counted action ∧
        program thread state.shared (state.place thread) action shared
          place) : owner lock = none := by
  cases isOwner : owner lock with
  | none => rfl
  | some thread =>
      obtain ⟨action, shared, place, isCounted, moved⟩ :=
        moves thread ((owned thread lock).mpr isOwner)
      exact absurd moved (stuck thread action shared place isCounted)

/-- When the holder of the only lock can go on, and so can everybody outside it
but those that rest, a stuck state has the lock free and everybody at rest. -/
theorem Stuck.resting
    {program : Thread → Shared → Place → Action → Shared → Place → Prop}
    {counted : Action → Prop} {state : Threads Thread Shared Place}
    {holds rests : Place → Bool} {holder : Option Thread}
    (stuck : Stuck program counted state)
    (held : HeldBy holds holder state.place)
    (inside : ∀ thread, holds (state.place thread) = true →
      ∃ action shared place, counted action ∧
        program thread state.shared (state.place thread) action shared place)
    (outside : holder = none → ∀ thread, holds (state.place thread) = false →
      rests (state.place thread) = false →
        ∃ action shared place, counted action ∧
          program thread state.shared (state.place thread) action shared
            place) :
    holder = none ∧ ∀ thread, rests (state.place thread) = true := by
  have free : holder = none := stuck.free held.owned () inside
  refine ⟨free, ?_⟩
  intro thread
  have notInside : holds (state.place thread) = false :=
    held.others (by rw [free]; simp)
  cases called : rests (state.place thread) with
  | true => rfl
  | false =>
      obtain ⟨action, shared, place, isCounted, moved⟩ :=
        outside free thread notInside called
      exact absurd moved (stuck thread action shared place isCounted)

variable [Fintype Thread]

/-- What all threads together still have to do. -/
def remaining (rank : Place → ℕ) (place : Thread → Place) : ℕ :=
  ∑ thread, rank (place thread)

theorem remaining_le {rank : Place → ℕ} {active : Place → Bool} {bound : ℕ}
    (bounded : ∀ place, rank place ≤ bound)
    (idle : ∀ place, active place = false → rank place = 0)
    (place : Thread → Place) :
    remaining rank place ≤ bound * count active place := by
  have each : ∀ thread ∈ Finset.univ, rank (place thread) ≤
      if active (place thread) = true then bound else 0 := by
    intro thread _
    split_ifs with isActive
    · exact bounded (place thread)
    · exact (idle _ (Bool.eq_false_of_not_eq_true isActive)).le
  calc remaining rank place
      ≤ ∑ thread, if active (place thread) = true then bound else 0 :=
        Finset.sum_le_sum each
    _ = bound * count active place := by
        rw [Finset.sum_ite, Finset.sum_const, Finset.sum_const_zero,
          Nat.add_zero, Nat.nsmul_eq_mul, Nat.mul_comm, count]

theorem count_eq_zero {kind : Place → Bool} {place : Thread → Place}
    (nobody : ∀ thread, kind (place thread) = false) :
    count kind place = 0 := by
  simp [count, nobody]

variable [DecidableEq Thread]

theorem remaining_update (rank : Place → ℕ) (place : Thread → Place)
    (thread : Thread) (new : Place) :
    remaining rank (Function.update place thread new) + rank (place thread) =
      remaining rank place + rank new := by
  have moved := Finset.sum_update_of_mem (Finset.mem_univ thread)
    (rank ∘ place) (rank new)
  have before := Finset.sum_update_of_mem (Finset.mem_univ thread)
    (rank ∘ place) (rank (place thread))
  rw [← Function.comp_update] at moved before
  rw [Function.update_eq_self] at before
  simp only [Function.comp_apply] at moved before
  rw [remaining, remaining, moved, before]
  omega

/-! ### Threads that sleep -/

section Sleepers

variable {rank : Place × Bool → ℕ} {place : Thread → Place}
  {asleep next : Thread → Bool} {thread : Thread} {old new : Place}

/-- The places of all threads and whether they sleep. -/
def beds (place : Thread → Place) (asleep : Thread → Bool) (thread : Thread) :
    Place × Bool :=
  (place thread, asleep thread)

omit [Fintype Thread] in
/-- A step of one thread that leaves the others asleep or awake. -/
theorem beds_move
    (others : ∀ other, other ≠ thread → next other = asleep other) :
    beds (Function.update place thread new) next =
      Function.update (beds place asleep) thread (new, next thread) := by
  funext other
  by_cases mover : other = thread
  · subst mover
    simp [beds]
  · simp [beds, mover, others other mover]

theorem remaining_move (here : place thread = old)
    (others : ∀ other, other ≠ thread → next other = asleep other)
    (lower : rank (new, next thread) < rank (old, asleep thread)) :
    remaining rank (beds (Function.update place thread new) next) <
      remaining rank (beds place asleep) := by
  have balance := remaining_update rank (beds place asleep) thread
    (new, next thread)
  have isBed : beds place asleep thread = (old, asleep thread) := by
    rw [← here, beds]
  rw [isBed] at balance
  rw [beds_move others]
  omega

/-- A broadcast makes work for all who sleep; the thread that makes it must
have had that much ahead of it. -/
theorem remaining_broadcast {cost : ℕ} (here : place thread = old)
    (wakes : ∀ place asleep, rank (place, false) ≤ rank (place, asleep) + cost)
    (covers : rank (new, false) + cost * Fintype.card Thread <
      rank (old, false)) :
    remaining rank (beds (Function.update place thread new) fun _ => false) <
      remaining rank (beds place asleep) := by
  have moved := remaining_update rank (beds place fun _ => false) thread
    (new, false)
  have isBed : beds place (fun _ => false) thread = (old, false) := by
    rw [← here, beds]
  have woken : remaining rank (beds place fun _ => false) ≤
      remaining rank (beds place asleep) + cost * Fintype.card Thread := by
    calc remaining rank (beds place fun _ => false)
        ≤ ∑ thread, (rank (place thread, asleep thread) + cost) :=
          Finset.sum_le_sum fun _ _ => wakes _ _
      _ = remaining rank (beds place asleep) +
            cost * Fintype.card Thread := by
          rw [Finset.sum_add_distrib, Finset.sum_const, Finset.card_univ,
            Nat.nsmul_eq_mul, Nat.mul_comm]
          rfl
  rw [isBed] at moved
  rw [beds_move fun _ _ => rfl]
  omega

omit [DecidableEq Thread] in
theorem remaining_beds_le {active : Place → Bool} {bound : ℕ}
    (bounded : ∀ place asleep, rank (place, asleep) ≤ bound)
    (idle : ∀ place asleep, active place = false → rank (place, asleep) = 0)
    (place : Thread → Place) (asleep : Thread → Bool) :
    remaining rank (beds place asleep) ≤ bound * count active place := by
  have few := @remaining_le Thread _ _ rank (fun bed => active bed.1) bound
    (fun bed => bounded bed.1 bed.2) (fun bed => idle bed.1 bed.2)
    (beds place asleep)
  exact few

end Sleepers

theorem remaining_lowers {rank : Place → ℕ} {counted : Action → Prop}
    {program : Thread → Shared → Place → Action → Shared → Place → Prop}
    (lowers : ∀ thread shared old action next new,
      program thread shared old action next new → counted action →
        rank new < rank old)
    (before : Threads Thread Shared Place) (label : Thread × Action)
    (after : Threads Thread Shared Place)
    (taken : Step program before label after) (isCounted : counted label.2) :
    remaining rank after.place < remaining rank before.place := by
  cases taken with
  | @move thread action shared place moved =>
      have lower := lowers _ _ _ _ _ _ moved isCounted
      have balance := remaining_update rank before.place thread place
      simp only
      omega

omit [Fintype Thread] in
theorem stuck_of_last
    {program : Thread → Shared → Place → Action → Shared → Place → Prop}
    {counted : Action → Prop} {state : Threads Thread Shared Place}
    (last : ∀ (label : Thread × Action) next, counted label.2 →
      ¬ Step program state label next) : Stuck program counted state :=
  fun thread action _ _ isCounted moved =>
    last (thread, action) _ isCounted (.move moved)

/-- Threads whose calls lower a rank: the calls in progress take a bounded
number of steps, and whatever holds of stuck states can be reached. -/
theorem come_to_rest {rank : Place → ℕ} {active : Place → Bool} {bound : ℕ}
    {inside counted : Action → Prop}
    {program : Thread → Shared → Place → Action → Shared → Place → Prop}
    {property settled : Threads Thread Shared Place → Prop}
    (fewer : ∀ action, counted action → inside action)
    (lowers : ∀ thread shared old action next new,
      program thread shared old action next new → inside action →
        rank new < rank old)
    (bounded : ∀ place, rank place ≤ bound)
    (idle : ∀ place, active place = false → rank place = 0)
    (preserved : ∀ before label after, property before →
      Step program before label after → property after)
    (reached : ∀ state, property state → Stuck program counted state →
      settled state)
    {state : Threads Thread Shared Place} (holds : property state) :
    (∀ further last, Run (Step program) state further last →
      (∀ label ∈ further, inside label.2) →
        further.length ≤ bound * count active state.place) ∧
      (Stuck program counted state → settled state) ∧
      ∃ further last, Run (Step program) state further last ∧
        (∀ label ∈ further, counted label.2) ∧ settled last := by
  refine ⟨?_, reached state holds, ?_⟩
  · intro further last goesOn all
    have short := goesOn.length_le (remaining_lowers lowers) all
    have few := remaining_le bounded idle state.place
    omega
  · have ownLowers : ∀ thread shared old action next new,
        program thread shared old action next new → counted action →
          rank new < rank old :=
      fun _ _ _ action _ _ moved isCounted =>
        lowers _ _ _ _ _ _ moved (fewer action isCounted)
    obtain ⟨further, last, goesOn, all, noMore⟩ :=
      Run.exists_last (remaining_lowers ownLowers) state
    exact ⟨further, last, goesOn, all, reached last
      (goesOn.invariant property holds preserved) (stuck_of_last noMore)⟩

end Threads

end Foundation
