import EmbeddedMiddle.Foundation.Interleaving

/-!
# Owners of locks

The place of a thread in its program says which locks it holds; each lock
knows its owner.  Steps that take or give back one lock keep both views in
agreement, so two threads never hold the same lock.
-/

namespace Foundation

namespace Threads

universe u v w

variable {Thread : Type u} {Lock : Type v} {Place : Type w}

/-- A lock is owned by the thread at whose place it is held. -/
def Owned (holds : Place → Lock → Bool) (owner : Lock → Option Thread)
    (place : Thread → Place) : Prop :=
  ∀ thread lock, holds (place thread) lock = true ↔ owner lock = some thread

namespace Owned

variable {holds : Place → Lock → Bool} {owner : Lock → Option Thread}
  {place : Thread → Place} {thread other : Thread} {lock : Lock}
  {old new : Place}

theorem start {idle : Place} (nothing : ∀ lock, holds idle lock = false) :
    Owned holds (fun _ => none) (fun _ : Thread => idle) := by
  intro thread lock
  simp [nothing lock]

theorem exclusive (owned : Owned holds owner place)
    (one : holds (place thread) lock = true)
    (another : holds (place other) lock = true) : other = thread := by
  have first := (owned thread lock).mp one
  have second := (owned other lock).mp another
  exact Option.some.inj (second.symm.trans first)

variable [DecidableEq Thread]

/-- The thread moves to a place where it holds the same locks. -/
theorem keep (owned : Owned holds owner place)
    (here : place thread = old)
    (same : ∀ lock, holds new lock = holds old lock) :
    Owned holds owner (Function.update place thread new) := by
  intro other lock
  by_cases mover : other = thread
  · subst mover
    rw [Function.update_self, same lock, ← here]
    exact owned other lock
  · rw [Function.update_of_ne mover]
    exact owned other lock

variable [DecidableEq Lock]

theorem acquire (owned : Owned holds owner place)
    (here : place thread = old)
    (free : owner lock = none)
    (gains : ∀ other,
      holds new other = (decide (other = lock) || holds old other)) :
    Owned holds (Function.update owner lock (some thread))
      (Function.update place thread new) := by
  intro other taken
  have before := owned other taken
  by_cases isLock : taken = lock
  · subst isLock
    rw [Function.update_self]
    by_cases mover : other = thread
    · subst mover
      simp [gains taken]
    · rw [Function.update_of_ne mover, before, free]
      simp [Ne.symm mover]
  · rw [Function.update_of_ne isLock, ← before]
    by_cases mover : other = thread
    · subst mover
      rw [Function.update_self, gains taken, here]
      simp [isLock]
    · rw [Function.update_of_ne mover]

theorem release (owned : Owned holds owner place)
    (here : place thread = old)
    (held : holds old lock = true)
    (loses : ∀ other,
      holds new other = (holds old other && !decide (other = lock))) :
    Owned holds (Function.update owner lock none)
      (Function.update place thread new) := by
  rw [← here] at held
  intro other taken
  have before := owned other taken
  by_cases isLock : taken = lock
  · subst isLock
    rw [Function.update_self]
    by_cases mover : other = thread
    · subst mover
      simp [loses taken]
    · rw [Function.update_of_ne mover]
      constructor
      · intro holding
        exact absurd (owned.exclusive held holding) mover
      · intro impossible
        cases impossible
  · rw [Function.update_of_ne isLock, ← before]
    by_cases mover : other = thread
    · subst mover
      rw [Function.update_self, loses taken, here]
      simp [isLock]
    · rw [Function.update_of_ne mover]

end Owned

/-! ## One lock -/

/-- The only lock is held by the thread at whose place it is. -/
def HeldBy (holds : Place → Bool) (holder : Option Thread)
    (place : Thread → Place) : Prop :=
  ∀ thread, holds (place thread) = true ↔ holder = some thread

namespace HeldBy

variable {holds : Place → Bool} {holder : Option Thread}
  {place : Thread → Place} {thread : Thread} {old new : Place}

theorem start {idle : Place} (nothing : holds idle = false) :
    HeldBy holds none (fun _ : Thread => idle) := by
  intro thread
  simp [nothing]

theorem owned (held : HeldBy holds holder place) :
    Owned (fun here (_ : Unit) => holds here) (fun _ => holder) place :=
  fun thread _ => held thread

theorem holder_eq (held : HeldBy holds holder place)
    (here : place thread = old) (holding : holds old = true) :
    holder = some thread :=
  (held thread).mp (here.symm ▸ holding)

/-- Nobody but the holder is at a place with the lock. -/
theorem others (held : HeldBy holds holder place)
    (different : holder ≠ some thread) : holds (place thread) = false := by
  cases holding : holds (place thread) with
  | false => rfl
  | true => exact absurd ((held thread).mp holding) different

variable [DecidableEq Thread]

theorem keep (held : HeldBy holds holder place) (here : place thread = old)
    (same : holds new = holds old) :
    HeldBy holds holder (Function.update place thread new) :=
  fun other => held.owned.keep here (fun _ => same) other ()

theorem acquire (held : HeldBy holds none place) (here : place thread = old)
    (gains : holds new = true) :
    HeldBy holds (some thread) (Function.update place thread new) := by
  have taken : Owned (fun there (_ : Unit) => holds there)
      (Function.update (fun _ => none) () (some thread))
      (Function.update place thread new) := by
    apply held.owned.acquire here rfl
    intro lock
    simp [gains]
  intro other
  rw [taken other (), Function.update_self]

theorem release (held : HeldBy holds holder place)
    (here : place thread = old) (holding : holds old = true)
    (loses : holds new = false) :
    HeldBy holds none (Function.update place thread new) := by
  have given : Owned (fun there (_ : Unit) => holds there)
      (Function.update (fun _ => holder) () none)
      (Function.update place thread new) := by
    apply held.owned.release here holding
    intro lock
    simp [loses]
  intro other
  rw [given other (), Function.update_self]

end HeldBy

end Threads

end Foundation
