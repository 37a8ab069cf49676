import Mathlib.Data.Finset.Card

/-!
# Stores of a limited number of objects

The objects of a store are known by handles.  A store creates an object, under
a handle that no other has, as long as it has fewer than its limit.  Stores of
several kinds side by side do not influence each other.
-/

namespace Foundation

universe u v w

/-- A creation with the handle it returned, if it did, or a deletion. -/
inductive ObjectEvent (Handle : Type u) where
  | create (result : Option Handle)
  | delete (handle : Handle)
  deriving DecidableEq

namespace ObjectEvent

variable {Handle : Type u} {live : Finset Handle}
  {event : ObjectEvent Handle} {limit : ℕ}

/-- The objects that are live afterwards. -/
def after [DecidableEq Handle] (live : Finset Handle) :
    ObjectEvent Handle → Finset Handle
  | create none => live
  | create (some handle) => insert handle live
  | delete handle => live.erase handle

/-- What a store with this limit does. -/
def Fits (limit : ℕ) (live : Finset Handle) : ObjectEvent Handle → Prop
  | create none => live.card = limit
  | create (some handle) => handle ∉ live ∧ live.card < limit
  | delete handle => handle ∈ live

/-- A creation succeeds exactly below the limit. -/
def Answered (limit : ℕ) (live : Finset Handle) : ObjectEvent Handle → Prop
  | create result => result.isSome = true ↔ live.card < limit
  | delete _ => True

/-- The event is one of the store, and afterwards its state shows the objects
that are left. -/
structure Takes [DecidableEq Handle] (limit : ℕ) (live : Finset Handle)
    (Shows : Finset Handle → Prop) (event : ObjectEvent Handle) : Prop where
  fits : event.Fits limit live
  shows : Shows (event.after live)

theorem Fits.answered (fits : event.Fits limit live) :
    event.Answered limit live := by
  cases event with
  | delete handle => trivial
  | create result =>
      cases result with
      | none =>
          have full : live.card = limit := fits
          simp [Answered, full]
      | some handle =>
          have room : live.card < limit := fits.2
          simp [Answered, room]

/-- The answers of a store are right for another limit if the number of live
objects is on the same side of both. -/
theorem Fits.answered_iff {other : ℕ} {result : Option Handle}
    (fits : (create result).Fits limit live) :
    (create result).Answered other live ↔
      (live.card < other ↔ live.card < limit) := by
  have answered : result.isSome = true ↔ live.card < limit := fits.answered
  rw [Answered, answered]
  exact ⟨Iff.symm, Iff.symm⟩

end ObjectEvent

/-! ## Several kinds -/

variable {Kind : Type v} [DecidableEq Kind] {Handle : Kind → Type u}
  [∀ kind, DecidableEq (Handle kind)]

abbrev LiveObjects (Handle : Kind → Type u) :=
  (kind : Kind) → Finset (Handle kind)

/-- An event of one kind. -/
abbrev KindEvent (Handle : Kind → Type u) :=
  (kind : Kind) × ObjectEvent (Handle kind)

namespace LiveObjects

def after (live : LiveObjects Handle) (event : KindEvent Handle) :
    LiveObjects Handle :=
  Function.update live event.1 (event.2.after (live event.1))

/-- A state in which each kind shows its live objects still does after an event
of one kind that leaves the others alone. -/
theorem shows_after {State : Type w}
    {Shows : (kind : Kind) → State → Finset (Handle kind) → Prop}
    {before next : State} {live : LiveObjects Handle}
    {event : KindEvent Handle}
    (shows : ∀ kind, Shows kind before (live kind))
    (own : Shows event.1 next (event.2.after (live event.1)))
    (others : ∀ kind handles, kind ≠ event.1 →
      Shows kind before handles → Shows kind next handles) :
    ∀ kind, Shows kind next (live.after event kind) := by
  intro kind
  by_cases same : kind = event.1
  · subst same
    rw [after, Function.update_self]
    exact own
  · rw [after, Function.update_of_ne same]
    exact others kind _ same (shows kind)

end LiveObjects

end Foundation
