import Mathlib.Data.Finset.Basic
import Mathlib.Data.List.Count
import Mathlib.Tactic.SplitIfs

/-!
# Resources that are created, used and released

A history of events is lawful when nothing is used or released that is not
live, and nothing is created that is.  Then every resource has been created
once more often than released as long as it is live, and equally often
otherwise.
-/

namespace Foundation

universe u

inductive ResourceEvent (Resource : Type u) where
  | create (resource : Resource)
  | use (resource : Resource)
  | release (resource : Resource)
  deriving DecidableEq

namespace ResourceEvent

variable {Resource : Type u} [DecidableEq Resource]

def after (live : Finset Resource) : ResourceEvent Resource → Finset Resource
  | create resource => insert resource live
  | use _ => live
  | release resource => live.erase resource

def Lawful (live : Finset Resource) : ResourceEvent Resource → Prop
  | create resource => resource ∉ live
  | use resource => resource ∈ live
  | release resource => resource ∈ live

def allAfter (live : Finset Resource) :
    List (ResourceEvent Resource) → Finset Resource
  | [] => live
  | event :: events => allAfter (event.after live) events

def AllLawful (live : Finset Resource) :
    List (ResourceEvent Resource) → Prop
  | [] => True
  | event :: events => event.Lawful live ∧ AllLawful (event.after live) events

variable {live : Finset Resource} {events more : List (ResourceEvent Resource)}

@[simp] theorem allAfter_append :
    allAfter live (events ++ more) = allAfter (allAfter live events) more := by
  induction events generalizing live with
  | nil => rfl
  | cons event events induction => exact induction

@[simp] theorem allLawful_append :
    AllLawful live (events ++ more) ↔
      AllLawful live events ∧ AllLawful (allAfter live events) more := by
  induction events generalizing live with
  | nil => simp [AllLawful, allAfter]
  | cons event events induction =>
      simp [AllLawful, allAfter, induction, and_assoc]

/-- Uses of live resources are lawful and change nothing. -/
theorem uses_lawful
    (uses : ∀ event ∈ events, ∃ resource ∈ live, event = use resource) :
    AllLawful live events ∧ allAfter live events = live := by
  induction events with
  | nil => exact ⟨trivial, rfl⟩
  | cons event events induction =>
      obtain ⟨resource, isLive, rfl⟩ := uses event (List.mem_cons_self ..)
      obtain ⟨lawful, same⟩ := induction
        (fun event member => uses event (List.mem_cons_of_mem _ member))
      exact ⟨⟨isLive, lawful⟩, same⟩

theorem count_create (lawful : AllLawful live events)
    (resource : Resource) :
    events.count (create resource) + (if resource ∈ live then 1 else 0) =
      events.count (release resource) +
        if resource ∈ allAfter live events then 1 else 0 := by
  induction events generalizing live with
  | nil => rfl
  | cons event events induction =>
      have rest := induction lawful.2
      have first := lawful.1
      rw [allAfter, List.count_cons, List.count_cons]
      generalize allAfter (event.after live) events = final at rest ⊢
      cases event with
      | create created =>
          by_cases same : created = resource
          · subst same
            simp [Lawful, after] at first rest ⊢
            simp [first]
            omega
          · simp [after, same, Ne.symm same] at rest ⊢
            exact rest
      | use used =>
          simp
          exact rest
      | release released =>
          by_cases same : released = resource
          · subst same
            simp [Lawful, after] at first rest ⊢
            simp [first]
            omega
          · simp [after, same, Ne.symm same] at rest ⊢
            exact rest

/-- Everything has been released as often as it was created. -/
def Balanced (events : List (ResourceEvent Resource)) : Prop :=
  ∀ resource, events.count (create resource) = events.count (release resource)

theorem balanced_iff (lawful : AllLawful ∅ events) :
    Balanced events ↔ allAfter ∅ events = ∅ := by
  have counted := count_create lawful
  simp only [Finset.notMem_empty, if_false, Nat.add_zero] at counted
  constructor
  · intro balanced
    apply Finset.eq_empty_of_forall_notMem
    intro resource isLive
    have more := counted resource
    rw [if_pos isLive, balanced resource] at more
    omega
  · intro empty resource
    rw [counted resource, empty, if_neg (Finset.notMem_empty _), Nat.add_zero]

end ResourceEvent

end Foundation
