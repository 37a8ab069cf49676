import EmbeddedMiddle.Foundation.Transition
import Mathlib.Data.List.Basic

/-!
# Bounded first-in first-out channels

A channel holds at most `capacity` values.  Whatever the order of the calls,
the values accepted so far are the values delivered so far followed by the
values held.
-/

namespace Foundation

universe u

structure BoundedFifo (Value : Type u) (capacity : ℕ) where
  items : List Value
  bounded : items.length ≤ capacity

/-- A call with the answer it got. -/
inductive FifoEvent (Value : Type u) where
  | push (value : Value) (accepted : Bool)
  | pop (result : Option Value)

namespace FifoEvent

variable {Value : Type u}

def accepted? : FifoEvent Value → Option Value
  | .push value true => some value
  | _ => none

def delivered? : FifoEvent Value → Option Value
  | .pop result => result
  | _ => none

/-- The values of the successful pushes, in order. -/
def accepted (events : List (FifoEvent Value)) : List Value :=
  events.filterMap accepted?

/-- The values of the successful pops, in order. -/
def delivered (events : List (FifoEvent Value)) : List Value :=
  events.filterMap delivered?

end FifoEvent

namespace BoundedFifo

variable {Value : Type u} {capacity : ℕ}

def empty : BoundedFifo Value capacity := ⟨[], Nat.zero_le _⟩

def push (fifo : BoundedFifo Value capacity) (value : Value)
    (room : fifo.items.length < capacity) : BoundedFifo Value capacity :=
  ⟨fifo.items ++ [value], by
    rw [List.length_append]
    exact room⟩

def rest (fifo : BoundedFifo Value capacity) : BoundedFifo Value capacity :=
  ⟨fifo.items.tail, by
    rw [List.length_tail]
    exact Nat.le_trans (Nat.sub_le _ _) fifo.bounded⟩

inductive Step : BoundedFifo Value capacity → FifoEvent Value →
    BoundedFifo Value capacity → Prop where
  | push {fifo : BoundedFifo Value capacity} {value : Value}
      (room : fifo.items.length < capacity) :
      Step fifo (.push value true) (fifo.push value room)
  | full {fifo : BoundedFifo Value capacity} {value : Value} :
      fifo.items.length = capacity → Step fifo (.push value false) fifo
  | pop {fifo : BoundedFifo Value capacity} {value : Value} :
      fifo.items.head? = some value → Step fifo (.pop (some value)) fifo.rest
  | empty {fifo : BoundedFifo Value capacity} :
      fifo.items = [] → Step fifo (.pop none) fifo

/-- What one call does to the balance of accepted and delivered values. -/
theorem Step.balance {before after : BoundedFifo Value capacity}
    {event : FifoEvent Value} (taken : Step before event after) :
    before.items ++ event.accepted?.toList =
      event.delivered?.toList ++ after.items := by
  cases taken with
  | push room => rfl
  | full isFull => simp [FifoEvent.accepted?, FifoEvent.delivered?]
  | pop isHead =>
      obtain ⟨items, bounded⟩ := before
      cases items with
      | nil => cases isHead
      | cons value items =>
          cases Option.some.inj isHead
          simp [FifoEvent.accepted?, FifoEvent.delivered?, rest]
  | empty isEmpty => simp [FifoEvent.accepted?, FifoEvent.delivered?]

/-- Nothing is lost, duplicated or reordered. -/
theorem accepted_eq {events : List (FifoEvent Value)}
    {fifo : BoundedFifo Value capacity} (run : Run Step empty events fifo) :
    FifoEvent.accepted events = FifoEvent.delivered events ++ fifo.items := by
  apply run.history_invariant (fun events fifo =>
    FifoEvent.accepted events = FifoEvent.delivered events ++ fifo.items)
  · rfl
  · intro events before event after balanced taken
    have balance := taken.balance
    have single : ∀ {Result : Type u}
        (choose : FifoEvent Value → Option Result),
        [event].filterMap choose = (choose event).toList := by
      intro Result choose
      cases chosen : choose event <;> simp [chosen]
    simp only [FifoEvent.accepted, FifoEvent.delivered,
      List.filterMap_append, single] at balanced ⊢
    rw [balanced, List.append_assoc, balance, List.append_assoc]

/-- The `k`-th value delivered is the `k`-th value accepted. -/
theorem delivered_eq {events : List (FifoEvent Value)}
    {fifo : BoundedFifo Value capacity} (run : Run Step empty events fifo)
    {k : ℕ} (bound : k < (FifoEvent.delivered events).length) :
    (FifoEvent.accepted events)[k]? = (FifoEvent.delivered events)[k]? := by
  rw [accepted_eq run, List.getElem?_append_left bound]

end BoundedFifo

end Foundation
