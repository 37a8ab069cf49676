import EmbeddedMiddle.Foundation.Transition
import Mathlib.Data.List.Basic

/-!
# Sliding windows over a sequence

A sequence that grows at its end while elements are given up from its front.
At most `capacity` elements lie between the two borders.
-/

namespace Foundation

universe u

structure SlidingWindow (Value : Type u) (capacity : ℕ) where
  pushed : List Value
  deleted : ℕ
  deleted_le : deleted ≤ pushed.length
  bounded : pushed.length ≤ deleted + capacity

/-- A call with the answer it got. -/
inductive WindowEvent (Value : Type u) where
  | push (value : Value) (accepted : Bool)
  | delete (number : ℕ) (done : Bool)

namespace WindowEvent

variable {Value : Type u}

/-- The values of the pushes that succeeded, in order. -/
def accepted (events : List (WindowEvent Value)) : List Value :=
  events.filterMap (fun event =>
    match event with
    | .push value true => some value
    | _ => none)

@[simp] theorem accepted_append (left right : List (WindowEvent Value)) :
    accepted (left ++ right) = accepted left ++ accepted right :=
  List.filterMap_append

end WindowEvent

namespace SlidingWindow

variable {Value : Type u} {capacity : ℕ}

def empty : SlidingWindow Value capacity :=
  ⟨[], 0, Nat.le_refl 0, Nat.zero_le _⟩

/-- What was pushed and not deleted yet, oldest first. -/
def items (window : SlidingWindow Value capacity) : List Value :=
  window.pushed.drop window.deleted

theorem length_items (window : SlidingWindow Value capacity) :
    window.items.length + window.deleted = window.pushed.length := by
  rw [items, List.length_drop, Nat.sub_add_cancel window.deleted_le]

def push (window : SlidingWindow Value capacity) (value : Value)
    (room : window.items.length < capacity) :
    SlidingWindow Value capacity where
  pushed := window.pushed ++ [value]
  deleted := window.deleted
  deleted_le := by
    rw [List.length_append]
    exact Nat.le_add_right_of_le window.deleted_le
  bounded := by
    have := window.length_items
    rw [List.length_append, List.length_singleton]
    omega

def delete (window : SlidingWindow Value capacity) (number : ℕ)
    (enough : number ≤ window.items.length) :
    SlidingWindow Value capacity where
  pushed := window.pushed
  deleted := window.deleted + number
  deleted_le := by
    have := window.length_items
    omega
  bounded := by
    have := window.bounded
    omega

@[simp] theorem items_push (window : SlidingWindow Value capacity)
    (value : Value) (room : window.items.length < capacity) :
    (window.push value room).items = window.items ++ [value] :=
  List.drop_append_of_le_length window.deleted_le

@[simp] theorem items_delete (window : SlidingWindow Value capacity)
    (number : ℕ) (enough : number ≤ window.items.length) :
    (window.delete number enough).items = window.items.drop number := by
  rw [items, items, delete, List.drop_drop]

/-- After one deletion there is room for one value. -/
theorem room_of_delete (window : SlidingWindow Value capacity)
    (nonempty : 1 ≤ window.items.length) :
    (window.delete 1 nonempty).items.length < capacity := by
  have counted := window.length_items
  have bounded := window.bounded
  rw [items_delete, List.length_drop]
  omega

/-- The calls on a window; `overwrites` is what a push does when it is full. -/
inductive Step (overwrites : Bool) :
    SlidingWindow Value capacity → WindowEvent Value →
      SlidingWindow Value capacity → Prop where
  | push {window : SlidingWindow Value capacity} {value : Value}
      (room : window.items.length < capacity) :
      Step overwrites window (.push value true) (window.push value room)
  | refused {window : SlidingWindow Value capacity} {value : Value} :
      window.items.length = capacity → overwrites = false →
      Step overwrites window (.push value false) window
  | overwritten {window : SlidingWindow Value capacity} {value : Value}
      (nonempty : 1 ≤ window.items.length) :
      window.items.length = capacity → overwrites = true →
      Step overwrites window (.push value true)
        ((window.delete 1 nonempty).push value
          (window.room_of_delete nonempty))
  | delete {window : SlidingWindow Value capacity} {number : ℕ}
      (enough : number ≤ window.items.length) :
      number ≠ 0 →
      Step overwrites window (.delete number true)
        (window.delete number enough)
  | invalid {window : SlidingWindow Value capacity} {number : ℕ} :
      number = 0 ∨ window.items.length < number →
      Step overwrites window (.delete number false) window

theorem Step.pushed_eq {overwrites : Bool}
    {before after : SlidingWindow Value capacity} {event : WindowEvent Value}
    (taken : Step overwrites before event after) :
    after.pushed = before.pushed ++ WindowEvent.accepted [event] := by
  cases taken with
  | push room => rfl
  | refused full _ => exact (List.append_nil _).symm
  | overwritten nonempty full _ => rfl
  | delete enough _ => exact (List.append_nil _).symm
  | invalid wrong => exact (List.append_nil _).symm

/-- In every run the sequence consists of the accepted values. -/
theorem pushed_eq {overwrites : Bool} {events : List (WindowEvent Value)}
    {window : SlidingWindow Value capacity}
    (run : Run (Step overwrites) empty events window) :
    window.pushed = WindowEvent.accepted events := by
  apply run.history_invariant
    (fun events (window : SlidingWindow Value capacity) =>
      window.pushed = WindowEvent.accepted events)
  · rfl
  · intro events before event after balance taken
    rw [taken.pushed_eq, balance, WindowEvent.accepted_append]

end SlidingWindow

end Foundation
