import Mathlib.Data.List.Basic
import Mathlib.Data.List.Infix

/-!
# Streams whose writes are acknowledged

A writer is told that a block was taken, although perhaps only a part of it
was.  What was taken reaches the reader in order.  The stream is whole when
nothing that was acknowledged is missing; otherwise it has fallen behind, and
what is written later overtakes the lost items.
-/

namespace Foundation

universe u

/-- `flight` was taken and is not read yet. -/
structure AckedStream (Item : Type u) where
  acknowledged : List Item
  delivered : List Item
  flight : List Item

namespace AckedStream

variable {Item : Type u} {stream : AckedStream Item}

def empty : AckedStream Item := ⟨[], [], []⟩

/-- A block of which the first `count` items are taken is acknowledged. -/
def write (stream : AckedStream Item) (block : List Item) (count : ℕ) :
    AckedStream Item :=
  { stream with
    acknowledged := stream.acknowledged ++ block
    flight := stream.flight ++ block.take count }

def read (stream : AckedStream Item) (count : ℕ) : AckedStream Item :=
  { stream with
    delivered := stream.delivered ++ stream.flight.take count
    flight := stream.flight.drop count }

/-- Everything that was taken, in order. -/
def taken (stream : AckedStream Item) : List Item :=
  stream.delivered ++ stream.flight

structure Whole (stream : AckedStream Item) : Prop where
  taken_eq : stream.taken = stream.acknowledged

/-- More was acknowledged than taken. -/
structure Behind (stream : AckedStream Item) : Prop where
  lost : stream.taken.length < stream.acknowledged.length

@[simp] theorem taken_write (block : List Item) (count : ℕ) :
    (stream.write block count).taken = stream.taken ++ block.take count :=
  (List.append_assoc ..).symm

@[simp] theorem taken_read (count : ℕ) :
    (stream.read count).taken = stream.taken := by
  simp [taken, read]

/-! ## Whole streams -/

theorem whole_empty : (empty : AckedStream Item).Whole := ⟨rfl⟩

theorem Whole.delivered_isPrefix (whole : stream.Whole) :
    stream.delivered <+: stream.acknowledged :=
  ⟨stream.flight, whole.taken_eq⟩

theorem Whole.read (whole : stream.Whole) (count : ℕ) :
    (stream.read count).Whole :=
  ⟨(taken_read count).trans whole.taken_eq⟩

theorem Whole.write (whole : stream.Whole) (block : List Item) :
    (stream.write block block.length).Whole := by
  constructor
  rw [taken_write, List.take_length, whole.taken_eq]
  rfl

/-! ## Streams that have fallen behind -/

theorem Whole.behind_of_short (whole : stream.Whole) {block : List Item}
    {count : ℕ} (short : count < block.length) :
    (stream.write block count).Behind := by
  constructor
  rw [taken_write, whole.taken_eq, AckedStream.write, List.length_append,
    List.length_append, List.length_take]
  omega

theorem Behind.read (behind : stream.Behind) (count : ℕ) :
    (stream.read count).Behind :=
  ⟨(taken_read count).symm ▸ behind.lost⟩

theorem Behind.write (behind : stream.Behind) (block : List Item)
    (count : ℕ) : (stream.write block count).Behind := by
  have lost := behind.lost
  constructor
  rw [taken_write, AckedStream.write, List.length_append,
    List.length_append, List.length_take]
  omega

/-- A later item takes the place of a lost one, so a reader notices. -/
theorem Behind.exists_overtaking (behind : stream.Behind)
    (drained : stream.flight = []) :
    ∃ lost, ∀ item, item ≠ lost →
      ¬ ((stream.write [item] 1).read 1).delivered <+:
        ((stream.write [item] 1).read 1).acknowledged := by
  have shorter := behind.lost
  rw [taken, drained, List.append_nil] at shorter
  refine ⟨stream.acknowledged[stream.delivered.length], ?_⟩
  intro item different isPrefix
  have place : stream.delivered ++ [item] <+:
      stream.acknowledged ++ [item] := by
    simpa [AckedStream.read, AckedStream.write, drained] using isPrefix
  have within : stream.delivered.length <
      (stream.delivered ++ [item]).length := by simp
  have same := place.getElem within
  rw [List.getElem_append_left shorter] at same
  exact different (by simpa using same)

end AckedStream

end Foundation
