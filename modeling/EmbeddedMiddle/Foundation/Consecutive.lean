import Mathlib.Algebra.BigOperators.Group.List.Basic
import Mathlib.Algebra.GroupWithZero.Nat
import Mathlib.Data.Int.Basic

/-!
# Areas in one buffer

Areas of memory that are laid out one behind the other, and arrays in them.
-/

namespace Foundation

/-- The bytes from `start` to before `start + size`. -/
structure Area where
  start : ℤ
  size : ℕ
  deriving DecidableEq, Inhabited, Repr

namespace Area

def Inside (inner outer : Area) : Prop :=
  outer.start ≤ inner.start ∧
    inner.start + inner.size ≤ outer.start + outer.size

def Apart (left right : Area) : Prop :=
  left.start + left.size ≤ right.start ∨ right.start + right.size ≤ left.start

/-- The entry at `index` of an array. -/
def entry (start : ℤ) (size index : ℕ) : Area :=
  ⟨start + (size * index : ℕ), size⟩

theorem entry_inside {start : ℤ} {size index count : ℕ}
    (bound : index < count) :
    (entry start size index).Inside ⟨start, size * count⟩ := by
  have next : size * (index + 1) ≤ size * count :=
    Nat.mul_le_mul_left size bound
  rw [Nat.mul_succ] at next
  unfold Inside entry
  dsimp only
  constructor
  · omega
  · omega

/-- Areas of the given sizes, each behind the one before. -/
def consecutive (start : ℤ) : List ℕ → List Area
  | [] => []
  | size :: sizes => ⟨start, size⟩ :: consecutive (start + size) sizes

variable {start : ℤ} {sizes : List ℕ} {area : Area}

theorem consecutive_append (start : ℤ) (before after : List ℕ) :
    consecutive start (before ++ after) =
      consecutive start before ++ consecutive (start + before.sum) after := by
  induction before generalizing start with
  | nil =>
      have none : start + ([] : List ℕ).sum = start := Int.add_zero start
      rw [none]
      rfl
  | cons size before induction =>
      have behind : start + (size :: before).sum =
          start + size + before.sum := by
        rw [List.sum_cons]
        omega
      rw [behind]
      exact congrArg (List.cons _) (induction _)

theorem consecutive_inside (member : area ∈ consecutive start sizes) :
    area.Inside ⟨start, sizes.sum⟩ := by
  induction sizes generalizing start with
  | nil => cases member
  | cons size sizes induction =>
      unfold Inside
      dsimp only
      rw [List.sum_cons]
      rcases List.mem_cons.mp member with rfl | later
      · dsimp only
        omega
      · obtain ⟨lower, upper⟩ := induction later
        dsimp only at lower upper
        omega

theorem consecutive_apart (start : ℤ) (sizes : List ℕ) :
    (consecutive start sizes).Pairwise Apart := by
  induction sizes generalizing start with
  | nil => exact .nil
  | cons size sizes induction =>
      apply List.Pairwise.cons
      · intro area later
        exact .inl (consecutive_inside later).1
      · exact induction _

end Area

end Foundation
