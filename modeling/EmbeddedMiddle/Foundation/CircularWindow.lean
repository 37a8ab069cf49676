import Mathlib.Data.List.Basic
import Mathlib.Data.Nat.ModEq

/-!
# Windows over a circular array

The `count` slots that follow `tail` in an array of `capacity` slots, read in
order and wrapping at the end.  Filling the slot after the window appends to
it; moving `tail` forward drops from its front.
-/

namespace Foundation

def window {Value : Type*} (slots : ℕ → Value) (capacity tail count : ℕ) :
    List Value :=
  (List.range count).map (fun offset => slots ((tail + offset) % capacity))

variable {Value : Type*} {slots updated : ℕ → Value}
  {capacity tail count : ℕ}

@[simp] theorem length_window :
    (window slots capacity tail count).length = count := by
  simp [window]

@[simp] theorem window_zero : window slots capacity tail 0 = [] := rfl

theorem getElem_window {offset : ℕ}
    (bound : offset < (window slots capacity tail count).length) :
    (window slots capacity tail count)[offset] =
      slots ((tail + offset) % capacity) := by
  simp [window]

/-- Offsets inside one turn name different slots. -/
theorem wrapped_ne {left right : ℕ} (below : left < right)
    (bound : right < capacity) :
    (tail + left) % capacity ≠ (tail + right) % capacity := by
  intro equality
  have congruent : left ≡ right [MOD capacity] :=
    Nat.ModEq.add_left_cancel' tail equality
  have same := congruent.eq_of_lt_of_lt (below.trans bound) bound
  omega

theorem window_congr
    (agree : ∀ offset, offset < count →
      updated ((tail + offset) % capacity) =
        slots ((tail + offset) % capacity)) :
    window updated capacity tail count =
      window slots capacity tail count := by
  simp only [window, List.map_inj_left, List.mem_range]
  exact agree

/-- Only the slot after the window changes: the window grows at its end. -/
theorem window_append
    (room : count < capacity)
    (unchanged : ∀ slot, slot < capacity →
      slot ≠ (tail + count) % capacity → updated slot = slots slot) :
    window updated capacity tail (count + 1) =
      window slots capacity tail count ++
        [updated ((tail + count) % capacity)] := by
  simp only [window, List.range_succ, List.map_append, List.map_cons,
    List.map_nil, List.append_cancel_right_eq, List.map_inj_left,
    List.mem_range]
  intro offset below
  apply unchanged
  · exact Nat.mod_lt _ (Nat.zero_lt_of_lt room)
  · exact wrapped_ne below room

theorem window_drop (dropped : ℕ) :
    window slots capacity ((tail + dropped) % capacity) (count - dropped) =
      (window slots capacity tail count).drop dropped := by
  apply List.ext_getElem
  · simp
  · intro offset leftBound rightBound
    rw [List.getElem_drop, getElem_window, getElem_window, Nat.mod_add_mod,
      Nat.add_assoc]

/-- The oldest element comes first. -/
theorem window_succ :
    window slots capacity tail (count + 1) =
      slots (tail % capacity) ::
        window slots capacity ((tail + 1) % capacity) count := by
  have rest : window slots capacity ((tail + 1) % capacity) (count + 1 - 1) =
      (window slots capacity tail (count + 1)).drop 1 := window_drop 1
  rw [Nat.add_sub_cancel] at rest
  rw [rest]
  simp [window, List.range_succ_eq_map]

/-! ## Whole turns -/

theorem not_dvd_of_large {word : ℕ} (large : word < 2 * capacity)
    (unsigned : capacity < word) : ¬ capacity ∣ word := by
  rintro ⟨factor, rfl⟩
  rcases factor with _ | _ | factor
  · exact absurd unsigned (Nat.not_lt_zero _)
  · exact absurd unsigned (by simp)
  · have twice : capacity * 2 ≤ capacity * (factor + 2) :=
      Nat.mul_le_mul_left capacity (by omega)
    rw [Nat.mul_comm 2] at large
    exact absurd large (Nat.not_lt.mpr twice)

/-- Going back from a whole number of turns. -/
theorem sub_mod_eq_iff {word deficit : ℕ} (positive : 1 ≤ deficit)
    (atMost : deficit ≤ capacity) (fits : deficit ≤ word) :
    (word - deficit) % capacity = capacity - deficit ↔ capacity ∣ word := by
  constructor
  · intro reduced
    have division := Nat.div_add_mod (word - deficit) capacity
    rw [reduced] at division
    refine ⟨(word - deficit) / capacity + 1, ?_⟩
    rw [Nat.mul_add, Nat.mul_one]
    omega
  · rintro ⟨factor, rfl⟩
    cases factor with
    | zero => omega
    | succ factor =>
        have split : capacity * (factor + 1) - deficit =
            capacity - deficit + capacity * factor := by
          rw [Nat.mul_add, Nat.mul_one]
          omega
        rw [split, Nat.add_mul_mod_self_left]
        exact Nat.mod_eq_of_lt (by omega)

end Foundation
