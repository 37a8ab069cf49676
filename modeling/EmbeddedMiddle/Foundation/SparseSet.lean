import Mathlib.Data.Finset.Card
import Mathlib.Data.Finset.Image

/-!
# Sparse sets

A subset of `{0, …, capacity - 1}` kept as a permutation `dense` of the items,
its inverse `sparse`, and a count: the members are the items in the first
`count` slots.  Taking a new member moves the border; removing one swaps it
with the last member.
-/

namespace Foundation

structure SparseSet (capacity : ℕ) where
  count : ℕ
  dense : ℕ → ℕ
  sparse : ℕ → ℕ
  count_le : count ≤ capacity
  dense_lt : ∀ slot, slot < capacity → dense slot < capacity
  sparse_lt : ∀ item, item < capacity → sparse item < capacity
  sparse_dense : ∀ slot, slot < capacity → sparse (dense slot) = slot
  dense_sparse : ∀ item, item < capacity → dense (sparse item) = item

namespace SparseSet

variable {capacity : ℕ}

def members (set : SparseSet capacity) : Finset ℕ :=
  (Finset.range capacity).filter (fun item => set.sparse item < set.count)

@[simp] theorem mem_members {set : SparseSet capacity} {item : ℕ} :
    item ∈ set.members ↔ item < capacity ∧ set.sparse item < set.count := by
  simp [members]

theorem members_eq_image (set : SparseSet capacity) :
    set.members = (Finset.range set.count).image set.dense := by
  ext item
  simp only [mem_members, Finset.mem_image, Finset.mem_range]
  constructor
  · rintro ⟨bound, live⟩
    exact ⟨set.sparse item, live, set.dense_sparse item bound⟩
  · rintro ⟨slot, live, rfl⟩
    have bound : slot < capacity := lt_of_lt_of_le live set.count_le
    exact ⟨set.dense_lt slot bound, by rwa [set.sparse_dense slot bound]⟩

theorem dense_injective (set : SparseSet capacity) {left right : ℕ}
    (leftBound : left < capacity) (rightBound : right < capacity)
    (equality : set.dense left = set.dense right) : left = right := by
  rw [← set.sparse_dense left leftBound, equality,
    set.sparse_dense right rightBound]

@[simp] theorem card_members (set : SparseSet capacity) :
    set.members.card = set.count := by
  rw [members_eq_image, Finset.card_image_of_injOn, Finset.card_range]
  intro left leftMember right rightMember equality
  have leftLive : left < set.count := by simpa using leftMember
  have rightLive : right < set.count := by simpa using rightMember
  exact set.dense_injective (lt_of_lt_of_le leftLive set.count_le)
    (lt_of_lt_of_le rightLive set.count_le) equality

theorem members_eq_empty {set : SparseSet capacity} (empty : set.count = 0) :
    set.members = ∅ := by
  rw [← Finset.card_eq_zero, card_members, empty]

theorem dense_mem_members (set : SparseSet capacity) {slot : ℕ}
    (live : slot < set.count) : set.dense slot ∈ set.members := by
  rw [members_eq_image]
  exact Finset.mem_image_of_mem _ (Finset.mem_range.mpr live)

/-- The members in the order of their slots. -/
def order (set : SparseSet capacity) : List ℕ :=
  (List.range set.count).map set.dense

theorem nodup_order (set : SparseSet capacity) : set.order.Nodup := by
  refine List.Nodup.map_on ?_ List.nodup_range
  intro left leftMember right rightMember equality
  have leftLive := List.mem_range.mp leftMember
  have rightLive := List.mem_range.mp rightMember
  exact set.dense_injective (leftLive.trans_le set.count_le)
    (rightLive.trans_le set.count_le) equality

theorem toFinset_order (set : SparseSet capacity) :
    set.order.toFinset = set.members := by
  ext item
  simp [order, members_eq_image]

theorem dense_count_not_mem (set : SparseSet capacity)
    (room : set.count < capacity) :
    set.dense set.count ∉ set.members := by
  simp [set.sparse_dense _ room]

/-- Move the border past the next slot. -/
def acquire (set : SparseSet capacity) (room : set.count < capacity) :
    SparseSet capacity :=
  { set with count := set.count + 1, count_le := room }

theorem members_acquire (set : SparseSet capacity)
    (room : set.count < capacity) :
    (set.acquire room).members =
      insert (set.dense set.count) set.members := by
  rw [members_eq_image, members_eq_image, acquire, Finset.range_add_one,
    Finset.image_insert]

section Release

variable (set : SparseSet capacity) (item : ℕ)

/-- The member in the last live slot. -/
def lastMember : ℕ := set.dense (set.count - 1)

def releasedDense : ℕ → ℕ :=
  Function.update
    (Function.update set.dense (set.sparse item) set.lastMember)
    (set.count - 1) item

def releasedSparse : ℕ → ℕ :=
  Function.update
    (Function.update set.sparse set.lastMember (set.sparse item))
    item (set.count - 1)

variable {set item}

theorem lastMember_lt (member : item ∈ set.members) :
    set.lastMember < capacity := by
  have live := (mem_members.mp member).2
  exact set.dense_lt _ (by have := set.count_le; omega)

theorem sparse_lastMember (member : item ∈ set.members) :
    set.sparse set.lastMember = set.count - 1 := by
  have live := (mem_members.mp member).2
  exact set.sparse_dense _ (by have := set.count_le; omega)

theorem releasedSparse_releasedDense (member : item ∈ set.members)
    {slot : ℕ} (bound : slot < capacity) :
    set.releasedSparse item (set.releasedDense item slot) = slot := by
  have itemBound := (mem_members.mp member).1
  by_cases last : slot = set.count - 1
  · subst slot
    simp [releasedDense, releasedSparse]
  by_cases hole : slot = set.sparse item
  · have moved : set.lastMember ≠ item := by
      intro same
      apply last
      rw [hole, ← same, sparse_lastMember member]
    simp [releasedDense, releasedSparse, last, ← hole, moved]
  have notItem : set.dense slot ≠ item := by
    intro same
    apply hole
    rw [← same, set.sparse_dense slot bound]
  have notLast : set.dense slot ≠ set.lastMember := by
    intro same
    apply last
    rw [← set.sparse_dense slot bound, same, sparse_lastMember member]
  simp [releasedDense, releasedSparse, last, hole, notItem, notLast,
    set.sparse_dense slot bound]

theorem releasedDense_releasedSparse (member : item ∈ set.members)
    {other : ℕ} (bound : other < capacity) :
    set.releasedDense item (set.releasedSparse item other) = other := by
  have itemBound := (mem_members.mp member).1
  by_cases same : other = item
  · subst other
    simp [releasedDense, releasedSparse]
  by_cases last : other = set.lastMember
  · have hole : set.sparse item ≠ set.count - 1 := by
      intro equality
      apply same
      rw [last, lastMember, ← equality, set.dense_sparse item itemBound]
    subst other
    simp [releasedDense, releasedSparse, same, hole]
  have notHole : set.sparse other ≠ set.sparse item := by
    intro equality
    apply same
    rw [← set.dense_sparse other bound, equality,
      set.dense_sparse item itemBound]
  have notLast : set.sparse other ≠ set.count - 1 := by
    intro equality
    apply last
    rw [lastMember, ← equality, set.dense_sparse other bound]
  simp [releasedDense, releasedSparse, same, last, notHole, notLast,
    set.dense_sparse other bound]

/-- Swap a member with the last one and move the border back over it. -/
def release (set : SparseSet capacity) (item : ℕ)
    (member : item ∈ set.members) : SparseSet capacity where
  count := set.count - 1
  dense := set.releasedDense item
  sparse := set.releasedSparse item
  count_le := by have := set.count_le; omega
  dense_lt := by
    intro slot bound
    have itemBound := (mem_members.mp member).1
    have lastBound := lastMember_lt member
    have kept := set.dense_lt slot bound
    simp only [releasedDense, Function.update_apply]
    split_ifs <;> assumption
  sparse_lt := by
    intro other bound
    obtain ⟨itemBound, live⟩ := mem_members.mp member
    have atMost := set.count_le
    have hole := set.sparse_lt item itemBound
    have kept := set.sparse_lt other bound
    simp only [releasedSparse, Function.update_apply]
    split_ifs <;> omega
  sparse_dense := fun _ bound => releasedSparse_releasedDense member bound
  dense_sparse := fun _ bound => releasedDense_releasedSparse member bound

theorem members_release (member : item ∈ set.members) :
    (set.release item member).members = set.members.erase item := by
  obtain ⟨itemBound, live⟩ := mem_members.mp member
  ext other
  simp only [mem_members, Finset.mem_erase]
  change other < capacity ∧ set.releasedSparse item other < set.count - 1 ↔ _
  by_cases same : other = item
  · simp [releasedSparse, same]
  by_cases last : other = set.lastMember
  · -- The swapped member stays live: it takes over the freed slot.
    have lastSlot := sparse_lastMember member
    have hole : set.sparse item ≠ set.count - 1 := by
      intro equality
      apply same
      rw [last, lastMember, ← equality, set.dense_sparse item itemBound]
    subst other
    simp only [releasedSparse, ne_eq, same, not_false_eq_true,
      Function.update_of_ne, Function.update_self, true_and]
    omega
  · simp only [releasedSparse, same, last, ne_eq, not_false_eq_true,
      Function.update_of_ne, true_and]
    constructor
    · rintro ⟨bound, below⟩
      exact ⟨bound, by omega⟩
    · rintro ⟨bound, below⟩
      refine ⟨bound, ?_⟩
      have notLast : set.sparse other ≠ set.count - 1 := by
        intro equality
        apply last
        rw [lastMember, ← equality, set.dense_sparse other bound]
      omega

end Release

/-! ## Members under names -/

section Names

variable {Name : Type*} [DecidableEq Name] {nameOf : ℕ → Name}

theorem card_image (set : SparseSet capacity)
    (injective : ∀ left right, left < capacity → right < capacity →
      nameOf left = nameOf right → left = right) :
    (set.members.image nameOf).card = set.count := by
  rw [Finset.card_image_of_injOn, set.card_members]
  intro left leftMember right rightMember same
  exact injective left right (mem_members.mp leftMember).1
    (mem_members.mp rightMember).1 same

/-- The name of the item that is taken next is new. -/
theorem dense_count_not_mem_image (set : SparseSet capacity)
    (injective : ∀ left right, left < capacity → right < capacity →
      nameOf left = nameOf right → left = right)
    (room : set.count < capacity) :
    nameOf (set.dense set.count) ∉ set.members.image nameOf := by
  intro member
  obtain ⟨item, live, same⟩ := Finset.mem_image.mp member
  have taken := injective _ _ (mem_members.mp live).1 (set.dense_lt _ room) same
  exact set.dense_count_not_mem room (taken ▸ live)

theorem image_acquire (set : SparseSet capacity)
    (room : set.count < capacity) :
    (set.acquire room).members.image nameOf =
      insert (nameOf (set.dense set.count)) (set.members.image nameOf) := by
  rw [set.members_acquire room, Finset.image_insert]

theorem image_release (set : SparseSet capacity)
    (injective : ∀ left right, left < capacity → right < capacity →
      nameOf left = nameOf right → left = right)
    {item : ℕ} (member : item ∈ set.members) :
    (set.release item member).members.image nameOf =
      (set.members.image nameOf).erase (nameOf item) := by
  have bound := (mem_members.mp member).1
  rw [set.members_release member]
  ext name
  simp only [Finset.mem_erase, Finset.mem_image]
  constructor
  · rintro ⟨other, ⟨different, live⟩, rfl⟩
    refine ⟨fun same => different ?_, other, live, rfl⟩
    exact injective _ _ (mem_members.mp live).1 bound same
  · rintro ⟨different, other, live, rfl⟩
    exact ⟨other, ⟨fun same => different (by rw [same]), live⟩, rfl⟩

end Names

end SparseSet

end Foundation
