import EmbeddedMiddle.MempoolAddresses
import EmbeddedMiddle.Foundation.LimitedStore

/-!
# Pools through handles

A manager knows the blocks of its pool by handles of its own: their addresses
or numbers that it makes of their indices.  The pool is a store of as many
objects as it has blocks.
-/

namespace EmbeddedMiddle

open Foundation

/-- The live blocks are those with these handles. -/
structure EmMpool.Serves {Handle : Type} [DecidableEq Handle]
    (params : PoolParams) (handleOf : ℕ → Handle) (mp : EmMpool)
    (handles : Finset Handle) : Prop where
  distinct : params.Distinct
  injective : ∀ left right, left < params.capacity →
    right < params.capacity → handleOf left = handleOf right → left = right
  shown : ∃ set : SparseSet params.capacity,
    mp.Settled params set ∧ handles = set.members.image handleOf

namespace EmMpool.Serves

variable {Handle : Type} [DecidableEq Handle] {params : PoolParams}
  {handleOf : ℕ → Handle} {mp : EmMpool} {handles : Finset Handle}

/-- A block is taken, or the pool is full. -/
theorem alloc (serves : mp.Serves params handleOf handles) :
    (∃ k after, k < params.capacity ∧ params.capacity ≤ semValueMax ∧
        emMpoolAllocBlock mp emNoWait =
          some (some (params.address k), after) ∧
        (ObjectEvent.create (some (handleOf k))).Fits params.capacity
          handles ∧
        after.Serves params handleOf (insert (handleOf k) handles)) ∨
      emMpoolAllocBlock mp emNoWait = some (none, mp) ∧
        (ObjectEvent.create none).Fits params.capacity handles := by
  obtain ⟨distinct, injective, set, settled, rfl⟩ := serves
  have card := set.card_image injective
  rcases set.count_le.lt_or_eq with room | full
  · obtain ⟨after, called, kept⟩ := settled.allocBlock_room room
    have new := set.dense_count_not_mem_image injective room
    exact .inl ⟨set.dense set.count, after, set.dense_lt _ room,
      settled.capacity_le, called, ⟨new, card.trans_lt room⟩, distinct,
      injective, set.acquire room, kept, (set.image_acquire room).symm⟩
  · exact .inr ⟨settled.allocBlock_full full, card.trans full⟩

/-- The block behind a handle can be found by its index and its address, and
given back by both. -/
theorem find (serves : mp.Serves params handleOf handles) {handle : Handle}
    (member : handle ∈ handles) :
    ∃ k after, k < params.capacity ∧ params.capacity ≤ semValueMax ∧
      handle = handleOf k ∧
      emMpoolGetDataptr mp k = some (params.address k) ∧
      emMpoolFreeBlockByDataidx mp k = (0, after) ∧
      emMpoolFreeBlock mp (params.address k) = (0, after) ∧
      after.Serves params handleOf (handles.erase handle) := by
  obtain ⟨distinct, injective, set, settled, rfl⟩ := serves
  obtain ⟨k, live, rfl⟩ := Finset.mem_image.mp member
  obtain ⟨bound, below⟩ := SparseSet.mem_members.mp live
  obtain ⟨after, called, freed, kept⟩ :=
    settled.freeBlock_address distinct live
  refine ⟨k, after, bound, settled.capacity_le, rfl, ?_, called, freed,
    distinct, injective, set.release k live, kept,
    (set.image_release injective live).symm⟩
  rw [emMpoolGetDataptr, settled.numMax_eq, settled.numUsed_eq,
    settled.indexPtr_eq, if_neg (by omega), settled.address_eq k bound]

/-- A block that was just taken has the index that is computed from its
address. -/
theorem getDataidx (serves : mp.Serves params handleOf handles) {k : ℕ}
    (bound : k < params.capacity) :
    emMpoolGetDataidx mp (params.address k) = k := by
  obtain ⟨distinct, _, set, settled, _⟩ := serves
  rw [emMpoolGetDataidx, settled.rawdata_eq, settled.blockSize_eq]
  exact distinct.index_of_address settled.capacity_le bound

end EmMpool.Serves

end EmbeddedMiddle
