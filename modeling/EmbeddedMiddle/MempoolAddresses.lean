import EmbeddedMiddle.MempoolRefinement
import EmbeddedMiddle.Foundation.ByteMemory

/-!
# Pools through the addresses of their blocks

The managers built on a pool keep the addresses it hands out.  As long as the
size of the raw data does not overflow, distinct blocks have distinct
addresses, and a pool is a set of live addresses.
-/

namespace EmbeddedMiddle

open Foundation

/-- No address of a block overflows `uint`. -/
structure PoolParams.Addressable (params : PoolParams) : Prop where
  positive : 0 < params.blockSize
  last : params.blockSize * (params.capacity - 1) < 4294967296

namespace PoolParams.Addressable

variable {params : PoolParams}

theorem address_eq (addressable : params.Addressable) {k : ℕ}
    (bound : k < params.capacity) :
    params.address k = params.rawdata + (params.blockSize * k : ℕ) := by
  have below : params.blockSize * k ≤
      params.blockSize * (params.capacity - 1) :=
    Nat.mul_le_mul_left _ (Nat.le_sub_one_of_lt bound)
  rw [PoolParams.address, uint32_of_lt (below.trans_lt addressable.last)]

theorem address_injective (addressable : params.Addressable) {left right : ℕ}
    (leftBound : left < params.capacity) (rightBound : right < params.capacity)
    (equality : params.address left = params.address right) :
    left = right := by
  rw [addressable.address_eq leftBound,
    addressable.address_eq rightBound] at equality
  apply Nat.eq_of_mul_eq_mul_left addressable.positive
  omega

/-- The index computed by `em_mpool_get_dataidx` and `em_mpool_free_block`. -/
theorem index_of_address (addressable : params.Addressable)
    (accepted : params.capacity ≤ semValueMax) {k : ℕ}
    (bound : k < params.capacity) :
    toInt32 ((params.address k - params.rawdata).tdiv params.blockSize) =
      (k : ℤ) := by
  have offset : params.address k - params.rawdata =
      (params.blockSize : ℤ) * k := by
    rw [addressable.address_eq bound]
    push_cast
    omega
  have nonzero : (params.blockSize : ℤ) ≠ 0 := by
    have := addressable.positive
    omega
  rw [offset, Int.mul_tdiv_cancel_left _ nonzero]
  exact toInt32_natCast (bound.le.trans accepted)

end PoolParams.Addressable

/-- The raw data has a size that `uint` can hold. -/
structure PoolParams.Distinct (params : PoolParams) : Prop where
  positive : 0 < params.blockSize
  fits : params.blockSize * params.capacity < 4294967296

namespace PoolParams.Distinct

variable {params : PoolParams}

theorem addressable (distinct : params.Distinct) : params.Addressable :=
  ⟨distinct.positive, (Nat.mul_le_mul_left _ (Nat.sub_le _ _)).trans_lt
    distinct.fits⟩

theorem address_injective (distinct : params.Distinct) {left right : ℕ}
    (leftBound : left < params.capacity) (rightBound : right < params.capacity)
    (equality : params.address left = params.address right) :
    left = right :=
  distinct.addressable.address_injective leftBound rightBound equality

theorem injective (distinct : params.Distinct) :
    ∀ left right, left < params.capacity → right < params.capacity →
      params.address left = params.address right → left = right :=
  fun _ _ => distinct.address_injective

theorem index_of_address (distinct : params.Distinct)
    (accepted : params.capacity ≤ semValueMax) {k : ℕ}
    (bound : k < params.capacity) :
    toInt32 ((params.address k - params.rawdata).tdiv params.blockSize) =
      (k : ℤ) :=
  distinct.addressable.index_of_address accepted bound

end PoolParams.Distinct

/-- A live block is given back by its index or its address. -/
theorem EmMpool.Settled.freeBlock_address {params : PoolParams} {mp : EmMpool}
    {set : SparseSet params.capacity} (settled : mp.Settled params set)
    (distinct : params.Distinct) {k : ℕ} (live : k ∈ set.members) :
    ∃ after, emMpoolFreeBlockByDataidx mp k = (0, after) ∧
      emMpoolFreeBlock mp (params.address k) = (0, after) ∧
      after.Settled params (set.release k live) := by
  have bound := (SparseSet.mem_members.mp live).1
  obtain ⟨after, called, kept⟩ := settled.freeBlock_live live
  have index : intToUint32
      (toInt32 ((params.address k - mp.rawdata).tdiv mp.blockSize)) = k := by
    rw [settled.rawdata_eq, settled.blockSize_eq,
      distinct.index_of_address settled.capacity_le bound]
    exact intToUint32_natCast (bound.le.trans settled.capacity_le)
  refine ⟨after, called, ?_, kept⟩
  simp only [emMpoolFreeBlock, index, called]

structure EmMpool.Holds (params : PoolParams) (mp : EmMpool)
    (addresses : Finset ℤ) : Prop where
  distinct : params.Distinct
  shown : ∃ set : SparseSet params.capacity,
    mp.Settled params set ∧ addresses = set.members.image params.address

namespace EmMpool.Holds

variable {params : PoolParams} {mp : EmMpool} {addresses : Finset ℤ}

theorem numUsed_eq (holds : mp.Holds params addresses) :
    mp.numUsed = addresses.card := by
  obtain ⟨distinct, set, settled, rfl⟩ := holds
  rw [set.card_image distinct.injective,
    settled.numUsed_eq]

theorem capacity_le (holds : mp.Holds params addresses) :
    params.capacity ≤ semValueMax := by
  obtain ⟨_, set, settled, _⟩ := holds
  exact settled.capacity_le

theorem card_le (holds : mp.Holds params addresses) :
    addresses.card ≤ params.capacity := by
  obtain ⟨distinct, set, settled, rfl⟩ := holds
  rw [set.card_image distinct.injective]
  exact set.count_le

theorem slot_mem (holds : mp.Holds params addresses) {slot : ℕ}
    (live : slot < mp.numUsed) :
    (mp.block (mp.blockPtr slot)).dataPtr ∈ addresses := by
  obtain ⟨distinct, set, settled, rfl⟩ := holds
  rw [settled.numUsed_eq] at live
  have bound : slot < params.capacity := lt_of_lt_of_le live set.count_le
  rw [settled.blockPtr_eq, settled.address_eq _ (set.dense_lt slot bound)]
  exact Finset.mem_image_of_mem _ (set.dense_mem_members live)

theorem exists_slot (holds : mp.Holds params addresses) {address : ℤ}
    (member : address ∈ addresses) :
    ∃ slot, slot < mp.numUsed ∧
      (mp.block (mp.blockPtr slot)).dataPtr = address := by
  obtain ⟨distinct, set, settled, rfl⟩ := holds
  obtain ⟨k, live, rfl⟩ := Finset.mem_image.mp member
  obtain ⟨bound, below⟩ := SparseSet.mem_members.mp live
  refine ⟨set.sparse k, settled.numUsed_eq ▸ below, ?_⟩
  rw [settled.blockPtr_eq, set.dense_sparse k bound, settled.address_eq k bound]

/-- The slots decide which addresses are live. -/
theorem unique (holds : mp.Holds params addresses) {others : Finset ℤ}
    {parameters : PoolParams} (again : mp.Holds parameters others) :
    addresses = others := by
  ext address
  constructor
  · intro member
    obtain ⟨slot, live, rfl⟩ := holds.exists_slot member
    exact again.slot_mem live
  · intro member
    obtain ⟨slot, live, rfl⟩ := again.exists_slot member
    exact holds.slot_mem live

theorem numMax_eq (holds : mp.Holds params addresses) :
    mp.numMax = params.capacity := by
  obtain ⟨distinct, set, settled, rfl⟩ := holds
  exact settled.numMax_eq

/-- An index has an address while its block is live. -/
theorem getDataptr (holds : mp.Holds params addresses) (dataIdx : ℕ) :
    emMpoolGetDataptr mp dataIdx =
      if dataIdx < params.capacity ∧ params.address dataIdx ∈ addresses
      then some (params.address dataIdx) else none := by
  obtain ⟨distinct, set, settled, rfl⟩ := holds
  have isLive : (dataIdx < params.capacity ∧
      params.address dataIdx ∈ set.members.image params.address) ↔
        dataIdx ∈ set.members := by
    constructor
    · rintro ⟨bound, member⟩
      obtain ⟨k, live, equality⟩ := Finset.mem_image.mp member
      have kBound := (SparseSet.mem_members.mp live).1
      rwa [distinct.address_injective kBound bound equality] at live
    · intro live
      exact ⟨(SparseSet.mem_members.mp live).1,
        Finset.mem_image_of_mem _ live⟩
  rw [if_congr isLive rfl rfl, emMpoolGetDataptr, settled.numMax_eq,
    settled.numUsed_eq, settled.indexPtr_eq]
  by_cases live : dataIdx ∈ set.members
  · obtain ⟨bound, below⟩ := SparseSet.mem_members.mp live
    rw [if_neg (by omega), if_pos live, settled.address_eq _ bound]
  · have dead := mt SparseSet.mem_members.mpr live
    rw [if_pos (by omega), if_neg live]

/-- The index of a live block, as `em_mpool_get_dataidx` computes it. -/
theorem getDataidx (holds : mp.Holds params addresses) {address : ℤ}
    (member : address ∈ addresses) :
    ∃ k, k < params.capacity ∧ params.capacity ≤ semValueMax ∧
      emMpoolGetDataidx mp address = k ∧ params.address k = address := by
  obtain ⟨distinct, set, settled, rfl⟩ := holds
  obtain ⟨k, live, rfl⟩ := Finset.mem_image.mp member
  have bound := (SparseSet.mem_members.mp live).1
  refine ⟨k, bound, settled.capacity_le, ?_, rfl⟩
  rw [emMpoolGetDataidx, settled.rawdata_eq, settled.blockSize_eq]
  exact distinct.index_of_address settled.capacity_le bound

theorem alloc_full (holds : mp.Holds params addresses)
    (full : addresses.card = params.capacity) :
    emMpoolAllocBlock mp emNoWait = some (none, mp) := by
  obtain ⟨distinct, set, settled, rfl⟩ := holds
  rw [set.card_image distinct.injective] at full
  exact settled.allocBlock_full full

theorem alloc_room (holds : mp.Holds params addresses)
    (room : addresses.card < params.capacity) :
    ∃ address after,
      emMpoolAllocBlock mp emNoWait = some (some address, after) ∧
        address ∉ addresses ∧
        after.Holds params (insert address addresses) := by
  obtain ⟨distinct, set, settled, rfl⟩ := holds
  rw [set.card_image distinct.injective] at room
  obtain ⟨after, called, kept⟩ := settled.allocBlock_room room
  exact ⟨params.address (set.dense set.count), after, called,
    set.dense_count_not_mem_image distinct.injective room, distinct,
    set.acquire room, kept, (set.image_acquire room).symm⟩

theorem free (holds : mp.Holds params addresses) {address : ℤ}
    (member : address ∈ addresses) :
    ∃ after, emMpoolFreeBlock mp address = (0, after) ∧
      after.Holds params (addresses.erase address) := by
  obtain ⟨distinct, set, settled, rfl⟩ := holds
  obtain ⟨k, live, rfl⟩ := Finset.mem_image.mp member
  obtain ⟨after, _, freed, kept⟩ := settled.freeBlock_address distinct live
  exact ⟨after, freed, distinct, set.release k live, kept,
    (set.image_release distinct.injective live).symm⟩

end EmMpool.Holds

theorem emMpoolCreateWithMem_holds (memory : EmMpool)
    (blockSize blockNum : ℕ) (blockPtr : ℕ → ℕ) (block : ℕ → EmBlkinfo)
    (dataPtr : ℕ → ℤ) (rawdata : ℤ) (accepted : blockNum ≤ semValueMax)
    (distinct : PoolParams.Distinct ⟨blockNum, blockSize, rawdata⟩) :
    (emMpoolCreateWithMem memory blockSize blockNum blockPtr block dataPtr
      rawdata).Holds ⟨blockNum, blockSize, rawdata⟩ ∅ := by
  obtain ⟨set, empty, settled⟩ := emMpoolCreateWithMem_settled memory
    blockSize blockNum blockPtr block dataPtr rawdata accepted
  refine ⟨distinct, set, settled, ?_⟩
  rw [SparseSet.members_eq_empty empty, Finset.image_empty]

theorem emMpoolCreate_holds (mp : EmMpool) {blockSize blockNum : ℕ}
    {rawdata : ℤ} (nonempty : 0 < blockNum) (accepted : blockNum ≤ semValueMax)
    (distinct : PoolParams.Distinct ⟨blockNum, blockSize, rawdata⟩) :
    (emMpoolCreate mp blockSize blockNum rawdata).2.Holds
      ⟨blockNum, blockSize, rawdata⟩ ∅ := by
  have accepts : ¬(blockSize = 0 ∨ blockNum = 0) :=
    not_or.mpr ⟨distinct.positive.ne', nonempty.ne'⟩
  rw [emMpoolCreate, if_neg accepts]
  exact emMpoolCreateWithMem_holds _ _ _ _ _ _ _ accepted distinct

theorem emMpoolCreateWithMem2_holds (mp : EmMpool) {blockSize blockNum : ℕ}
    (memory : ℤ) (nonempty : 0 < blockNum) (accepted : blockNum ≤ semValueMax)
    (distinct : ∀ rawdata,
      PoolParams.Distinct ⟨blockNum, blockSize, rawdata⟩) :
    ∃ rawdata,
      (emMpoolCreateWithMem2 mp blockSize blockNum (some memory)).2.Holds
        ⟨blockNum, blockSize, rawdata⟩ ∅ := by
  have accepts : ¬(blockSize = 0 ∨ blockNum = 0) :=
    not_or.mpr ⟨(distinct 0).positive.ne', nonempty.ne'⟩
  simp only [emMpoolCreateWithMem2, accepts, ↓reduceIte]
  exact ⟨_, emMpoolCreateWithMem_holds _ _ _ _ _ _ _ accepted (distinct _)⟩

end EmbeddedMiddle
