import EmbeddedMiddle.Mempool
import EmbeddedMiddle.Foundation.Transition

/-!
# Memory pools refine bounded sets of live blocks

`EmMpool.Represents` ties the arrays of a pool to a sparse set; every function
of the pool is an operation of that set.  Seen from outside, a pool is a set
of live block indices that never outgrows its capacity.
-/

namespace EmbeddedMiddle

open Foundation

/-- What a pool keeps from its creation on. -/
structure PoolParams where
  capacity : ℕ
  blockSize : ℕ
  rawdata : ℤ

/-- The address of block `k`, computed in the arithmetic of `uint`. -/
def PoolParams.address (params : PoolParams) (k : ℕ) : ℤ :=
  params.rawdata + uint32 (params.blockSize * k)

structure EmMpool.Represents (params : PoolParams) (mp : EmMpool)
    (set : SparseSet params.capacity) : Prop where
  capacity_le : params.capacity ≤ semValueMax
  numMax_eq : mp.numMax = params.capacity
  blockSize_eq : mp.blockSize = params.blockSize
  rawdata_eq : mp.rawdata = params.rawdata
  numUsed_eq : mp.numUsed = set.count
  blockPtr_eq : mp.blockPtr = set.dense
  indexPtr_eq : ∀ k, (mp.block k).indexPtr = set.sparse k
  index_eq : ∀ k, k < params.capacity → (mp.block k).index = k
  address_eq : ∀ k, k < params.capacity →
    (mp.block k).dataPtr = params.address k
  dataPtr_eq : ∀ slot, slot < params.capacity →
    mp.dataPtr slot = params.address (set.dense slot)

/-! ## Creation -/

/-- The state of the filling loop after `done` rounds. -/
structure EmMpool.Filled (params : PoolParams) (mp : EmMpool) (done : ℕ) :
    Prop where
  numMax_eq : mp.numMax = params.capacity
  blockSize_eq : mp.blockSize = params.blockSize
  rawdata_eq : mp.rawdata = params.rawdata
  numUsed_eq : mp.numUsed = 0
  filled : ∀ i, i < done →
    mp.blockPtr i = i ∧ mp.block i = ⟨i, i, params.address i⟩ ∧
      mp.dataPtr i = params.address i

theorem emMpoolInitBlock_filled {params : PoolParams} {mp : EmMpool}
    {done : ℕ} (start : mp.Filled params done) :
    (emMpoolInitBlock mp done).Filled params (done + 1) := by
  refine ⟨start.numMax_eq, start.blockSize_eq, start.rawdata_eq,
    start.numUsed_eq, ?_⟩
  intro i bound
  by_cases last : i = done
  · subst i
    simp [emMpoolInitBlock, PoolParams.address, start.rawdata_eq,
      start.blockSize_eq]
  · have earlier := start.filled i (by omega)
    simpa [emMpoolInitBlock, last] using earlier

theorem foldl_emMpoolInitBlock_filled {params : PoolParams} {mp : EmMpool}
    (start : mp.Filled params 0) (rounds : ℕ) :
    ((List.range rounds).foldl emMpoolInitBlock mp).Filled params rounds := by
  induction rounds with
  | zero => exact start
  | succ rounds induction =>
      rw [List.range_succ, List.foldl_append]
      exact emMpoolInitBlock_filled induction

theorem foldl_emMpoolInitBlock_sem (mp : EmMpool) (slots : List ℕ) :
    (slots.foldl emMpoolInitBlock mp).sem = mp.sem := by
  induction slots generalizing mp with
  | nil => rfl
  | cons slot slots induction => exact induction _

/-- A full turn of the loop leaves the identity permutation. -/
def EmMpool.Filled.set {params : PoolParams} {mp : EmMpool}
    (filled : mp.Filled params params.capacity) :
    SparseSet params.capacity where
  count := 0
  dense := mp.blockPtr
  sparse := fun k => (mp.block k).indexPtr
  count_le := Nat.zero_le _
  dense_lt := fun slot bound => by simpa [filled.filled slot bound] using bound
  sparse_lt := fun item bound => by simpa [filled.filled item bound] using bound
  sparse_dense := fun slot bound => by simp [filled.filled slot bound]
  dense_sparse := fun item bound => by simp [filled.filled item bound]

theorem EmMpool.Filled.represents {params : PoolParams} {mp : EmMpool}
    (bound : params.capacity ≤ semValueMax)
    (filled : mp.Filled params params.capacity) :
    mp.Represents params filled.set where
  capacity_le := bound
  numMax_eq := filled.numMax_eq
  blockSize_eq := filled.blockSize_eq
  rawdata_eq := filled.rawdata_eq
  numUsed_eq := filled.numUsed_eq
  blockPtr_eq := rfl
  indexPtr_eq := fun _ => rfl
  index_eq := fun k below => by simp [filled.filled k below]
  address_eq := fun k below => by simp [filled.filled k below]
  dataPtr_eq := fun slot below => by
    simp [EmMpool.Filled.set, filled.filled slot below]

section Create

variable (memory : EmMpool) (blockSize blockNum : ℕ) (blockPtr : ℕ → ℕ)
  (block : ℕ → EmBlkinfo) (dataPtr : ℕ → ℤ) (rawdata : ℤ)

theorem emMpoolCreateWithMem_filled :
    (emMpoolCreateWithMem memory blockSize blockNum blockPtr block dataPtr
      rawdata).Filled ⟨blockNum, blockSize, rawdata⟩ blockNum := by
  simp only [emMpoolCreateWithMem]
  apply foldl_emMpoolInitBlock_filled
  constructor
  · rfl
  · rfl
  · rfl
  · rfl
  · intro i below
    exact absurd below (Nat.not_lt_zero i)

theorem emMpoolCreateWithMem_sem (bound : blockNum ≤ semValueMax) :
    (emMpoolCreateWithMem memory blockSize blockNum blockPtr block dataPtr
      rawdata).sem = ⟨blockNum⟩ := by
  simp only [emMpoolCreateWithMem, foldl_emMpoolInitBlock_sem,
    emSemInit_eq bound, Option.getD_some]

end Create

/-! ## The operations on the represented set -/

namespace EmMpool.Represents

variable {params : PoolParams} {mp : EmMpool} {set : SparseSet params.capacity}

theorem allocBlockmng_room (shown : mp.Represents params set)
    (room : set.count < params.capacity) :
    emMpoolAllocBlockmng mp =
        some (set.dense set.count, { mp with numUsed := mp.numUsed + 1 }) ∧
      EmMpool.Represents params { mp with numUsed := mp.numUsed + 1 }
        (set.acquire room) := by
  constructor
  · rw [emMpoolAllocBlockmng, if_neg, shown.blockPtr_eq, shown.numUsed_eq]
    rw [shown.numMax_eq, shown.numUsed_eq]
    exact Nat.not_le_of_lt room
  · exact { shown with
      numUsed_eq := congrArg (· + 1) shown.numUsed_eq }

theorem rejects_iff (shown : mp.Represents params set) (item : ℕ) :
    (mp.numUsed = 0 ∨ mp.numMax ≤ item ∨
        mp.numUsed ≤ (mp.block item).indexPtr) ↔ item ∉ set.members := by
  rw [SparseSet.mem_members, shown.numUsed_eq, shown.numMax_eq,
    shown.indexPtr_eq]
  omega

theorem freeLocked_dead (shown : mp.Represents params set) {item : ℕ}
    (dead : item ∉ set.members) : emMpoolFreeLocked mp item = none := by
  rw [emMpoolFreeLocked, if_pos ((shown.rejects_iff item).mpr dead)]

/-- The swap of `em_mpool_free_block_by_dataidx`, written with the slots of the
represented set in place of the `int` variables. -/
theorem freeLocked_live_eq (shown : mp.Represents params set) {item : ℕ}
    (member : item ∈ set.members) :
    ∃ after, emMpoolFreeLocked mp item = some after ∧
      after.sem = mp.sem ∧
      after.Represents params (set.release item member) := by
  obtain ⟨itemBound, live⟩ := SparseSet.mem_members.mp member
  have lastBound := SparseSet.lastMember_lt member
  have atMost := set.count_le
  have capacityBound := shown.capacity_le
  have slotCast : (toInt32 ((mp.block item).indexPtr : ℤ)).toNat =
      set.sparse item := by
    rw [shown.indexPtr_eq, toInt32_natCast]
    · rfl
    · exact (live.le.trans atMost).trans capacityBound
  have lastCast :
      (toInt32 ((mp.block (mp.blockPtr (mp.numUsed - 1))).index : ℤ)).toNat =
        set.lastMember := by
    rw [shown.blockPtr_eq, shown.numUsed_eq]
    change (toInt32 ((mp.block set.lastMember).index : ℤ)).toNat = _
    rw [shown.index_eq _ lastBound, toInt32_natCast]
    · rfl
    · exact lastBound.le.trans capacityBound
  have accepted := mt (shown.rejects_iff item).mp (not_not_intro member)
  rw [emMpoolFreeLocked, if_neg accepted]
  simp only [slotCast, lastCast]
  refine ⟨_, rfl, rfl, ?_⟩
  constructor
  · exact shown.capacity_le
  · exact shown.numMax_eq
  · exact shown.blockSize_eq
  · exact shown.rawdata_eq
  · exact congrArg (· - 1) shown.numUsed_eq
  · simp only [shown.blockPtr_eq, shown.numUsed_eq]
    rfl
  · intro k
    change _ = set.releasedSparse item k
    have kept : (fun other => (mp.block other).indexPtr) = set.sparse :=
      funext shown.indexPtr_eq
    simp only [setIndexPtr_indexPtr, SparseSet.releasedSparse, kept,
      shown.numUsed_eq, Function.update_apply]
  · intro k bound
    simpa using shown.index_eq k bound
  · intro k bound
    simpa using shown.address_eq k bound
  · intro slot bound
    change _ = params.address (set.releasedDense item slot)
    simp only [setIndexPtr_dataPtr, shown.address_eq _ lastBound,
      shown.address_eq _ itemBound, shown.numUsed_eq,
      SparseSet.releasedDense, Function.update_apply]
    split_ifs
    · rfl
    · rfl
    · exact shown.dataPtr_eq slot bound

end EmMpool.Represents

/-! ## Whole calls, one after another -/

/-- Between calls the semaphore counts the free blocks. -/
structure EmMpool.Settled (params : PoolParams) (mp : EmMpool)
    (set : SparseSet params.capacity) : Prop
    extends mp.Represents params set where
  sem_eq : mp.sem.count + set.count = params.capacity

namespace EmMpool.Settled

variable {params : PoolParams} {mp : EmMpool} {set : SparseSet params.capacity}

theorem allocBlock_full (settled : mp.Settled params set)
    (full : set.count = params.capacity) :
    emMpoolAllocBlock mp emNoWait = some (none, mp) := by
  have empty : mp.sem.count = 0 := by have := settled.sem_eq; omega
  simp [emMpoolAllocBlock, emSemWait, empty, emNoWait, emNoTimeout, emError]

theorem allocBlock_room (settled : mp.Settled params set)
    (room : set.count < params.capacity) :
    ∃ after,
      emMpoolAllocBlock mp emNoWait =
        some (some (params.address (set.dense set.count)), after) ∧
      after.Settled params (set.acquire room) := by
  have token : 0 < mp.sem.count := by have := settled.sem_eq; omega
  have waited : EmMpool.Represents params
      { mp with sem := ⟨mp.sem.count - 1⟩ } set :=
    { settled.toRepresents with }
  obtain ⟨taken, shown⟩ := waited.allocBlockmng_room room
  refine ⟨_, ?_, shown, ?_⟩
  · simp only [emMpoolAllocBlock, emSemWait, token, ↓reduceIte, emSuccess,
      ne_eq, not_true_eq_false, taken]
    rw [settled.address_eq _ (set.dense_lt _ room)]
  · have := settled.sem_eq
    simp only [SparseSet.acquire]
    omega

theorem freeBlock_dead (settled : mp.Settled params set) {item : ℕ}
    (dead : item ∉ set.members) :
    emMpoolFreeBlockByDataidx mp item = (-1, mp) := by
  rw [emMpoolFreeBlockByDataidx, settled.freeLocked_dead dead]

theorem freeBlock_live (settled : mp.Settled params set) {item : ℕ}
    (member : item ∈ set.members) :
    ∃ after, emMpoolFreeBlockByDataidx mp item = (0, after) ∧
      after.Settled params (set.release item member) := by
  obtain ⟨after, freed, sem, shown⟩ := settled.freeLocked_live_eq member
  have live := (SparseSet.mem_members.mp member).2
  refine ⟨{ after with sem := emSemPost after.sem }, ?_,
    { shown with }, ?_⟩
  · rw [emMpoolFreeBlockByDataidx, freed]
  · have := settled.sem_eq
    simp only [emSemPost, sem, SparseSet.release]
    omega

end EmMpool.Settled

theorem emMpoolCreateWithMem_settled (memory : EmMpool)
    (blockSize blockNum : ℕ) (blockPtr : ℕ → ℕ) (block : ℕ → EmBlkinfo)
    (dataPtr : ℕ → ℤ) (rawdata : ℤ) (accepted : blockNum ≤ semValueMax) :
    ∃ set : SparseSet blockNum, set.count = 0 ∧
      (emMpoolCreateWithMem memory blockSize blockNum blockPtr block dataPtr
        rawdata).Settled ⟨blockNum, blockSize, rawdata⟩ set := by
  have filled := emMpoolCreateWithMem_filled memory blockSize blockNum
    blockPtr block dataPtr rawdata
  refine ⟨filled.set, rfl, filled.represents accepted, ?_⟩
  rw [emMpoolCreateWithMem_sem memory blockSize blockNum blockPtr block
    dataPtr rawdata accepted]
  rfl

theorem emMpoolCreate_settled (memory : EmMpool) {blockSize blockNum : ℕ}
    {rawdata : ℤ} {mp : EmMpool} (accepted : blockNum ≤ semValueMax)
    (created : emMpoolCreate memory blockSize blockNum rawdata = (0, mp)) :
    ∃ set : SparseSet blockNum, set.count = 0 ∧
      mp.Settled ⟨blockNum, blockSize, rawdata⟩ set := by
  rw [emMpoolCreate] at created
  split_ifs at created with refused
  · cases (Prod.mk.inj created).1
  obtain ⟨_, rfl⟩ := Prod.mk.inj created
  exact emMpoolCreateWithMem_settled memory blockSize blockNum
    memory.blockPtr memory.block memory.dataPtr rawdata accepted

/-! ## The abstract pool -/

/-- A set of block indices, all below the capacity. -/
structure LiveBlocks (capacity : ℕ) where
  blocks : Finset ℕ
  bounded : blocks ⊆ Finset.range capacity

namespace LiveBlocks

variable {capacity : ℕ}

def empty : LiveBlocks capacity := ⟨∅, Finset.empty_subset _⟩

def insert (live : LiveBlocks capacity) (k : ℕ) (bound : k < capacity) :
    LiveBlocks capacity :=
  ⟨Insert.insert k live.blocks,
    Finset.insert_subset (Finset.mem_range.mpr bound) live.bounded⟩

def erase (live : LiveBlocks capacity) (k : ℕ) : LiveBlocks capacity :=
  ⟨live.blocks.erase k, (Finset.erase_subset _ _).trans live.bounded⟩

end LiveBlocks

def LiveBlocks.ofSparse {capacity : ℕ} (set : SparseSet capacity) :
    LiveBlocks capacity :=
  ⟨set.members, Finset.filter_subset _ _⟩

/-- One call on a pool and what it returns. -/
inductive PoolEvent where
  | alloc (result : Option ℤ)
  | free (dataIdx : ℕ) (ret : ℤ)

def EmMpool.Step (before : EmMpool) : PoolEvent → EmMpool → Prop
  | .alloc result, after =>
      emMpoolAllocBlock before emNoWait = some (result, after)
  | .free dataIdx ret, after =>
      emMpoolFreeBlockByDataidx before dataIdx = (ret, after)

/-- The same calls on a bounded set. -/
inductive LiveBlocks.Step {capacity : ℕ} (address : ℕ → ℤ) :
    LiveBlocks capacity → PoolEvent → LiveBlocks capacity → Prop where
  | full {live : LiveBlocks capacity} :
      live.blocks.card = capacity → Step address live (.alloc none) live
  | alloc {live : LiveBlocks capacity} {k : ℕ} (bound : k < capacity) :
      k ∉ live.blocks →
      Step address live (.alloc (some (address k))) (live.insert k bound)
  | free {live : LiveBlocks capacity} {k : ℕ} :
      k ∈ live.blocks → Step address live (.free k 0) (live.erase k)
  | rejected {live : LiveBlocks capacity} {k : ℕ} :
      k ∉ live.blocks → Step address live (.free k (-1)) live

/-- `block_ptr` permutes the blocks and `index_ptr` is its inverse. -/
def EmMpool.BlockPermutation (mp : EmMpool) (capacity : ℕ) : Prop :=
  (∀ slot, slot < capacity →
    mp.blockPtr slot < capacity ∧
      (mp.block (mp.blockPtr slot)).indexPtr = slot) ∧
  (∀ k, k < capacity →
    (mp.block k).indexPtr < capacity ∧
      mp.blockPtr (mp.block k).indexPtr = k)

namespace EmMpool

variable {params : PoolParams}

theorem Represents.blockPermutation {mp : EmMpool}
    {set : SparseSet params.capacity} (shown : mp.Represents params set) :
    mp.BlockPermutation params.capacity := by
  constructor
  · intro slot bound
    rw [shown.indexPtr_eq, shown.blockPtr_eq]
    exact ⟨set.dense_lt slot bound, set.sparse_dense slot bound⟩
  · intro k bound
    rw [shown.indexPtr_eq, shown.blockPtr_eq]
    exact ⟨set.sparse_lt k bound, set.dense_sparse k bound⟩

/-- Every call on a settled pool is the same call on its set of live blocks. -/
theorem Settled.step {before after : EmMpool} {event : PoolEvent}
    {set : SparseSet params.capacity} (settled : before.Settled params set)
    (taken : before.Step event after) :
    ∃ next : SparseSet params.capacity,
      LiveBlocks.Step params.address (.ofSparse set) event (.ofSparse next) ∧
        after.Settled params next := by
  cases event with
  | alloc result =>
      by_cases room : set.count < params.capacity
      · obtain ⟨reached, called, kept⟩ := settled.allocBlock_room room
        have same := Option.some.inj (called.symm.trans taken)
        obtain ⟨rfl, rfl⟩ := Prod.mk.inj same
        refine ⟨set.acquire room, ?_, kept⟩
        have acquired : LiveBlocks.ofSparse (set.acquire room) =
            (LiveBlocks.ofSparse set).insert (set.dense set.count)
              (set.dense_lt _ room) := by
          simp only [LiveBlocks.ofSparse, LiveBlocks.insert,
            SparseSet.members_acquire]
        rw [acquired]
        exact .alloc _ (set.dense_count_not_mem room)
      · have full : set.count = params.capacity := by
          have := set.count_le
          omega
        have called := settled.allocBlock_full full
        have same := Option.some.inj (called.symm.trans taken)
        obtain ⟨rfl, rfl⟩ := Prod.mk.inj same
        exact ⟨set, .full (set.card_members.trans full), settled⟩
  | free dataIdx ret =>
      by_cases member : dataIdx ∈ set.members
      · obtain ⟨reached, called, kept⟩ := settled.freeBlock_live member
        obtain ⟨rfl, rfl⟩ := Prod.mk.inj (called.symm.trans taken)
        refine ⟨set.release dataIdx member, ?_, kept⟩
        have released : LiveBlocks.ofSparse (set.release dataIdx member) =
            (LiveBlocks.ofSparse set).erase dataIdx := by
          simp only [LiveBlocks.ofSparse, LiveBlocks.erase,
            SparseSet.members_release]
        rw [released]
        exact .free member
      · have called := settled.freeBlock_dead member
        obtain ⟨rfl, rfl⟩ := Prod.mk.inj (called.symm.trans taken)
        exact ⟨set, .rejected member, settled⟩

/-- A settled pool and its set of live blocks. -/
def Shows (params : PoolParams) (mp : EmMpool)
    (live : LiveBlocks params.capacity) : Prop :=
  ∃ set : SparseSet params.capacity,
    live = .ofSparse set ∧ mp.Settled params set

theorem Shows.step {before after : EmMpool} {event : PoolEvent}
    {live : LiveBlocks params.capacity}
    (shows : before.Shows params live) (taken : before.Step event after) :
    ∃ next : LiveBlocks params.capacity,
      LiveBlocks.Step params.address live event next ∧
        after.Shows params next := by
  obtain ⟨set, rfl, settled⟩ := shows
  obtain ⟨next, stepped, kept⟩ := settled.step taken
  exact ⟨.ofSparse next, stepped, next, rfl, kept⟩

end EmMpool

/-- In every run of calls a pool behaves as a bounded set of live blocks.
The bound is the one of `sem_init`; a pool whose total size fits in an `int`
is far below it. -/
theorem mempool_refines_live_blocks
    (memory : EmMpool) (blockSize blockNum : ℕ) (blockPtr : ℕ → ℕ)
    (block : ℕ → EmBlkinfo) (dataPtr : ℕ → ℤ) (rawdata : ℤ)
    (accepted : blockNum ≤ semValueMax)
    {events : List PoolEvent} {mp : EmMpool}
    (run : Run EmMpool.Step
      (emMpoolCreateWithMem memory blockSize blockNum blockPtr block dataPtr
        rawdata) events mp) :
    ∃ live : LiveBlocks blockNum,
      Run (LiveBlocks.Step (PoolParams.address ⟨blockNum, blockSize, rawdata⟩))
        .empty events live ∧
      mp.BlockPermutation blockNum ∧
      (∀ k, k ∈ live.blocks ↔
        k < blockNum ∧ (mp.block k).indexPtr < mp.numUsed) ∧
      (live.blocks.card = blockNum →
        emMpoolAllocBlock mp emNoWait = some (none, mp)) ∧
      (live.blocks.card ≠ blockNum →
        ∃ k after, k < blockNum ∧ k ∉ live.blocks ∧
          emMpoolAllocBlock mp emNoWait =
            some (some (mp.block k).dataPtr, after)) ∧
      (∀ k, k ∈ live.blocks →
        ∃ after, emMpoolFreeBlockByDataidx mp k = (0, after)) ∧
      (∀ k, k ∉ live.blocks →
        emMpoolFreeBlockByDataidx mp k = (-1, mp)) := by
  obtain ⟨initial, initialCount, created⟩ :=
    emMpoolCreateWithMem_settled memory blockSize blockNum blockPtr block
      dataPtr rawdata accepted
  have initialLive : LiveBlocks.ofSparse initial = LiveBlocks.empty := by
    have none : initial.members = ∅ := by
      rw [← Finset.card_eq_zero, SparseSet.card_members, initialCount]
    simp only [LiveBlocks.ofSparse, none]
    rfl
  let params : PoolParams := ⟨blockNum, blockSize, rawdata⟩
  have start : EmMpool.Shows params
      (emMpoolCreateWithMem memory blockSize blockNum blockPtr block dataPtr
        rawdata) LiveBlocks.empty :=
    ⟨initial, initialLive.symm, created⟩
  obtain ⟨live, liveRun, set, rfl, settled⟩ :=
    run.simulate (EmMpool.Shows params) start
      (fun _ _ _ _ shows taken => shows.step taken)
  have card : (LiveBlocks.ofSparse set).blocks.card = set.count :=
    set.card_members
  refine ⟨.ofSparse set, liveRun, settled.blockPermutation, ?_, ?_, ?_, ?_, ?_⟩
  · intro k
    rw [settled.indexPtr_eq, settled.numUsed_eq]
    exact SparseSet.mem_members
  · intro full
    exact settled.allocBlock_full (card.symm.trans full)
  · intro notFull
    have room : set.count < blockNum :=
      lt_of_le_of_ne set.count_le (card ▸ notFull)
    obtain ⟨after, called, _⟩ := settled.allocBlock_room room
    refine ⟨set.dense set.count, after, set.dense_lt _ room,
      set.dense_count_not_mem room, ?_⟩
    rw [called, settled.address_eq _ (set.dense_lt _ room)]
  · intro k member
    obtain ⟨after, called, _⟩ := settled.freeBlock_live member
    exact ⟨after, called⟩
  · intro k dead
    exact settled.freeBlock_dead dead

theorem mempool_refines_live_blocks_two :
    ∃ live : LiveBlocks 2,
      Run (LiveBlocks.Step (PoolParams.address ⟨2, 8, 1000⟩)) .empty
        [.alloc (some 1000), .free 1 (-1), .free 0 0] live := by
  have run : ∃ mp, Run EmMpool.Step
      (emMpoolCreateWithMem default 8 2 default default default 1000)
      [.alloc (some 1000), .free 1 (-1), .free 0 0] mp :=
    ⟨_, .cons rfl (.cons rfl (.cons rfl .nil))⟩
  obtain ⟨mp, run⟩ := run
  obtain ⟨live, liveRun, _⟩ := mempool_refines_live_blocks default 8 2
    default default default 1000 (by decide) run
  exact ⟨live, liveRun⟩

end EmbeddedMiddle
