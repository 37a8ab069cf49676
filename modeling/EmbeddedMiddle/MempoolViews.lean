import EmbeddedMiddle.MempoolAddresses

/-!
# The views of a pool

The live blocks of a pool can be listed by their addresses, in two ways, and by
their indices, and each can be looked up.  The blocks are the same in all
views, in the same order, as long as no address of a block overflows `uint`.
-/

namespace EmbeddedMiddle

open Foundation

/-- A pool, and for the record the blocks that have been allocated and not
freed since. -/
structure PoolUse where
  mp : EmMpool
  live : Finset ℕ

/-- The entries of a list, and behind them what the array held. -/
def overwrite {Entry : Type} (array : ℕ → Entry) (list : List Entry) :
    ℕ → Entry :=
  fun i => list.getD i (array i)

/-- The three arrays list these blocks, in this order. -/
structure EmMpool.Lists (mp : EmMpool) (order : List ℕ) : Prop where
  length : order.length = mp.numUsed
  dataptrArray : ∀ maxSize dataPtrs,
    emMpoolGetDataptrArray mp maxSize dataPtrs =
      (order.length, overwrite dataPtrs
        ((order.map fun k => (mp.block k).dataPtr).take maxSize))
  dataptrArray2 : ∀ slot k, order[slot]? = some k →
    emMpoolGetDataptrArray2 mp slot = (mp.block k).dataPtr
  dataidxArray : ∀ maxSize dataIdxs,
    emMpoolGetDataidxArray mp maxSize dataIdxs =
      (order.length, overwrite dataIdxs (order.take maxSize))

namespace PoolUse

/-- A call that allocates, or one that frees by the index or by the address.
The block that is allocated is the one taken by `_em_mpool_alloc_blockmng`. -/
inductive Step : PoolUse → PoolEvent → PoolUse → Prop where
  | alloc {state : PoolUse} {address : ℤ} {mp : EmMpool} (timeoutMs : ℤ) :
      emMpoolAllocBlock state.mp timeoutMs = some (some address, mp) →
      Step state (.alloc (some address))
        ⟨mp, insert (state.mp.blockPtr state.mp.numUsed) state.live⟩
  | refused {state : PoolUse} {mp : EmMpool} (timeoutMs : ℤ) :
      emMpoolAllocBlock state.mp timeoutMs = some (none, mp) →
      Step state (.alloc none) ⟨mp, state.live⟩
  | free {state : PoolUse} {ret : ℤ} {mp : EmMpool} (dataIdx : ℕ) :
      emMpoolFreeBlockByDataidx state.mp dataIdx = (ret, mp) →
      Step state (.free dataIdx ret)
        ⟨mp, if ret = 0 then state.live.erase dataIdx else state.live⟩
  | freeBlock {state : PoolUse} {ret : ℤ} {mp : EmMpool} {dataIdx : ℕ}
      (blockData : ℤ) :
      intToUint32 (emMpoolGetDataidx state.mp blockData) = dataIdx →
      emMpoolFreeBlock state.mp blockData = (ret, mp) →
      Step state (.free dataIdx ret)
        ⟨mp, if ret = 0 then state.live.erase dataIdx else state.live⟩

/-- All views name the live blocks: the arrays each block once and in one
order, the lookups by index and by address the same ones. -/
structure ViewsAgree (state : PoolUse) : Prop where
  listed : ∃ order : List ℕ, order.Nodup ∧ order.toFinset = state.live ∧
    state.mp.Lists order
  apart : ∀ left ∈ state.live, ∀ right ∈ state.live,
    (state.mp.block left).dataPtr = (state.mp.block right).dataPtr →
      left = right
  dataptr : ∀ k, emMpoolGetDataptr state.mp k =
    if k ∈ state.live then some (state.mp.block k).dataPtr else none
  dataidx : ∀ k ∈ state.live,
    emMpoolGetDataidx state.mp (state.mp.block k).dataPtr = k

/-- A block that stays live keeps its address and its index; one that is handed
out is found under its index. -/
structure Keeps (before : PoolUse) (event : PoolEvent) (after : PoolUse) :
    Prop where
  dataptr : ∀ k ∈ before.live, k ∈ after.live →
    emMpoolGetDataptr after.mp k = emMpoolGetDataptr before.mp k
  dataidx : ∀ address,
    emMpoolGetDataidx after.mp address = emMpoolGetDataidx before.mp address
  handedOut : ∀ address, event = .alloc (some address) →
    ∃ k, k ∉ before.live ∧ after.live = insert k before.live ∧
      emMpoolGetDataptr after.mp k = some address

/-- The pool shows a sparse set, whose members are the live blocks. -/
def Shows (params : PoolParams) (state : PoolUse) : Prop :=
  ∃ set : SparseSet params.capacity,
    state.mp.Settled params set ∧ state.live = set.members

end PoolUse

/-! ## The arrays -/

theorem emMpoolFillArray_eq {Entry : Type} (mp : EmMpool) (maxSize : ℕ)
    (entry : EmBlkinfo → Entry) (array : ℕ → Entry) :
    emMpoolFillArray mp maxSize entry array =
      overwrite array (((List.range mp.numUsed).map fun i =>
        entry (mp.block (mp.blockPtr i))).take maxSize) := by
  rw [emMpoolFillArray,
    foldl_update (fun i => entry (mp.block (mp.blockPtr i)))]
  funext i
  rw [overwrite, ← List.map_take, List.take_range, Nat.min_comm,
    List.getD_eq_getElem?_getD, List.getElem?_map]
  split_ifs with inside
  · rw [List.getElem?_range inside]
    rfl
  · rw [List.getElem?_eq_none (by
      rw [List.length_range]
      exact Nat.not_lt.mp inside)]
    rfl

namespace EmMpool.Settled

variable {params : PoolParams} {mp after : EmMpool}
  {set : SparseSet params.capacity}

theorem getDataptr_eq (settled : mp.Settled params set) (k : ℕ) :
    emMpoolGetDataptr mp k =
      if k ∈ set.members then some (params.address k) else none := by
  unfold emMpoolGetDataptr
  rw [settled.numMax_eq, settled.numUsed_eq, settled.indexPtr_eq]
  by_cases member : k ∈ set.members
  · obtain ⟨bound, live⟩ := SparseSet.mem_members.mp member
    rw [if_pos member, if_neg (by omega), settled.address_eq k bound]
  · rw [if_neg member]
    rw [SparseSet.mem_members] at member
    rw [if_pos (by omega)]

theorem lists (settled : mp.Settled params set) : mp.Lists set.order := by
  have bound : ∀ slot, slot < set.count → set.dense slot < params.capacity :=
    fun slot live => set.dense_lt slot (live.trans_le set.count_le)
  have inUse : ∀ slot ∈ List.range set.count,
      mp.block (mp.blockPtr slot) = mp.block (set.dense slot) :=
    fun slot _ => by rw [settled.blockPtr_eq]
  have isIndex : ∀ slot ∈ List.range set.count,
      (mp.block (mp.blockPtr slot)).index = set.dense slot := by
    intro slot inRange
    rw [inUse slot inRange,
      settled.index_eq _ (bound slot (List.mem_range.mp inRange))]
  have length : set.order.length = mp.numUsed := by
    rw [SparseSet.order, List.length_map, List.length_range,
      settled.numUsed_eq]
  refine ⟨length, ?_, ?_, ?_⟩
  · intro maxSize dataPtrs
    rw [emMpoolGetDataptrArray, emMpoolFillArray_eq, length,
      settled.numUsed_eq, SparseSet.order, List.map_map,
      List.map_congr_left (fun slot inRange =>
        congrArg EmBlkinfo.dataPtr (inUse slot inRange))]
    rfl
  · intro slot k isSlot
    obtain ⟨live, rfl⟩ : slot < set.count ∧ set.dense slot = k := by
      rw [SparseSet.order, List.getElem?_map, Option.map_eq_some_iff] at isSlot
      obtain ⟨other, isOther, isDense⟩ := isSlot
      obtain ⟨inside, same⟩ := List.getElem?_eq_some_iff.mp isOther
      rw [List.getElem_range] at same
      subst same
      exact ⟨by simpa using inside, isDense⟩
    rw [emMpoolGetDataptrArray2,
      settled.dataPtr_eq slot (live.trans_le set.count_le),
      settled.address_eq _ (bound slot live)]
  · intro maxSize dataIdxs
    rw [emMpoolGetDataidxArray, emMpoolFillArray_eq, length,
      settled.numUsed_eq, List.map_congr_left isIndex]
    rfl

/-- Allocation with any timeout. -/
theorem allocBlock_cases (settled : mp.Settled params set) {timeoutMs : ℤ}
    {result : Option ℤ}
    (called : emMpoolAllocBlock mp timeoutMs = some (result, after)) :
    (∃ room : set.count < params.capacity,
      result = some (params.address (set.dense set.count)) ∧
        after.Settled params (set.acquire room)) ∨
      result = none ∧ after = mp := by
  have tokens := settled.sem_eq
  rcases set.count_le.lt_or_eq with room | full
  · obtain ⟨reached, taken, kept⟩ := settled.allocBlock_room room
    have token : 0 < mp.sem.count := by omega
    have same : emMpoolAllocBlock mp timeoutMs =
        emMpoolAllocBlock mp emNoWait := by
      simp only [emMpoolAllocBlock, emSemWait, if_pos token]
    rw [same, taken] at called
    obtain ⟨rfl, rfl⟩ := Prod.mk.inj (Option.some.inj called)
    exact .inl ⟨room, rfl, kept⟩
  · have noToken : mp.sem.count = 0 := by omega
    simp only [emMpoolAllocBlock, emSemWait, noToken, Nat.lt_irrefl,
      ↓reduceIte] at called
    split_ifs at called with waits
    obtain ⟨rfl, rfl⟩ : none = result ∧ mp = after := by
      simpa [emError] using called
    exact .inr ⟨rfl, rfl⟩

end EmMpool.Settled

/-! ## Runs -/

namespace PoolUse

variable {params : PoolParams} {before after : PoolUse} {event : PoolEvent}

theorem Shows.dataptr {state : PoolUse} (shows : state.Shows params) (k : ℕ) :
    emMpoolGetDataptr state.mp k =
      if k ∈ state.live then some (params.address k) else none := by
  obtain ⟨set, settled, isLive⟩ := shows
  rw [isLive, settled.getDataptr_eq]

/-- The indices are computed from what stays as it is. -/
theorem Shows.dataidx {state : PoolUse} (shows : state.Shows params)
    (address : ℤ) :
    emMpoolGetDataidx state.mp address =
      toInt32 ((address - params.rawdata).tdiv params.blockSize) := by
  obtain ⟨set, settled, _⟩ := shows
  rw [emMpoolGetDataidx, settled.rawdata_eq, settled.blockSize_eq]

/-- A call that frees a block by its index. -/
theorem Shows.free (shows : before.Shows params) {dataIdx : ℕ} {ret : ℤ}
    {mp : EmMpool}
    (called : emMpoolFreeBlockByDataidx before.mp dataIdx = (ret, mp)) :
    Shows params
      ⟨mp, if ret = 0 then before.live.erase dataIdx else before.live⟩ := by
  obtain ⟨set, settled, isLive⟩ := shows
  by_cases member : dataIdx ∈ set.members
  · obtain ⟨reached, freed, kept⟩ := settled.freeBlock_live member
    obtain ⟨rfl, rfl⟩ := Prod.mk.inj (freed.symm.trans called)
    refine ⟨set.release dataIdx member, kept, ?_⟩
    rw [if_pos rfl, isLive, SparseSet.members_release]
  · have refused := settled.freeBlock_dead member
    obtain ⟨rfl, rfl⟩ := Prod.mk.inj (refused.symm.trans called)
    exact ⟨set, settled, isLive⟩

theorem Shows.step (shows : before.Shows params)
    (taken : before.Step event after) : after.Shows params := by
  cases taken with
  | alloc timeoutMs called =>
      obtain ⟨set, settled, isLive⟩ := shows
      rcases settled.allocBlock_cases called with
        ⟨room, _, kept⟩ | ⟨none, _⟩
      · refine ⟨set.acquire room, kept, ?_⟩
        rw [isLive, settled.blockPtr_eq, settled.numUsed_eq,
          SparseSet.members_acquire]
      · cases none
  | refused timeoutMs called =>
      obtain ⟨set, settled, isLive⟩ := shows
      rcases settled.allocBlock_cases called with
        ⟨_, some, _⟩ | ⟨_, unchanged⟩
      · cases some
      · exact ⟨set, unchanged ▸ settled, isLive⟩
  | free dataIdx called => exact shows.free called
  | freeBlock blockData isIndex called =>
      subst isIndex
      exact shows.free called

theorem Shows.keeps (shows : before.Shows params)
    (taken : before.Step event after) : before.Keeps event after := by
  have following := shows.step taken
  refine ⟨?_, ?_, ?_⟩
  · intro k wasLive isLive
    rw [shows.dataptr, following.dataptr, if_pos wasLive, if_pos isLive]
  · intro address
    rw [shows.dataidx, following.dataidx]
  · intro address isAlloc
    cases taken with
    | alloc timeoutMs called =>
        obtain ⟨set, settled, isLive⟩ := shows
        rcases settled.allocBlock_cases called with
          ⟨room, same, kept⟩ | ⟨none, _⟩
        · rw [PoolEvent.alloc.inj isAlloc] at same
          refine ⟨set.dense set.count, ?_, ?_, ?_⟩
          · rw [isLive]
            exact set.dense_count_not_mem room
          · rw [settled.blockPtr_eq, settled.numUsed_eq]
          · rw [following.dataptr, if_pos, same]
            rw [settled.blockPtr_eq, settled.numUsed_eq]
            exact Finset.mem_insert_self _ _
        · cases none
    | refused timeoutMs called => cases isAlloc
    | free dataIdx called => cases isAlloc
    | freeBlock blockData isIndex called => cases isAlloc

theorem Shows.viewsAgree {state : PoolUse} (shows : state.Shows params)
    (addressable : params.Addressable) : state.ViewsAgree := by
  obtain ⟨set, settled, isLive⟩ := id shows
  have bound : ∀ k ∈ state.live, k < params.capacity := by
    intro k member
    rw [isLive] at member
    exact (SparseSet.mem_members.mp member).1
  have isAddress : ∀ k ∈ state.live,
      (state.mp.block k).dataPtr = params.address k :=
    fun k member => settled.address_eq k (bound k member)
  refine ⟨⟨set.order, set.nodup_order, ?_, settled.lists⟩, ?_, ?_, ?_⟩
  · rw [isLive, set.toFinset_order]
  · intro left leftLive right rightLive same
    rw [isAddress left leftLive, isAddress right rightLive] at same
    exact addressable.address_injective (bound left leftLive)
      (bound right rightLive) same
  · intro k
    rw [shows.dataptr]
    split_ifs with member
    · rw [isAddress k member]
    · rfl
  · intro k member
    rw [isAddress k member, shows.dataidx]
    exact addressable.index_of_address settled.capacity_le (bound k member)

/-- Allocating again and again takes all blocks. -/
theorem exists_filled {mp : EmMpool} {initial : SparseSet params.capacity}
    (settled : mp.Settled params initial) (empty : initial.count = 0)
    {number : ℕ} (bound : number ≤ params.capacity) :
    ∃ events, ∃ state : PoolUse, ∃ set : SparseSet params.capacity,
      Run PoolUse.Step ⟨mp, ∅⟩ events state ∧
        state.mp.Settled params set ∧ state.live = set.members ∧
        set.count = number := by
  induction number with
  | zero =>
      exact ⟨[], ⟨mp, ∅⟩, initial, .nil, settled,
        (SparseSet.members_eq_empty empty).symm, empty⟩
  | succ number induction =>
      obtain ⟨events, state, set, run, shown, isLive, rfl⟩ :=
        induction (Nat.le_of_succ_le bound)
      have room : set.count < params.capacity := bound
      obtain ⟨after, called, kept⟩ := shown.allocBlock_room room
      refine ⟨_, _, set.acquire room, run.snoc (.alloc emNoWait called), kept,
        ?_, rfl⟩
      rw [shown.blockPtr_eq, shown.numUsed_eq, isLive,
        SparseSet.members_acquire]

/-- Where the last address overflows, its block is taken for another one. -/
theorem index_of_last_address_ne (overflows :
      4294967296 ≤ params.blockSize * (params.capacity - 1))
    (accepted : params.capacity ≤ semValueMax) :
    toInt32 ((params.address (params.capacity - 1) - params.rawdata).tdiv
      params.blockSize) ≠ (params.capacity - 1 : ℕ) := by
  have wraps : uint32 (params.blockSize * (params.capacity - 1)) <
      params.blockSize * (params.capacity - 1) :=
    (Nat.mod_lt _ (by decide)).trans_le overflows
  have below : uint32 (params.blockSize * (params.capacity - 1)) /
      params.blockSize < params.capacity - 1 :=
    Nat.div_lt_of_lt_mul wraps
  have offset : params.address (params.capacity - 1) - params.rawdata =
      (uint32 (params.blockSize * (params.capacity - 1)) : ℤ) := by
    rw [PoolParams.address]
    omega
  rw [offset, ← Int.ofNat_tdiv, toInt32_natCast (by
    unfold semValueMax at accepted
    omega)]
  exact_mod_cast below.ne

end PoolUse

/-- The views agree in every state that is reached, and no call disturbs the
blocks that stay live, exactly for the pools in which no address of a block
overflows. -/
theorem pool_views_agree_iff
    (memory : EmMpool) (blockSize blockNum : ℕ) (blockPtr : ℕ → ℕ)
    (block : ℕ → EmBlkinfo) (dataPtr : ℕ → ℤ) (rawdata : ℤ)
    (positive : 0 < blockSize) (accepted : blockNum ≤ semValueMax) :
    (∀ events state,
      Run PoolUse.Step
        ⟨emMpoolCreateWithMem memory blockSize blockNum blockPtr block dataPtr
          rawdata, ∅⟩ events state →
      state.ViewsAgree ∧
        ∀ event after, state.Step event after → state.Keeps event after) ↔
      blockSize * (blockNum - 1) < 4294967296 := by
  obtain ⟨initial, empty, created⟩ :=
    emMpoolCreateWithMem_settled memory blockSize blockNum blockPtr block
      dataPtr rawdata accepted
  constructor
  · intro agree
    by_contra overflows
    have overflows : 4294967296 ≤ blockSize * (blockNum - 1) :=
      Nat.not_lt.mp overflows
    have nonempty : blockNum - 1 < blockNum := by
      by_contra none
      have none : blockNum - 1 = 0 := by omega
      rw [none] at overflows
      omega
    obtain ⟨events, state, set, run, settled, isLive, full⟩ :=
      PoolUse.exists_filled created empty le_rfl
    have last : blockNum - 1 ∈ state.live := by
      rw [isLive, SparseSet.mem_members, full]
      exact ⟨nonempty, set.sparse_lt _ nonempty⟩
    have index := (agree events state run).1.dataidx _ last
    rw [settled.address_eq _ nonempty,
      PoolUse.Shows.dataidx ⟨set, settled, isLive⟩] at index
    exact PoolUse.index_of_last_address_ne overflows accepted index
  · intro fits events state run
    have addressable : PoolParams.Addressable
        ⟨blockNum, blockSize, rawdata⟩ := ⟨positive, fits⟩
    have shows : state.Shows ⟨blockNum, blockSize, rawdata⟩ :=
      run.invariant (PoolUse.Shows ⟨blockNum, blockSize, rawdata⟩)
        ⟨initial, created, (SparseSet.members_eq_empty empty).symm⟩
        (fun _ _ _ shows taken => shows.step taken)
    exact ⟨shows.viewsAgree addressable,
      fun _ _ taken => shows.keeps taken⟩

/-- Two blocks of eight bytes, both allocated and the first one freed. -/
theorem pool_views_agree_two :
    ∃ state : PoolUse,
      Run PoolUse.Step
        ⟨emMpoolCreateWithMem default 8 2 default default default 1000, ∅⟩
        [.alloc (some 1000), .alloc (some 1008), .free 0 0] state ∧
      state.live = {1} ∧ state.ViewsAgree := by
  have run : ∃ state : PoolUse,
      Run PoolUse.Step
        ⟨emMpoolCreateWithMem default 8 2 default default default 1000, ∅⟩
        [.alloc (some 1000), .alloc (some 1008), .free 0 0] state ∧
      state.live = {1} :=
    ⟨_, .cons (.alloc emNoWait rfl) (.cons (.alloc emNoWait rfl)
      (.cons (.free 0 rfl) .nil)), by decide +kernel⟩
  obtain ⟨state, run, isLive⟩ := run
  have agree := (pool_views_agree_iff default 8 2 default default default 1000
    (by decide) (by decide)).mpr (by decide)
  exact ⟨state, run, isLive, (agree _ state run).1⟩

/-- Three blocks of 2 GiB: the third one has the address of the first. -/
theorem pool_views_overflow :
    ¬ ∀ events state,
      Run PoolUse.Step
        ⟨emMpoolCreateWithMem default 2147483648 3 default default default
          1000, ∅⟩ events state →
      state.ViewsAgree ∧
        ∀ event after, state.Step event after → state.Keeps event after := by
  intro agree
  have run : ∃ state : PoolUse,
      Run PoolUse.Step
        ⟨emMpoolCreateWithMem default 2147483648 3 default default default
          1000, ∅⟩
        [.alloc (some 1000), .alloc (some 2147484648), .alloc (some 1000)]
        state ∧
      0 ∈ state.live ∧ 2 ∈ state.live ∧
        (state.mp.block 0).dataPtr = (state.mp.block 2).dataPtr :=
    ⟨_, .cons (.alloc emNoWait rfl) (.cons (.alloc emNoWait rfl)
      (.cons (.alloc emNoWait rfl) .nil)), by decide +kernel,
      by decide +kernel, by decide +kernel⟩
  obtain ⟨state, run, first, third, shared⟩ := run
  have same := (agree _ state run).1.apart 0 first 2 third shared
  cases same

end EmbeddedMiddle
