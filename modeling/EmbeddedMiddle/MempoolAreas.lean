import EmbeddedMiddle.MempoolViews

/-!
# The data areas of a pool

Every block of a pool has `block_size` bytes behind its `data_ptr`.  Whether
these areas are apart is a matter of the size that `em_mpool_create` asks for;
which block a pointer gives back is a matter of the quotient that
`em_mpool_free_block` takes.
-/

namespace EmbeddedMiddle

open Foundation

/-- The address is one of the `block_size` bytes of the block. -/
def EmMpool.InBlock (mp : EmMpool) (k : ℕ) (address : ℤ) : Prop :=
  (mp.block k).dataPtr ≤ address ∧
    address < (mp.block k).dataPtr + mp.blockSize

instance (mp : EmMpool) (k : ℕ) (address : ℤ) :
    Decidable (mp.InBlock k address) :=
  inferInstanceAs (Decidable (_ ∧ _))

/-! ## Creation -/

/-- The areas of distinct blocks have no byte in common, all bytes are among
those allocated for `rawdata`, and the arrays have an entry for each block. -/
structure EmMpool.AreasApart (mp : EmMpool) (requests : MpoolRequests) :
    Prop where
  apart : ∀ left right address, left < mp.numMax → right < mp.numMax →
    mp.InBlock left address → mp.InBlock right address → left = right
  inside : ∀ k address, k < mp.numMax → mp.InBlock k address →
    mp.rawdata ≤ address ∧ address < mp.rawdata + requests.rawdata
  blockPtrRoom : sizeofPtr * mp.numMax ≤ requests.blockPtr
  blockRoom : sizeofBlkinfo * mp.numMax ≤ requests.block
  dataPtrRoom : sizeofPtr * mp.numMax ≤ requests.dataPtr

namespace EmMpool.Filled

variable {params : PoolParams} {mp : EmMpool}

theorem inBlock_iff (filled : mp.Filled params params.capacity) {k : ℕ}
    (bound : k < params.capacity) (address : ℤ) :
    mp.InBlock k address ↔
      params.address k ≤ address ∧
        address < params.address k + params.blockSize := by
  obtain ⟨_, isBlock, _⟩ := filled.filled k bound
  rw [EmMpool.InBlock, isBlock, filled.blockSize_eq]

/-- A byte of a block belongs to no other one, since it determines the quotient
by the size of the blocks. -/
theorem inBlock_unique (filled : mp.Filled params params.capacity)
    (addressable : params.Addressable) {left right : ℕ} {address : ℤ}
    (leftBound : left < params.capacity) (rightBound : right < params.capacity)
    (inLeft : mp.InBlock left address) (inRight : mp.InBlock right address) :
    left = right := by
  rw [filled.inBlock_iff leftBound,
    addressable.address_eq leftBound] at inLeft
  rw [filled.inBlock_iff rightBound,
    addressable.address_eq rightBound] at inRight
  have notAbove : ¬ left < right := by
    intro less
    have := Nat.mul_le_mul_left params.blockSize (Nat.succ_le_of_lt less)
    rw [Nat.mul_succ] at this
    omega
  have notBelow : ¬ right < left := by
    intro less
    have := Nat.mul_le_mul_left params.blockSize (Nat.succ_le_of_lt less)
    rw [Nat.mul_succ] at this
    omega
  omega

theorem inBlock_inside (filled : mp.Filled params params.capacity)
    (distinct : params.Distinct) {k : ℕ} {address : ℤ}
    (bound : k < params.capacity) (inBlock : mp.InBlock k address) :
    params.rawdata ≤ address ∧
      address < params.rawdata + (params.blockSize * params.capacity : ℕ) := by
  rw [filled.inBlock_iff bound,
    distinct.addressable.address_eq bound] at inBlock
  have := Nat.mul_le_mul_left params.blockSize (Nat.succ_le_of_lt bound)
  rw [Nat.mul_succ] at this
  omega

/-- Where the size overflows, the block that starts last before the end of what
was allocated sticks out. -/
theorem exists_outside (filled : mp.Filled params params.capacity)
    (positive : 0 < params.blockSize)
    (overflows : 4294967296 ≤ params.blockSize * params.capacity) :
    ∃ k address, k < params.capacity ∧ mp.InBlock k address ∧
      address = params.rawdata +
        uint32 (params.blockSize * params.capacity) := by
  let size := uint32 (params.blockSize * params.capacity)
  let k := size / params.blockSize
  have sizeBelow : size < 4294967296 := Nat.mod_lt _ (by decide)
  have bound : k < params.capacity :=
    Nat.div_lt_of_lt_mul (sizeBelow.trans_le overflows)
  have start : params.blockSize * k ≤ size := Nat.mul_div_le _ _
  have stop : size < params.blockSize * k + params.blockSize :=
    Nat.lt_mul_div_succ size positive
  have isAddress : params.address k =
      params.rawdata + (params.blockSize * k : ℕ) := by
    rw [PoolParams.address, uint32_of_lt (start.trans_lt sizeBelow)]
  refine ⟨k, params.rawdata + size, bound, ?_, rfl⟩
  rw [filled.inBlock_iff bound, isAddress]
  omega

end EmMpool.Filled

/-- The areas of a new pool are apart exactly if the size of the raw data does
not overflow `uint`. -/
theorem create_areas_apart_iff (memory : EmMpool) (blockSize blockNum : ℕ)
    (rawdata : ℤ) (mp : EmMpool)
    (created : emMpoolCreate memory blockSize blockNum rawdata = (0, mp)) :
    mp.AreasApart (emMpoolCreateRequests blockSize blockNum) ↔
      blockSize * blockNum < 4294967296 := by
  rw [emMpoolCreate] at created
  split_ifs at created with refused
  · cases (Prod.mk.inj created).1
  obtain ⟨_, rfl⟩ := Prod.mk.inj created
  have positive : 0 < blockSize := by omega
  have filled := emMpoolCreateWithMem_filled memory blockSize blockNum
    memory.blockPtr memory.block memory.dataPtr rawdata
  generalize emMpoolCreateWithMem memory blockSize blockNum memory.blockPtr
    memory.block memory.dataPtr rawdata = mp at filled
  have numMax : mp.numMax = blockNum := filled.numMax_eq
  have isRawdata : mp.rawdata = rawdata := filled.rawdata_eq
  constructor
  · intro apart
    by_contra overflows
    obtain ⟨k, address, bound, inBlock, isEnd⟩ :=
      filled.exists_outside positive (Nat.not_lt.mp overflows)
    have inside := (apart.inside k address (numMax ▸ bound) inBlock).2
    rw [isRawdata, isEnd] at inside
    exact lt_irrefl _ inside
  · intro fits
    have distinct : PoolParams.Distinct ⟨blockNum, blockSize, rawdata⟩ :=
      ⟨positive, fits⟩
    refine ⟨?_, ?_, ?_, ?_, ?_⟩
    · intro left right address leftBound rightBound
      rw [numMax] at leftBound rightBound
      exact filled.inBlock_unique distinct.addressable leftBound rightBound
    · intro k address bound inBlock
      rw [numMax] at bound
      have inside := filled.inBlock_inside distinct bound inBlock
      rw [isRawdata, emMpoolCreateRequests, uint32_of_lt fits]
      exact inside
    · rw [numMax, emMpoolCreateRequests]
    · rw [numMax, emMpoolCreateRequests]
    · rw [numMax, emMpoolCreateRequests]

theorem create_areas_apart_two :
    (emMpoolCreate default 8 2 1000).2.AreasApart
      (emMpoolCreateRequests 8 2) :=
  (create_areas_apart_iff default 8 2 1000 _ rfl).mpr (by decide)

/-- For two blocks of 2 GiB not a single byte is allocated. -/
theorem create_areas_overlap :
    ¬ ∀ memory blockSize blockNum rawdata mp,
      emMpoolCreate memory blockSize blockNum rawdata = (0, mp) →
      mp.AreasApart (emMpoolCreateRequests blockSize blockNum) := by
  intro apart
  have inside := (apart default 2147483648 2 1000 _ rfl).inside 0 1000
    (by decide +kernel) (by decide +kernel)
  have empty : (emMpoolCreateRequests 2147483648 2).rawdata = 0 := by
    decide +kernel
  rw [empty] at inside
  have outside : ¬ (1000 : ℤ) <
      (emMpoolCreate default 2147483648 2 1000).2.rawdata + (0 : ℕ) := by
    decide +kernel
  exact outside inside.2

/-! ## Freeing by pointer -/

/-- A pointer frees only the live block it points into; one that points into no
live block is refused without a change and without a look beyond the blocks.
To come that far the call must not divide by 0 nor load a byte that cannot be
read. -/
structure PoolUse.FreeValidated (state : PoolUse) (readable : Set ℤ)
    (address : ℤ) : Prop where
  divides : 0 < state.mp.blockSize
  loads : ∀ byte ∈ emMpoolFreeBlockLoads address, byte ∈ readable
  frees : ∀ after, emMpoolFreeBlock state.mp address = (0, after) →
    ∃ k ∈ state.live, state.mp.InBlock k address ∧
      ∀ other, emMpoolGetDataptr after other ≠ none ↔
        other ∈ state.live.erase k
  refuses : (∀ k ∈ state.live, ¬ state.mp.InBlock k address) →
    emMpoolFreeBlock state.mp address = (-1, state.mp) ∧
      ∀ index ∈ emMpoolFreeBlockIndices state.mp address,
        0 ≤ index ∧ index < state.mp.numMax

/-- The quotient of the offset by the size of the blocks, cut off to 32 bits,
is the number of the block. -/
def PoolParams.LeadsTo (params : PoolParams) (address : ℤ) (k : ℕ) : Prop :=
  k < params.capacity ∧
    (address - params.rawdata).tdiv params.blockSize % 4294967296 = k

namespace EmMpool.Settled

variable {params : PoolParams} {mp after : EmMpool}
  {set : SparseSet params.capacity} {address : ℤ} {k : ℕ}

theorem inBlock_iff (settled : mp.Settled params set)
    (bound : k < params.capacity) :
    mp.InBlock k address ↔
      params.address k ≤ address ∧
        address < params.address k + params.blockSize := by
  rw [EmMpool.InBlock, settled.address_eq k bound, settled.blockSize_eq]

/-- The index that both the log line and the test use. -/
theorem freeBlock_leadsTo (settled : mp.Settled params set)
    (leads : params.LeadsTo address k) :
    emMpoolFreeBlock mp address = emMpoolFreeBlockByDataidx mp k ∧
      emMpoolFreeBlockIndices mp address =
        (k : ℤ) :: emMpoolFreeBlockByDataidxIndices mp k := by
  obtain ⟨bound, isQuotient⟩ := leads
  have small : k ≤ intMax := bound.le.trans settled.capacity_le
  have narrowed : toInt32
      ((address - mp.rawdata).tdiv mp.blockSize) = k := by
    rw [settled.rawdata_eq, settled.blockSize_eq, ← toInt32_natCast small]
    apply toInt32_congr
    rw [isQuotient]
    unfold intMax at small
    omega
  constructor
  · simp only [emMpoolFreeBlock, narrowed, intToUint32_natCast small]
  · simp only [emMpoolFreeBlockIndices, narrowed, intToUint32_natCast small]

/-- A byte of a block leads to a block, perhaps one before it. -/
theorem leadsTo_of_inBlock (settled : mp.Settled params set)
    (bound : k < params.capacity) (inBlock : mp.InBlock k address) :
    ∃ other, params.LeadsTo address other := by
  obtain ⟨lower, upper⟩ := (settled.inBlock_iff bound).mp inBlock
  obtain ⟨offset, isOffset⟩ : ∃ offset : ℕ,
      address - params.rawdata = offset := by
    refine ⟨(address - params.rawdata).toNat, ?_⟩
    unfold PoolParams.address at lower
    omega
  have wraps : uint32 (params.blockSize * k) ≤ params.blockSize * k :=
    Nat.mod_le _ _
  have small : offset < params.blockSize * (k + 1) := by
    rw [Nat.mul_succ]
    unfold PoolParams.address at upper
    omega
  have quotient : offset / params.blockSize < k + 1 :=
    Nat.div_lt_of_lt_mul small
  have accepted := settled.capacity_le
  refine ⟨offset / params.blockSize, by omega, ?_⟩
  rw [isOffset, ← Int.ofNat_tdiv]
  generalize offset / params.blockSize = quotient at quotient
  unfold semValueMax intMax at accepted
  omega

theorem freeValidated_of_leadsTo {live : Finset ℕ} {readable : Set ℤ}
    (settled : mp.Settled params set) (isLive : live = set.members)
    (divides : 0 < params.blockSize)
    (loads : ∀ byte ∈ emMpoolFreeBlockLoads address, byte ∈ readable)
    (leads : params.LeadsTo address k)
    (held : k ∈ live → mp.InBlock k address) :
    PoolUse.FreeValidated ⟨mp, live⟩ readable address := by
  subst isLive
  obtain ⟨called, indices⟩ := settled.freeBlock_leadsTo leads
  refine ⟨settled.blockSize_eq ▸ divides, loads, ?_, ?_⟩
  · intro after freed
    rw [called] at freed
    by_cases member : k ∈ set.members
    · obtain ⟨reached, same, kept⟩ := settled.freeBlock_live member
      obtain ⟨_, rfl⟩ := Prod.mk.inj (same.symm.trans freed)
      refine ⟨k, member, held member, ?_⟩
      intro other
      rw [kept.getDataptr_eq, SparseSet.members_release]
      simp
    · rw [settled.freeBlock_dead member] at freed
      cases (Prod.mk.inj freed).1
  · intro nowhere
    have dead : k ∉ set.members :=
      fun member => nowhere k member (held member)
    refine ⟨called.trans (settled.freeBlock_dead dead), ?_⟩
    have bound := leads.1
    intro index used
    rw [indices, emMpoolFreeBlockByDataidxIndices] at used
    rw [SparseSet.mem_members, ← settled.indexPtr_eq,
      ← settled.numUsed_eq] at dead
    have isDead : mp.numUsed ≤ (mp.block k).indexPtr := by omega
    have isIndex : index = k := by
      split_ifs at used <;> simpa using used
    rw [isIndex, settled.numMax_eq]
    omega

/-- What a pointer leads to can be read off the result. -/
theorem leadsTo_of_freeValidated {live : Finset ℕ} {readable : Set ℤ}
    (settled : mp.Settled params set) (isLive : live = set.members)
    (validated : PoolUse.FreeValidated ⟨mp, live⟩ readable address) :
    ∃ k, params.LeadsTo address k ∧ (k ∈ live → mp.InBlock k address) := by
  subst isLive
  by_cases somewhere : ∃ k ∈ set.members, mp.InBlock k address
  · obtain ⟨held, member, inBlock⟩ := somewhere
    obtain ⟨k, leads⟩ := settled.leadsTo_of_inBlock
      (SparseSet.mem_members.mp member).1 inBlock
    refine ⟨k, leads, ?_⟩
    intro isLive
    obtain ⟨after, freed, kept⟩ := settled.freeBlock_live isLive
    obtain ⟨other, _, inOther, left⟩ := validated.frees after
      ((settled.freeBlock_leadsTo leads).1.trans freed)
    have gone : k ∉ set.members.erase other := by
      rw [← left k, kept.getDataptr_eq, SparseSet.members_release]
      simp
    have same : k = other := by
      by_contra apart
      exact gone (Finset.mem_erase.mpr ⟨apart, isLive⟩)
    rwa [same]
  · have nowhere : ∀ k ∈ set.members, ¬ mp.InBlock k address :=
      fun k member inBlock => somewhere ⟨k, member, inBlock⟩
    obtain ⟨refused, inRange⟩ := validated.refuses nowhere
    obtain ⟨k, leads⟩ : ∃ k, params.LeadsTo address k := by
      have logged := inRange _ List.mem_cons_self
      simp only [settled.rawdata_eq, settled.blockSize_eq,
        settled.numMax_eq] at logged
      have accepted := settled.capacity_le
      have sameRest := toInt32_emod
        ((address - params.rawdata).tdiv params.blockSize)
      generalize toInt32 ((address - params.rawdata).tdiv
        params.blockSize) = index at logged sameRest
      refine ⟨index.toNat, by omega, ?_⟩
      rw [← sameRest]
      unfold semValueMax intMax at accepted
      omega
    refine ⟨k, leads, ?_⟩
    intro isLive
    obtain ⟨after, freed, _⟩ := settled.freeBlock_live isLive
    rw [(settled.freeBlock_leadsTo leads).1, freed] at refused
    cases (Prod.mk.inj refused).1

end EmMpool.Settled

/-- Freeing is validated exactly for the addresses whose `int` can be read and
that lead to a block that is free or holds them. -/
theorem free_block_validated_iff
    (memory : EmMpool) (blockSize blockNum : ℕ) (blockPtr : ℕ → ℕ)
    (block : ℕ → EmBlkinfo) (dataPtr : ℕ → ℤ) (rawdata : ℤ)
    (accepted : blockNum ≤ semValueMax)
    {events : List PoolEvent} {state : PoolUse}
    (run : Run PoolUse.Step
      ⟨emMpoolCreateWithMem memory blockSize blockNum blockPtr block dataPtr
        rawdata, ∅⟩ events state)
    (readable : Set ℤ) (address : ℤ) :
    state.FreeValidated readable address ↔
      0 < blockSize ∧
        (∀ byte ∈ emMpoolFreeBlockLoads address, byte ∈ readable) ∧
        ∃ k, PoolParams.LeadsTo ⟨blockNum, blockSize, rawdata⟩ address k ∧
          (k ∈ state.live → state.mp.InBlock k address) := by
  obtain ⟨initial, empty, created⟩ :=
    emMpoolCreateWithMem_settled memory blockSize blockNum blockPtr block
      dataPtr rawdata accepted
  obtain ⟨set, settled, isLive⟩ :=
    run.invariant (PoolUse.Shows ⟨blockNum, blockSize, rawdata⟩)
      ⟨initial, created, (SparseSet.members_eq_empty empty).symm⟩
      (fun _ _ _ shows taken => shows.step taken)
  constructor
  · intro validated
    have divides := validated.divides
    rw [settled.blockSize_eq] at divides
    exact ⟨divides, validated.loads,
      settled.leadsTo_of_freeValidated isLive validated⟩
  · rintro ⟨divides, loads, k, leads, held⟩
    exact settled.freeValidated_of_leadsTo isLive divides loads leads held

/-- In a pool of two blocks of eight bytes, both live, the fifth byte of the
second one; only the raw data can be read. -/
theorem free_block_validated_two :
    ∃ state : PoolUse,
      Run PoolUse.Step
        ⟨emMpoolCreateWithMem default 8 2 default default default 1000, ∅⟩
        [.alloc (some 1000), .alloc (some 1008)] state ∧
      state.FreeValidated {byte | 1000 ≤ byte ∧ byte < 1016} 1012 := by
  have run : ∃ state : PoolUse,
      Run PoolUse.Step
        ⟨emMpoolCreateWithMem default 8 2 default default default 1000, ∅⟩
        [.alloc (some 1000), .alloc (some 1008)] state ∧
      state.mp.InBlock 1 1012 :=
    ⟨_, .cons (.alloc emNoWait rfl) (.cons (.alloc emNoWait rfl) .nil),
      by decide +kernel⟩
  obtain ⟨state, run, inBlock⟩ := run
  refine ⟨state, run, ?_⟩
  have leads : PoolParams.LeadsTo ⟨2, 8, 1000⟩ 1012 1 := by
    unfold PoolParams.LeadsTo
    decide +kernel
  have loads : ∀ byte ∈ emMpoolFreeBlockLoads 1012,
      1000 ≤ byte ∧ byte < 1016 := by
    decide
  exact (free_block_validated_iff default 8 2 default default default 1000
    (by decide) run _ 1012).mpr
      ⟨by decide, loads, 1, leads, fun _ => inBlock⟩

/-- A pointer four bytes before the raw data frees the first block, also where
everything can be read. -/
theorem free_block_before_raw_data :
    ¬ ∀ events state,
      Run PoolUse.Step
        ⟨emMpoolCreateWithMem default 8 2 default default default 1000, ∅⟩
        events state →
      ∀ address, state.FreeValidated Set.univ address := by
  intro validated
  have run : ∃ state : PoolUse,
      Run PoolUse.Step
        ⟨emMpoolCreateWithMem default 8 2 default default default 1000, ∅⟩
        [.alloc (some 1000)] state ∧
      state.live = {0} ∧ ¬ state.mp.InBlock 0 996 ∧
      (emMpoolFreeBlock state.mp 996).1 = 0 :=
    ⟨_, .cons (.alloc emNoWait rfl) .nil, by decide +kernel,
      by decide +kernel, by decide +kernel⟩
  obtain ⟨state, run, isLive, outside, freed⟩ := run
  obtain ⟨k, member, inBlock, _⟩ :=
    (validated _ state run 996).frees _ (Prod.ext freed rfl)
  rw [isLive, Finset.mem_singleton] at member
  exact outside (member ▸ inBlock)

end EmbeddedMiddle
