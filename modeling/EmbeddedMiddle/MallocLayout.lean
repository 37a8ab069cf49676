import EmbeddedMiddle.MallocArena
import EmbeddedMiddle.Foundation.Consecutive

/-!
# The static layout of the block allocator

`em_memmng_create` in a buffer of the caller: where it places the arrays of its
two pools, the index table and the arena, and what the macros of the headers
and `em_mpool_calc_memsize` say that they take.
-/

namespace EmbeddedMiddle

open Foundation

/-! ## Sizes and places -/

/-- `EM_MEMPOOL_CALC_MEMSIZE`. -/
def emMempoolCalcMemsize (blockSize blockNum : ℕ) : ℕ :=
  sizeofPtr * blockNum + sizeofBlkinfo * blockNum + sizeofPtr * blockNum +
    blockSize * blockNum

/-- `EM_MEMMNG_CALC_MEMSIZE`. -/
def emMemmngCalcMemsize (blockSize blockNum allocMaxNum : ℕ) : ℕ :=
  emMempoolCalcMemsize sizeofMeminfo allocMaxNum * 2 + sizeofPtr * blockNum +
    blockSize * blockNum

/-- The pointers that `em_mpool_create_with_mem2` computes. -/
structure MpoolPlaces where
  dataPtr : ℤ
  blockPtr : ℤ
  block : ℤ
  rawdata : ℤ
  deriving DecidableEq, Repr

def emMpoolCreateWithMem2Places (blockNum : ℕ) (memory : ℤ) : MpoolPlaces :=
  let dataPtr := memory
  let blockPtr := dataPtr + (sizeofPtr * blockNum : ℕ)
  let block := blockPtr + (sizeofPtr * blockNum : ℕ)
  let rawdata := block + (sizeofBlkinfo * blockNum : ℕ)
  ⟨dataPtr, blockPtr, block, rawdata⟩

/-- The pointers that `em_memmng_create` computes in the buffer. -/
structure MemmngPlaces where
  mpUsed : MpoolPlaces
  mpFree : MpoolPlaces
  minfoPtr : ℤ
  memory : ℤ
  deriving DecidableEq, Repr

def emMemmngCreatePlaces (memBlockNum allocMaxNum : ℕ) (memory : ℤ) :
    MemmngPlaces :=
  let sizeMp := emMpoolCalcMemsize sizeofMeminfo allocMaxNum
  let memMpUsed := memory
  let memMpFree := memMpUsed + sizeMp
  let minfoPtr := memMpFree + sizeMp
  { mpUsed := emMpoolCreateWithMem2Places allocMaxNum memMpUsed
    mpFree := emMpoolCreateWithMem2Places allocMaxNum memMpFree
    minfoPtr
    memory := minfoPtr + (sizeofPtr * memBlockNum : ℕ) }

/-- What the four arrays of a pool take at their places. -/
def MpoolPlaces.areas (places : MpoolPlaces) (blockSize blockNum : ℕ) :
    List Area :=
  [⟨places.dataPtr, sizeofPtr * blockNum⟩,
    ⟨places.blockPtr, sizeofPtr * blockNum⟩,
    ⟨places.block, sizeofBlkinfo * blockNum⟩,
    ⟨places.rawdata, blockSize * blockNum⟩]

/-- What everything in the buffer takes at its place. -/
def MemmngPlaces.areas (places : MemmngPlaces)
    (memUnitSize memBlockNum allocMaxNum : ℕ) : List Area :=
  places.mpUsed.areas sizeofMeminfo allocMaxNum ++
    places.mpFree.areas sizeofMeminfo allocMaxNum ++
    [⟨places.minfoPtr, sizeofPtr * memBlockNum⟩,
      ⟨places.memory, memUnitSize * memBlockNum⟩]

/-- The function computes what the macro says. -/
theorem emMpoolCalcMemsize_eq {blockSize blockNum : ℕ}
    (fits : emMempoolCalcMemsize blockSize blockNum ≤ intMax) :
    emMpoolCalcMemsize blockSize blockNum =
      emMempoolCalcMemsize blockSize blockNum := by
  unfold emMpoolCalcMemsize
  unfold emMempoolCalcMemsize at fits ⊢
  unfold sizeofPtr sizeofBlkinfo intMax at *
  unfold toInt32 uint32
  dsimp only
  generalize blockSize * blockNum = rawdata at fits ⊢
  omega

/-- The sizes of the four arrays in the order of their places. -/
def mpoolSizes (blockSize blockNum : ℕ) : List ℕ :=
  [sizeofPtr * blockNum, sizeofPtr * blockNum, sizeofBlkinfo * blockNum,
    blockSize * blockNum]

theorem mpoolSizes_sum (blockSize blockNum : ℕ) :
    (mpoolSizes blockSize blockNum).sum =
      emMempoolCalcMemsize blockSize blockNum := by
  unfold mpoolSizes emMempoolCalcMemsize
  simp only [List.sum_cons, List.sum_nil]
  omega

theorem mpool_areas_consecutive (blockSize blockNum : ℕ) (memory : ℤ) :
    (emMpoolCreateWithMem2Places blockNum memory).areas blockSize blockNum =
      Area.consecutive memory (mpoolSizes blockSize blockNum) := rfl

/-- The sizes of everything in the buffer in the order of the places. -/
def memmngSizes (memUnitSize memBlockNum allocMaxNum : ℕ) : List ℕ :=
  mpoolSizes sizeofMeminfo allocMaxNum ++
    (mpoolSizes sizeofMeminfo allocMaxNum ++
      [sizeofPtr * memBlockNum, memUnitSize * memBlockNum])

theorem memmngSizes_sum (memUnitSize memBlockNum allocMaxNum : ℕ) :
    (memmngSizes memUnitSize memBlockNum allocMaxNum).sum =
      emMemmngCalcMemsize memUnitSize memBlockNum allocMaxNum := by
  unfold memmngSizes emMemmngCalcMemsize
  rw [List.sum_append, List.sum_append, mpoolSizes_sum]
  simp only [List.sum_cons, List.sum_nil]
  omega

variable {unit blocks allocMax : ℕ} {memory : ℤ}

/-- Nothing lies between the areas. -/
theorem areas_consecutive
    (fits : emMempoolCalcMemsize sizeofMeminfo allocMax ≤ intMax) :
    (emMemmngCreatePlaces blocks allocMax memory).areas unit blocks allocMax =
      Area.consecutive memory (memmngSizes unit blocks allocMax) := by
  unfold memmngSizes emMemmngCreatePlaces MemmngPlaces.areas
  dsimp only
  rw [Area.consecutive_append, Area.consecutive_append, mpoolSizes_sum,
    emMpoolCalcMemsize_eq fits, mpool_areas_consecutive,
    mpool_areas_consecutive, List.append_assoc]
  rfl

/-! ## The manager that is built there -/

theorem emMpoolCreateWithMem2_filled (mp : EmMpool) {blockSize blockNum : ℕ}
    (memory : ℤ) (positive : 0 < blockSize) (nonempty : 0 < blockNum) :
    (emMpoolCreateWithMem2 mp blockSize blockNum (some memory)).2.Filled
      ⟨blockNum, blockSize,
        (emMpoolCreateWithMem2Places blockNum memory).rawdata⟩ blockNum := by
  have accepts : ¬(blockSize = 0 ∨ blockNum = 0) :=
    not_or.mpr ⟨positive.ne', nonempty.ne'⟩
  simp only [emMpoolCreateWithMem2, accepts, ↓reduceIte]
  exact emMpoolCreateWithMem_filled _ _ _ _ _ _ _

theorem emMpoolAllocBlockNoWait_block {mp : EmMpool} :
    (emMpoolAllocBlockNoWait mp).2.block = mp.block := by
  unfold emMpoolAllocBlockNoWait emMpoolAllocBlock
  cases emSemWait mp.sem emNoWait with
  | none => rfl
  | some taken =>
      dsimp only
      split
      · rfl
      · unfold emMpoolAllocBlockmng
        split
        · rfl
        · rename_i found
          split at found
          · cases found
          · cases found
            rfl

/-- Taking the first record leaves the array of the blocks. -/
theorem emMemmngCreate_mpFree_block (mm : EmMemmng)
    (unit blocks allocMax : ℕ) (origin : Option ℤ)
    (regions : EmMemmngRegions) :
    (emMemmngCreate mm unit blocks allocMax origin regions).mpFree.block =
      (emMemmngPools (mm.opened unit blocks) allocMax origin
        regions).mpFree.block := by
  unfold emMemmngCreate
  dsimp only
  split
  · rename_i taken
    have kept := congrArg (fun called => called.2.block) taken
    exact kept.symm.trans emMpoolAllocBlockNoWait_block
  · rename_i taken
    have kept := congrArg (fun called => called.2.block) taken
    exact kept.symm.trans emMpoolAllocBlockNoWait_block

/-- A record of a pool in the buffer. -/
theorem record_inside {mp : EmMpool} {rawdata : ℤ}
    (filled : mp.Filled ⟨allocMax, sizeofMeminfo, rawdata⟩ allocMax)
    (fits : emMempoolCalcMemsize sizeofMeminfo allocMax ≤ intMax) {k : ℕ}
    (bound : k < allocMax) :
    Area.Inside ⟨(mp.block k).dataPtr, sizeofMeminfo⟩
      ⟨rawdata, sizeofMeminfo * allocMax⟩ := by
  have small : sizeofMeminfo * k < 4294967296 := by
    unfold emMempoolCalcMemsize intMax at fits
    unfold sizeofMeminfo at fits ⊢
    omega
  have address := (filled.filled k bound).2.1
  rw [address]
  unfold PoolParams.address
  dsimp only
  rw [uint32_of_lt small]
  exact Area.entry_inside bound

/-- The layout of a buffer of the size of `EM_MEMMNG_CALC_MEMSIZE`. -/
structure LayoutFits (mm : EmMemmng) (places : MemmngPlaces)
    (unit blocks allocMax : ℕ) (memory : ℤ) : Prop where
  apart : (places.areas unit blocks allocMax).Pairwise Area.Apart
  inside : ∀ area, area ∈ places.areas unit blocks allocMax →
    area.Inside ⟨memory, emMemmngCalcMemsize unit blocks allocMax⟩
  usedRecords : ∀ k, k < allocMax →
    Area.Inside ⟨(mm.mpUsed.block k).dataPtr, sizeofMeminfo⟩
      ⟨places.mpUsed.rawdata, sizeofMeminfo * allocMax⟩
  freeRecords : ∀ k, k < allocMax →
    Area.Inside ⟨(mm.mpFree.block k).dataPtr, sizeofMeminfo⟩
      ⟨places.mpFree.rawdata, sizeofMeminfo * allocMax⟩
  units : ∀ index : ℕ, index < blocks →
    Area.Inside ⟨mm.unitAddress index, unit⟩
      ⟨places.memory, unit * blocks⟩

/-- A buffer of the size that the macro gives holds everything, and the
function gives the same sizes as the macro. -/
theorem static_layout_fits (mm : EmMemmng) (unit blocks allocMax : ℕ)
    (memory : ℤ) (regions : EmMemmngRegions) (nonempty : 1 ≤ allocMax)
    (fits : emMemmngCalcMemsize unit blocks allocMax ≤ intMax) :
    LayoutFits
        (emMemmngCreate mm unit blocks allocMax (some memory) regions)
        (emMemmngCreatePlaces blocks allocMax memory) unit blocks allocMax
        memory ∧
      ∀ blockSize blockNum,
        emMempoolCalcMemsize blockSize blockNum ≤ intMax →
          emMpoolCalcMemsize blockSize blockNum =
            emMempoolCalcMemsize blockSize blockNum := by
  have poolFits : emMempoolCalcMemsize sizeofMeminfo allocMax ≤ intMax := by
    unfold emMemmngCalcMemsize at fits
    omega
  have consecutive :=
    @areas_consecutive unit blocks allocMax memory poolFits
  have positive : 0 < sizeofMeminfo := Nat.zero_lt_succ 31
  refine ⟨⟨?_, ?_, ?_, ?_, ?_⟩, fun _ _ => emMpoolCalcMemsize_eq⟩
  · rw [consecutive]
    exact Area.consecutive_apart _ _
  · intro area member
    rw [consecutive] at member
    rw [← memmngSizes_sum]
    exact Area.consecutive_inside member
  · intro k bound
    rw [EmMemmng.emMemmngCreate_mpUsed]
    exact record_inside
      (emMpoolCreateWithMem2_filled _ _ positive nonempty) poolFits bound
  · intro k bound
    rw [emMemmngCreate_mpFree_block]
    exact record_inside
      (emMpoolCreateWithMem2_filled _ _ positive nonempty) poolFits bound
  · intro index bound
    have isEntry := @Area.entry_inside
      (emMemmngCreatePlaces blocks allocMax memory).memory unit _ _ bound
    unfold Area.entry at isEntry
    rw [Nat.cast_mul] at isEntry
    rw [EmMemmng.Geometry.of_create.unitAddress_eq,
      EmMemmng.emMemmngCreate_memory]
    exact isEntry

/-- Sixteen units of 16 bytes with four records, in 896 bytes at 1000. -/
theorem static_layout_fits_four :
    LayoutFits (emMemmngCreate default 16 16 4 (some 1000) default)
      ⟨⟨1000, 1032, 1064, 1128⟩, ⟨1256, 1288, 1320, 1384⟩, 1512, 1640⟩
      16 16 4 1000 :=
  (static_layout_fits default 16 16 4 1000 default (by decide)
    (by decide)).1

end EmbeddedMiddle
