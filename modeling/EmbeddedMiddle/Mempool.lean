import EmbeddedMiddle.CommonDefs
import EmbeddedMiddle.Foundation.SparseSet

/-!
# Memory pools

The fixed-block pools of `em_mempool.c`.  A pointer into the array `block` is
written as its index; addresses are integers.  The contents of the blocks
belong to the users of a pool and are not part of it.
-/

namespace EmbeddedMiddle

open Foundation

structure EmBlkinfo where
  index : ℕ
  indexPtr : ℕ
  dataPtr : ℤ
  deriving DecidableEq, Inhabited, Repr

/-- The pointers of an `em_mpool_t` to its four regions, with `free_func`. -/
structure MpoolRegions where
  freeFunc : FreeFunc
  blockPtr : Option ℕ
  block : Option ℕ
  dataPtr : Option ℕ
  rawdata : Option ℕ
  deriving DecidableEq, Inhabited

/-- The arrays are what the pointers in `regions` point to. -/
structure EmMpool where
  blockSize : ℕ
  numMax : ℕ
  numUsed : ℕ
  blockPtr : ℕ → ℕ
  block : ℕ → EmBlkinfo
  dataPtr : ℕ → ℤ
  rawdata : ℤ
  sem : EmSem
  regions : MpoolRegions
  deriving Inhabited

/-- One round of the loop that fills the three arrays. -/
def emMpoolInitBlock (mp : EmMpool) (i : ℕ) : EmMpool :=
  let address := mp.rawdata + uint32 (mp.blockSize * i)
  { mp with
    blockPtr := Function.update mp.blockPtr i i
    block := Function.update mp.block i
      { index := i, indexPtr := i, dataPtr := address }
    dataPtr := Function.update mp.dataPtr i address }

/-- The arrays are those of the caller, with whatever they hold; where they lie
is written down in `MpoolRegions.emMpoolCreate`.  The result of `em_sem_init` is
not looked at: a refused value leaves the old contents. -/
def emMpoolCreateWithMem (mp : EmMpool) (blockSize blockNum : ℕ)
    (blockPtr : ℕ → ℕ) (block : ℕ → EmBlkinfo) (dataPtr : ℕ → ℤ)
    (rawdata : ℤ) : EmMpool :=
  let mp : EmMpool :=
    { blockSize, numMax := blockNum, numUsed := 0, blockPtr, block, dataPtr,
      rawdata, sem := (emSemInit (toInt32 blockNum)).getD mp.sem,
      regions := mp.regions }
  (List.range mp.numMax).foldl emMpoolInitBlock mp

def emMpoolCreate (mp : EmMpool) (blockSize blockNum : ℕ)
    (rawdata : ℤ) : ℤ × EmMpool :=
  if blockSize = 0 ∨ blockNum = 0 then (-1, mp)
  else (0, emMpoolCreateWithMem mp blockSize blockNum mp.blockPtr mp.block
    mp.dataPtr rawdata)

/-- `sizeof(void *)` and `sizeof(em_blkinfo_t)` where pointers have 8 bytes. -/
def sizeofPtr : ℕ := 8

def sizeofBlkinfo : ℕ := 16

/-- The sizes passed to `alloc_func`. -/
structure MpoolRequests where
  blockPtr : ℕ
  block : ℕ
  dataPtr : ℕ
  rawdata : ℕ
  deriving DecidableEq, Repr

/-- What `em_mpool_create` asks for.  The first three products are computed in
`size_t`, the last one in `uint`. -/
def emMpoolCreateRequests (blockSize blockNum : ℕ) : MpoolRequests where
  blockPtr := sizeofPtr * blockNum
  block := sizeofBlkinfo * blockNum
  dataPtr := sizeofPtr * blockNum
  rawdata := uint32 (blockSize * blockNum)

/-- All four arrays in one buffer; `none` is NULL. -/
def emMpoolCreateWithMem2 (mp : EmMpool) (blockSize blockNum : ℕ)
    (memory : Option ℤ) : ℤ × EmMpool :=
  match memory with
  | none => (-1, mp)
  | some memory =>
      if blockSize = 0 ∨ blockNum = 0 then (-1, mp)
      else
        let dataPtr := memory
        let blockPtr := dataPtr + (sizeofPtr * blockNum : ℕ)
        let block := blockPtr + (sizeofPtr * blockNum : ℕ)
        let rawdata := block + (sizeofBlkinfo * blockNum : ℕ)
        (0, emMpoolCreateWithMem mp blockSize blockNum mp.blockPtr mp.block
          mp.dataPtr rawdata)

def emMpoolCalcMemsize (blockSize blockNum : ℕ) : ℤ :=
  let totalSize := toInt32 (sizeofPtr * blockNum : ℕ)
  let totalSize := toInt32 (totalSize + (sizeofBlkinfo * blockNum : ℕ))
  let totalSize := toInt32 (totalSize + uint32 (blockSize * blockNum))
  toInt32 (totalSize + (sizeofPtr * blockNum : ℕ))

/-- `_em_mpool_alloc_blockmng`: the block taken, or `none` for -1. -/
def emMpoolAllocBlockmng (mp : EmMpool) : Option (ℕ × EmMpool) :=
  if mp.numMax ≤ mp.numUsed then none
  else some (mp.blockPtr mp.numUsed, { mp with numUsed := mp.numUsed + 1 })

/-- The inner `none` is the return value -1; the outer one a call that never
returns. -/
def emMpoolAllocBlock (mp : EmMpool) (timeoutMs : ℤ) :
    Option (Option ℤ × EmMpool) :=
  match emSemWait mp.sem timeoutMs with
  | none => none
  | some (ret, sem) =>
      if ret ≠ 0 then some (none, { mp with sem })
      else
        match emMpoolAllocBlockmng { mp with sem } with
        | none => some (none, { mp with sem })
        | some (blockMng, mp) => some (some (mp.block blockMng).dataPtr, mp)

def emMpoolGetDataidx (mp : EmMpool) (blockData : ℤ) : ℤ :=
  toInt32 ((blockData - mp.rawdata).tdiv mp.blockSize)

def emMpoolGetDataptr (mp : EmMpool) (dataIdx : ℕ) : Option ℤ :=
  if mp.numMax ≤ dataIdx ∨ mp.numUsed ≤ (mp.block dataIdx).indexPtr
  then none else some (mp.block dataIdx).dataPtr

/-- The indices under which `em_mpool_get_dataptr` uses `block`. -/
def emMpoolGetDataptrIndices (mp : EmMpool) (dataIdx : ℕ) : List ℤ :=
  if mp.numMax ≤ dataIdx then [] else [(dataIdx : ℤ)]

/-- `block[k].index_ptr = slot`. -/
def setIndexPtr (block : ℕ → EmBlkinfo) (k slot : ℕ) : ℕ → EmBlkinfo :=
  Function.update block k { block k with indexPtr := slot }

section SetIndexPtr

variable (block : ℕ → EmBlkinfo) (k slot other : ℕ)

@[simp] theorem setIndexPtr_index :
    (setIndexPtr block k slot other).index = (block other).index := by
  by_cases same : other = k <;> simp [setIndexPtr, same]

@[simp] theorem setIndexPtr_dataPtr :
    (setIndexPtr block k slot other).dataPtr = (block other).dataPtr := by
  by_cases same : other = k <;> simp [setIndexPtr, same]

theorem setIndexPtr_indexPtr :
    (setIndexPtr block k slot other).indexPtr =
      Function.update (fun item => (block item).indexPtr) k slot other := by
  by_cases same : other = k <;> simp [setIndexPtr, same]

end SetIndexPtr

/-- The part of `em_mpool_free_block_by_dataidx` under the mutex; `none` is
the rejected index. -/
def emMpoolFreeLocked (mp : EmMpool) (dataIdx : ℕ) : Option EmMpool :=
  if mp.numUsed = 0 ∨ mp.numMax ≤ dataIdx ∨
      mp.numUsed ≤ (mp.block dataIdx).indexPtr then none
  else
    let delSearchIndex := (toInt32 (mp.block dataIdx).indexPtr).toNat
    let numUsed := mp.numUsed - 1
    let swapOffset := (toInt32 (mp.block (mp.blockPtr numUsed)).index).toNat
    let block := setIndexPtr mp.block swapOffset delSearchIndex
    let block := setIndexPtr block dataIdx numUsed
    let blockPtr := Function.update mp.blockPtr delSearchIndex swapOffset
    let dataPtr := Function.update mp.dataPtr delSearchIndex
      (block swapOffset).dataPtr
    let blockPtr := Function.update blockPtr numUsed dataIdx
    let dataPtr := Function.update dataPtr numUsed (block dataIdx).dataPtr
    some { mp with numUsed, blockPtr, block, dataPtr }

def emMpoolFreeBlockByDataidx (mp : EmMpool) (dataIdx : ℕ) : ℤ × EmMpool :=
  match emMpoolFreeLocked mp dataIdx with
  | none => (-1, mp)
  | some mp => (0, { mp with sem := emSemPost mp.sem })

/-- What the arguments of the log line read before anything is tested is listed
in `emMpoolFreeBlockIndices` and `emMpoolFreeBlockLoads`. -/
def emMpoolFreeBlock (mp : EmMpool) (blockData : ℤ) : ℤ × EmMpool :=
  let dataOffset := toInt32 ((blockData - mp.rawdata).tdiv mp.blockSize)
  emMpoolFreeBlockByDataidx mp (intToUint32 dataOffset)

/-- The indices under which `em_mpool_free_block_by_dataidx` uses `block`: the
test of the liveness is reached only by an index below `num_max`. -/
def emMpoolFreeBlockByDataidxIndices (mp : EmMpool) (dataIdx : ℕ) : List ℤ :=
  if mp.numUsed = 0 ∨ mp.numMax ≤ dataIdx then []
  else if mp.numUsed ≤ (mp.block dataIdx).indexPtr then [(dataIdx : ℤ)]
  else [(dataIdx : ℤ),
    toInt32 (mp.block (mp.blockPtr (mp.numUsed - 1))).index]

/-- `em_mpool_free_block` names `block[data_offset]` in its log line, whatever
the log level, before the index is tested. -/
def emMpoolFreeBlockIndices (mp : EmMpool) (blockData : ℤ) : List ℤ :=
  let dataOffset := toInt32 ((blockData - mp.rawdata).tdiv mp.blockSize)
  dataOffset :: emMpoolFreeBlockByDataidxIndices mp (intToUint32 dataOffset)

/-- The bytes of `*(int *)block_data`, the other argument of that line. -/
def emMpoolFreeBlockLoads (blockData : ℤ) : List ℤ :=
  [blockData, blockData + 1, blockData + 2, blockData + 3]

/-! ## Views -/

/-- The loop of the next two functions: one entry of `array` for each block in
use, as far as `array` goes. -/
def emMpoolFillArray {Entry : Type} (mp : EmMpool) (maxSize : ℕ)
    (entry : EmBlkinfo → Entry) (array : ℕ → Entry) : ℕ → Entry :=
  (List.range (min mp.numUsed maxSize)).foldl (fun array i =>
    Function.update array i (entry (mp.block (mp.blockPtr i)))) array

/-- `data_num`, and the array afterwards.  The return value is always 0. -/
def emMpoolGetDataptrArray (mp : EmMpool) (maxSize : ℕ)
    (dataPtrs : ℕ → ℤ) : ℕ × (ℕ → ℤ) :=
  (mp.numUsed, emMpoolFillArray mp maxSize EmBlkinfo.dataPtr dataPtrs)

def emMpoolGetDataptrArray2 (mp : EmMpool) : ℕ → ℤ := mp.dataPtr

def emMpoolGetDataidxArray (mp : EmMpool) (maxSize : ℕ)
    (dataIdxs : ℕ → ℕ) : ℕ × (ℕ → ℕ) :=
  (mp.numUsed, emMpoolFillArray mp maxSize EmBlkinfo.index dataIdxs)

end EmbeddedMiddle
