import EmbeddedMiddle.List
import EmbeddedMiddle.Mtxmng
import EmbeddedMiddle.Queue
import EmbeddedMiddle.Ringbuf
import EmbeddedMiddle.GdatamngRuns
import EmbeddedMiddle.Malloc
import EmbeddedMiddle.Foundation.RegionLifecycle

/-!
# The regions of the containers

What the create functions of the containers request from `alloc_func` and their
destroy functions pass to `free_func`.  In a creation `none` is a write through
NULL, in a destruction the call of a function pointer that is none.
-/

namespace EmbeddedMiddle

open Foundation

/-! ## Pools -/

namespace MpoolRegions

/-- The loop of `em_mpool_create_with_mem` writes all arrays but `rawdata`. -/
def emMpoolCreate (regions : MpoolRegions) (blockSize blockNum : ℕ)
    (allocFunc : AllocFunc) (freeFunc : FreeFunc) (heap : RegionHeap) :
    Option (ℤ × MpoolRegions × RegionHeap) :=
  if blockSize = 0 ∨ blockNum = 0 then some (-1, regions, heap)
  else
    let (blockPtr, heap) := allocFunc.call (sizeofPtr * blockNum) heap
    let (block, heap) := allocFunc.call (sizeofBlkinfo * blockNum) heap
    let (dataPtr, heap) := allocFunc.call (sizeofPtr * blockNum) heap
    let (rawdata, heap) := allocFunc.call (uint32 (blockSize * blockNum)) heap
    if blockPtr = none ∨ block = none ∨ dataPtr = none then none
    else some (0, { freeFunc, blockPtr, block, dataPtr, rawdata }, heap)

def emMpoolDestroy (regions : MpoolRegions) (heap : RegionHeap) :
    Option RegionHeap :=
  if regions.freeFunc = .null then some heap
  else do
    let heap ← regions.freeFunc.call heap regions.blockPtr
    let heap ← regions.freeFunc.call heap regions.block
    let heap ← regions.freeFunc.call heap regions.rawdata
    regions.freeFunc.call heap regions.dataPtr

/-- The pointers, in the order of the requests. -/
def pointers (regions : MpoolRegions) : List (Option ℕ) :=
  [regions.blockPtr, regions.block, regions.dataPtr, regions.rawdata]

end MpoolRegions

/-! ## Queues and ring buffers -/

namespace BlockRegions

/-- `filled` is whether the loop over `block_ptr` has a round. -/
def create (rawSize ptrSize : ℕ) (filled : Bool) (allocFunc : AllocFunc)
    (freeFunc : FreeFunc) (heap : RegionHeap) :
    Option (BlockRegions × RegionHeap) :=
  let (rawdata, heap) := allocFunc.call rawSize heap
  let (blockPtr, heap) := allocFunc.call ptrSize heap
  if filled ∧ blockPtr = none then none
  else some ({ freeFunc, rawdata, blockPtr }, heap)

def emQueueCreate (blockSize blockNum : ℤ) :=
  create (intToSize (blockSize * blockNum)) (intToSize (sizeofPtr * blockNum))
    (0 < blockNum)

def emRingCreate (blockSize blockNum : ℕ) :=
  create (uint32 (blockSize * blockNum)) (sizeofPtr * blockNum) (0 < blockNum)

def destroy (regions : BlockRegions) (heap : RegionHeap) :
    Option RegionHeap := do
  let heap ← regions.freeFunc.call heap regions.blockPtr
  regions.freeFunc.call heap regions.rawdata

def emQueueDestroy := destroy

def emRingDestroy := destroy

def pointers (regions : BlockRegions) : List (Option ℕ) :=
  [regions.rawdata, regions.blockPtr]

end BlockRegions

/-! ## Lists -/

/-- A list has the regions of its pool. -/
def MpoolRegions.emListCreate (regions : MpoolRegions) (numMaxItem : ℤ)
    (allocFunc : AllocFunc) (freeFunc : FreeFunc) (heap : RegionHeap) :
    Option (ℤ × MpoolRegions × RegionHeap) :=
  regions.emMpoolCreate sizeofListitem (intToUint32 numMaxItem) allocFunc
    freeFunc heap

def MpoolRegions.emListDelete (regions : MpoolRegions) (heap : RegionHeap) :
    Option RegionHeap :=
  regions.emMpoolDestroy heap

/-! ## Data managers -/

/-- `sizeof(em_keycnt_t)` where pointers have 8 bytes. -/
def sizeofKeycnt : ℕ := 16

structure DatamngRegions extends KeyRegions where
  mp : MpoolRegions
  deriving DecidableEq

namespace DatamngRegions

/-- The result of `em_mpool_create` is not looked at. -/
def emGdatamngCreate (regions : DatamngRegions)
    (dataSize dataNum keySize : ℕ) (allocFunc : AllocFunc)
    (freeFunc : FreeFunc) (heap : RegionHeap) :
    Option (DatamngRegions × RegionHeap) :=
  let (keycnt, heap) := allocFunc.call (sizeofKeycnt * dataNum) heap
  let (keymem, heap) := allocFunc.call (uint32 (keySize * dataNum)) heap
  match regions.mp.emMpoolCreate dataSize dataNum allocFunc freeFunc heap with
  | none => none
  | some (_, mp, heap) =>
      if 0 < dataNum ∧ keycnt = none then none
      else some ({ freeFunc, keycnt, keymem, mp }, heap)

def emGdatamngDestroy (regions : DatamngRegions) (heap : RegionHeap) :
    Option RegionHeap := do
  let heap ← regions.mp.emMpoolDestroy heap
  let heap ← regions.freeFunc.call heap regions.keycnt
  regions.freeFunc.call heap regions.keymem

end DatamngRegions

/-! ## Mutex managers -/

structure MtxmngRegions extends LockRegions where
  mpMutex : MpoolRegions
  deriving DecidableEq

namespace MtxmngRegions

def emMtxmngInit (regions : MtxmngRegions) (maxMutexNum : ℤ)
    (allocFunc : AllocFunc) (freeFunc : FreeFunc) (heap : RegionHeap) :
    Option (ℤ × MtxmngRegions × RegionHeap) :=
  let (islock, heap) := allocFunc.call (intToSize maxMutexNum) heap
  match regions.mpMutex.emMpoolCreate sizeofMutex (intToUint32 maxMutexNum)
      allocFunc freeFunc heap with
  | none => none
  | some (ret, mpMutex, heap) =>
      some (ret, { freeFunc, islock, mpMutex }, heap)

def emMtxmngDestroy (regions : MtxmngRegions) (heap : RegionHeap) :
    Option RegionHeap := do
  let heap ← regions.freeFunc.call heap regions.islock
  regions.mpMutex.emMpoolDestroy heap

end MtxmngRegions

/-! ## Memory managers -/

structure MemmngRegions extends ArenaRegions where
  mpUsed : MpoolRegions
  mpFree : MpoolRegions
  deriving DecidableEq

namespace MemmngRegions

/-- `em_memmng_create` without a buffer of the caller.  The results of
`em_mpool_create` are not looked at; the initial record is written in the first
block of `mp_free`, and through a pointer that is not initialised where this
pool was not created. -/
def emMemmngCreate (regions : MemmngRegions)
    (memUnitSize memBlockNum allocMaxNum : ℤ) (malloc : AllocFunc)
    (heap : RegionHeap) : Option (MemmngRegions × RegionHeap) :=
  match regions.mpUsed.emMpoolCreate sizeofMeminfo (intToUint32 allocMaxNum)
      malloc .given heap with
  | none => none
  | some (_, mpUsed, heap) =>
      match regions.mpFree.emMpoolCreate sizeofMeminfo
          (intToUint32 allocMaxNum) malloc .given heap with
      | none => none
      | some (ret, mpFree, heap) =>
          let (minfoPtr, heap) :=
            malloc.call (intToSize (sizeofPtr * memBlockNum)) heap
          let (memory, heap) :=
            malloc.call (intToSize (toInt32 (memUnitSize * memBlockNum))) heap
          if ret ≠ 0 ∨ mpFree.rawdata = none then none
          else some (
            { isMalloc := true, mpUsed, mpFree, minfoPtr, memory }, heap)

/-- The pools are not destroyed. -/
def emMemmngDestroy (regions : MemmngRegions) (heap : RegionHeap) :
    Option RegionHeap :=
  if regions.isMalloc then
    some ((heap.free regions.memory).free regions.minfoPtr)
  else some heap

end MemmngRegions

end EmbeddedMiddle
