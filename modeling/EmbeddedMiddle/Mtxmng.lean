import EmbeddedMiddle.Mempool

/-!
# The mutex manager

`em_mtxmng.c`, with the functions of `em_mutex.c` it calls.  A mutex is a block
of a pool and its number is the id; what a call asks of the operating system is
recorded with the pointer it passes.
-/

namespace EmbeddedMiddle

open Foundation

/-- `sizeof(em_mutex_t)` on a 64-bit system. -/
def sizeofMutex : ℕ := 40

/-- The pointer of an `em_mtxmng_t` to its own region, with its `free_func`. -/
structure LockRegions where
  freeFunc : FreeFunc
  islock : Option ℕ
  deriving DecidableEq, Inhabited

structure EmMtxmng where
  islock : ℤ → ℤ
  mpMutex : EmMpool
  regions : LockRegions
  deriving Inhabited

/-- The calls of `pthread_mutex_…`; `none` is NULL. -/
inductive PthreadCall where
  | mutexInit (mutex : Option ℤ)
  | mutexDestroy (mutex : Option ℤ)
  | mutexLock (mutex : Option ℤ)
  | mutexTimedlock (mutex : Option ℤ)
  | mutexUnlock (mutex : Option ℤ)
  deriving DecidableEq, Repr

/-- `answered` is whether the call returns 0. -/
def emMutexLock (mutex : Option ℤ) (timeoutMs : ℤ) (answered : Bool) :
    ℤ × List PthreadCall :=
  match mutex with
  | none => (-1, [])
  | some mutex =>
      if timeoutMs = emNoTimeout then
        (if answered then 0 else -2, [.mutexLock mutex])
      else (if answered then 0 else -1, [.mutexTimedlock mutex])

def emMutexUnlock (mutex : Option ℤ) (answered : Bool) :
    ℤ × List PthreadCall :=
  (if answered then 0 else -1, [.mutexUnlock mutex])

/-- Both regions come from `alloc_func`, with whatever they hold. -/
def emMtxmngInit (mtxm : EmMtxmng) (maxMutexNum : ℤ) (islock : ℤ → ℤ)
    (rawdata : ℤ) : ℤ × EmMtxmng :=
  match emMpoolCreate mtxm.mpMutex sizeofMutex (intToUint32 maxMutexNum)
      rawdata with
  | (ret, mpMutex) => (ret, { mtxm with islock, mpMutex })

/-- The result of `pthread_mutex_init` is not looked at. -/
def emMtxmngCreateMutex (mtxm : EmMtxmng) :
    ℤ × List PthreadCall × EmMtxmng :=
  match emMpoolAllocBlock mtxm.mpMutex emNoWait with
  | some (some mutex, mpMutex) =>
      (emMpoolGetDataidx mpMutex mutex, [.mutexInit mutex],
        { mtxm with mpMutex })
  | some (none, mpMutex) => (-1, [], { mtxm with mpMutex })
  -- With EM_NO_WAIT the call always returns.
  | none => (-1, [], mtxm)

/-- The pointer is not looked at before the mutex is destroyed. -/
def emMtxmngDeleteMutex (mtxm : EmMtxmng) (mutexId : ℤ) :
    ℤ × List PthreadCall × EmMtxmng :=
  let mutex := emMpoolGetDataptr mtxm.mpMutex (intToUint32 mutexId)
  match emMpoolFreeBlockByDataidx mtxm.mpMutex (intToUint32 mutexId) with
  | (ret, mpMutex) => (ret, [.mutexDestroy mutex], { mtxm with mpMutex })

def emMtxmngLock (mtxm : EmMtxmng) (mutexId timeoutMs : ℤ) (answered : Bool) :
    ℤ × List PthreadCall × EmMtxmng :=
  let mutex := emMpoolGetDataptr mtxm.mpMutex (intToUint32 mutexId)
  match emMutexLock mutex timeoutMs answered with
  | (ret, calls) =>
      if ret ≠ 0 then (-1, calls, mtxm)
      else
        (0, calls,
          { mtxm with islock := Function.update mtxm.islock mutexId 1 })

/-- The id is used as it is: `none` is an access outside the array `block`. -/
def emMtxmngUnlock (mtxm : EmMtxmng) (mutexId : ℤ) (answered : Bool) :
    Option (ℤ × List PthreadCall × EmMtxmng) :=
  if mutexId < 0 ∨ mtxm.mpMutex.numMax ≤ mutexId then none
  else
    let mutex := (mtxm.mpMutex.block mutexId.toNat).dataPtr
    match emMutexUnlock mutex answered with
    | (ret, calls) =>
        some (ret, calls,
          { mtxm with islock := Function.update mtxm.islock mutexId 0 })

/-! ## Accesses -/

/-- An index into `mp_mutex.block` or into `islock`. -/
inductive MtxmngAccess where
  | block (index : ℤ)
  | islock (index : ℤ)
  deriving DecidableEq, Repr

def MtxmngAccess.index : MtxmngAccess → ℤ
  | .block index => index
  | .islock index => index

def emMtxmngDeleteMutexAccesses (mtxm : EmMtxmng) (mutexId : ℤ) :
    List MtxmngAccess :=
  let dataIdx := intToUint32 mutexId
  (emMpoolGetDataptrIndices mtxm.mpMutex dataIdx ++
    emMpoolFreeBlockByDataidxIndices mtxm.mpMutex dataIdx).map .block

def emMtxmngLockAccesses (mtxm : EmMtxmng) (mutexId timeoutMs : ℤ)
    (answered : Bool) : List MtxmngAccess :=
  let dataIdx := intToUint32 mutexId
  let mutex := emMpoolGetDataptr mtxm.mpMutex dataIdx
  (emMpoolGetDataptrIndices mtxm.mpMutex dataIdx).map .block ++
    if (emMutexLock mutex timeoutMs answered).1 ≠ 0 then []
    else [.islock mutexId]

/-- No test stands before them. -/
def emMtxmngUnlockAccesses (mutexId : ℤ) : List MtxmngAccess :=
  [.block mutexId, .islock mutexId]

end EmbeddedMiddle
