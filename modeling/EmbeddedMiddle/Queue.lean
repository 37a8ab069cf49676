import EmbeddedMiddle.CommonDefs
import EmbeddedMiddle.Foundation.ByteMemory
import Mathlib.Logic.Function.Basic

/-!
# Message queues

The ring of blocks of `em_queue.c`.  The functions between lock and unlock of
the mutex are the bodies; semaphores and mutex are taken up with the threads.
-/

namespace EmbeddedMiddle

open Foundation

/-- A pointer in `block_ptr` is its offset in `rawdata`; both are what the
pointers in `regions` point to. -/
structure EmQueue where
  blockSize : ℕ
  numMax : ℕ
  numUsed : ℕ
  headPtr : ℕ
  tailPtr : ℕ
  blockPtr : ℕ → ℕ
  rawdata : Bytes
  semIn : EmSem
  semOut : EmSem
  regions : BlockRegions
  deriving Inhabited

/-- The total size is one that `int` can hold: the products do not overflow.
A negative number of blocks compares with `num_used` as 0 does. -/
def emQueueCreateWithMem (qu : EmQueue) (blockSize : ℕ) (blockNum : ℤ)
    (blockPtr : ℕ → ℕ) (rawdata : Bytes) : EmQueue :=
  let qu : EmQueue :=
    { numMax := blockNum.toNat
      numUsed := 0
      blockSize
      blockPtr
      rawdata
      headPtr := 0
      tailPtr := 0
      semOut := (emSemInit 0).getD qu.semOut
      semIn := (emSemInit blockNum).getD qu.semIn
      regions := qu.regions }
  (List.range qu.numMax).foldl (fun qu i =>
    { qu with blockPtr := Function.update qu.blockPtr i (blockSize * i) }) qu

/-- Both regions come from `alloc_func`, with whatever they hold; where they lie
is written down in `BlockRegions.emQueueCreate`. -/
def emQueueCreate (qu : EmQueue) (blockSize : ℕ) (blockNum : ℤ)
    (blockPtr : ℕ → ℕ) (rawdata : Bytes) : EmQueue :=
  emQueueCreateWithMem qu blockSize blockNum blockPtr rawdata

/-- `none` is NULL. -/
def emEnqueueGetDataptr (qu : EmQueue) : Option ℕ :=
  if qu.numMax ≤ qu.numUsed then none else some (qu.blockPtr qu.headPtr)

/-- An index moved on by one, back to the start at the end of the ring. -/
def EmQueue.wrap (qu : EmQueue) (ptr : ℕ) : ℕ :=
  if qu.numMax ≤ ptr then ptr - qu.numMax else ptr

def emEnqueueIncrement (qu : EmQueue) : ℤ × EmQueue :=
  if qu.numMax ≤ qu.numUsed then (-1, qu)
  else
    (0, { qu with
      numUsed := qu.numUsed + 1
      headPtr := qu.wrap (qu.headPtr + 1) })

/-- The critical section of `em_enqueue`.  A failed increment is only
reported. -/
def emEnqueueBody (qu : EmQueue) (blockData : Bytes) : ℤ × EmQueue :=
  match emEnqueueGetDataptr qu with
  | none => (-1, qu)
  | some tmp =>
      let qu := { qu with
        rawdata := qu.rawdata.copy tmp blockData qu.blockSize }
      (0, (emEnqueueIncrement qu).2)

def emDequeueGetDataptr (qu : EmQueue) : Option ℕ :=
  if qu.numUsed ≤ 0 then none else some (qu.blockPtr qu.tailPtr)

def emDequeueIncrement (qu : EmQueue) : ℤ × EmQueue :=
  if qu.numUsed ≤ 0 then (-1, qu)
  else
    (0, { qu with
      numUsed := qu.numUsed - 1
      tailPtr := qu.wrap (qu.tailPtr + 1) })

/-- The critical section of `em_dequeue`: the bytes copied out, or the code
returned. -/
def emDequeueBody (qu : EmQueue) : Except ℤ (List UInt8) × EmQueue :=
  match emDequeueGetDataptr qu with
  | none => (.error emErrOther, qu)
  | some dataPtr =>
      (.ok (qu.rawdata.read dataPtr qu.blockSize), (emDequeueIncrement qu).2)

/-! ## Whole calls -/

/-- A whole call when no other thread runs; `none` is one that never
returns. -/
def emEnqueue (qu : EmQueue) (blockData : Bytes) (timeoutMs : ℤ) :
    Option (ℤ × EmQueue) :=
  match emSemWait qu.semIn timeoutMs with
  | none => none
  | some (ret, semIn) =>
      let qu := { qu with semIn }
      if ret ≠ 0 then some (-1, qu)
      else
        match emEnqueueBody qu blockData with
        | (ret, qu) =>
            if ret ≠ 0 then
              some (-1, { qu with semIn := emSemPost qu.semIn })
            else some (0, { qu with semOut := emSemPost qu.semOut })

def emDequeue (qu : EmQueue) (timeoutMs : ℤ) :
    Option (Except ℤ (List UInt8) × EmQueue) :=
  match emSemWait qu.semOut timeoutMs with
  | none => none
  | some (ret, semOut) =>
      let qu := { qu with semOut }
      if ret ≠ 0 then some (.error emErrTimeout, qu)
      else
        match emDequeueBody qu with
        | (.error code, qu) =>
            some (.error code, { qu with semOut := emSemPost qu.semOut })
        | (.ok data, qu) =>
            some (.ok data, { qu with semIn := emSemPost qu.semIn })

/-- `locked` is whether the mutex could be taken without waiting. -/
def emQueueGetnum (qu : EmQueue) (locked : Bool) : ℤ :=
  if locked then qu.numUsed else -1

/-! ## Creation -/

theorem foldl_blockPtr (blockSize : ℕ) (qu : EmQueue) (rounds : ℕ) :
    (List.range rounds).foldl (fun qu i =>
        { qu with blockPtr := Function.update qu.blockPtr i (blockSize * i) })
      qu =
    { qu with blockPtr := fun slot =>
        if slot < rounds then blockSize * slot else qu.blockPtr slot } := by
  rw [← foldl_update]
  refine List.foldl_hom (fun blockPtr => { qu with blockPtr }) ?_
  intro blockPtr i
  rfl

theorem emQueueCreateWithMem_counters (memory : EmQueue)
    (blockSize blockNum : ℕ) (blockPtr : ℕ → ℕ) (rawdata : Bytes)
    (accepted : blockNum ≤ semValueMax) :
    (emQueueCreateWithMem memory blockSize blockNum blockPtr
        rawdata).numMax = blockNum ∧
      (emQueueCreateWithMem memory blockSize blockNum blockPtr
        rawdata).semIn = ⟨blockNum⟩ ∧
      (emQueueCreateWithMem memory blockSize blockNum blockPtr
        rawdata).semOut = ⟨0⟩ ∧
      (emQueueCreateWithMem memory blockSize blockNum blockPtr
        rawdata).numUsed = 0 := by
  have initial := emSemInit_natCast accepted
  simp only [emQueueCreateWithMem, foldl_blockPtr, initial,
    Option.getD_some, Int.toNat_natCast, true_and, and_true]
  rfl

/-! ## What the increments do to the counters -/

theorem emEnqueueIncrement_success {qu after : EmQueue}
    (called : emEnqueueIncrement qu = (0, after)) :
    after.numUsed = qu.numUsed + 1 ∧ after.numMax = qu.numMax ∧
      after.semIn = qu.semIn ∧ after.semOut = qu.semOut := by
  unfold emEnqueueIncrement at called
  split_ifs at called with full
  · cases (Prod.mk.inj called).1
  · obtain ⟨_, rfl⟩ := Prod.mk.inj called
    exact ⟨rfl, rfl, rfl, rfl⟩

theorem emEnqueueIncrement_room {qu after : EmQueue} {ret : ℤ}
    (room : qu.numUsed < qu.numMax)
    (called : emEnqueueIncrement qu = (ret, after)) : ret = 0 := by
  rw [emEnqueueIncrement, if_neg (Nat.not_le.mpr room)] at called
  exact (Prod.mk.inj called).1.symm

theorem emDequeueIncrement_nonempty {qu after : EmQueue} {ret : ℤ}
    (nonempty : 0 < qu.numUsed)
    (called : emDequeueIncrement qu = (ret, after)) :
    after.numUsed + 1 = qu.numUsed ∧ after.numMax = qu.numMax ∧
      after.semIn = qu.semIn ∧ after.semOut = qu.semOut := by
  rw [emDequeueIncrement, if_neg (Nat.not_le.mpr nonempty)] at called
  obtain ⟨_, rfl⟩ := Prod.mk.inj called
  exact ⟨Nat.sub_add_cancel nonempty, rfl, rfl, rfl⟩

end EmbeddedMiddle
