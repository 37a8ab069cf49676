import EmbeddedMiddle.CommonDefs
import EmbeddedMiddle.Foundation.ByteMemory

/-!
# Ring buffers

The ring of blocks of `em_ringbuf.c`, with its counters in the arithmetic of
`uint`.
-/

namespace EmbeddedMiddle

open Foundation

inductive OverrideMode where
  | error
  | update
  | other
  deriving DecidableEq, Inhabited, Repr

/-- A pointer in `block_ptr` is its offset in `rawdata`; both are what the
pointers in `regions` point to. -/
structure EmRing where
  blockSize : ℕ
  overrideMode : OverrideMode
  numMax : ℕ
  numUsed : ℕ
  headPtr : ℕ
  tailPtr : ℕ
  blockPtr : ℕ → ℕ
  rawdata : Bytes
  regions : BlockRegions
  deriving Inhabited

/-- Both regions come from `alloc_func`, with whatever they hold; where they lie
is written down in `BlockRegions.emRingCreate`. -/
def emRingCreate (blockSize blockNum : ℕ) (overrideMode : OverrideMode)
    (rawdata : Bytes) (blockPtr : ℕ → ℕ) : EmRing :=
  let rb : EmRing :=
    { numMax := blockNum
      numUsed := 0
      blockSize
      overrideMode
      rawdata
      blockPtr
      headPtr := 0
      tailPtr := 0
      regions := default }
  (List.range rb.numMax).foldl (fun rb i =>
    { rb with
      blockPtr := Function.update rb.blockPtr i (uint32 (blockSize * i)) }) rb

/-- An index brought back into the ring. -/
def EmRing.wrap (rb : EmRing) (ptr : ℕ) : ℕ :=
  if rb.numMax ≤ ptr then ptr % rb.numMax else ptr

def emRingDeleteTaildata (rb : EmRing) (delNum : ℕ) : ℤ × EmRing :=
  if delNum = 0 ∨ rb.numUsed < delNum then (-1, rb)
  else
    (0, { rb with
      numUsed := rb.numUsed - delNum
      tailPtr := rb.wrap (uint32 (rb.tailPtr + delNum)) })

/-- `none` is NULL. -/
def emRingGetDataptrNew (rb : EmRing) : Option ℕ × EmRing :=
  if rb.numMax ≤ rb.numUsed then
    match rb.overrideMode with
    | .error => (none, rb)
    | .update =>
        let rb := (emRingDeleteTaildata rb 1).2
        (some (rb.blockPtr rb.headPtr), rb)
    -- An invalid mode is only reported.
    | .other => (some (rb.blockPtr rb.headPtr), rb)
  else (some (rb.blockPtr rb.headPtr), rb)

def emRingAddNewdata (rb : EmRing) : ℤ × EmRing :=
  if rb.numMax ≤ rb.numUsed then (-1, rb)
  else
    (0, { rb with
      numUsed := uint32 (rb.numUsed + 1)
      headPtr := rb.wrap (uint32 (rb.headPtr + 1)) })

/-- The index is an `int`, the remainder is taken of its value as `uint`. -/
def emRingGetDataptrHead (rb : EmRing) (offset : ℕ) : Option ℕ :=
  if rb.numUsed < uint32 (offset + 1) then none
  else
    let idx := toInt32 ((rb.headPtr : ℤ) - 1 - offset)
    let idx :=
      if idx < 0 then toInt32 (intToUint32 idx % rb.numMax : ℕ) else idx
    some (rb.blockPtr idx.toNat)

def emRingGetDataptrTail (rb : EmRing) (offset : ℕ) : Option ℕ :=
  if rb.numUsed < uint32 (offset + 1) then none
  else some (rb.blockPtr (rb.wrap (uint32 (rb.tailPtr + offset))))

/-- A whole push, as in `ringbuf_sample.c`: a slot, the value written through
the pointer, the registration. -/
def addBuf (rb : EmRing) (val : Bytes) : ℤ × EmRing :=
  match emRingGetDataptrNew rb with
  | (none, rb) => (-1, rb)
  | (some setbuf, rb) =>
      emRingAddNewdata
        { rb with rawdata := rb.rawdata.copy setbuf val rb.blockSize }

theorem foldl_ring_blockPtr (blockSize : ℕ) (rb : EmRing) (rounds : ℕ) :
    (List.range rounds).foldl (fun rb i =>
        { rb with
          blockPtr := Function.update rb.blockPtr i (uint32 (blockSize * i)) })
      rb =
    { rb with blockPtr := fun slot =>
        if slot < rounds then uint32 (blockSize * slot)
        else rb.blockPtr slot } := by
  rw [← foldl_update (fun slot => uint32 (blockSize * slot))]
  refine List.foldl_hom (fun blockPtr => { rb with blockPtr }) ?_
  intro blockPtr i
  rfl

end EmbeddedMiddle
