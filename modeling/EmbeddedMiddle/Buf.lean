import EmbeddedMiddle.Foundation.ByteMemory
import EmbeddedMiddle.Foundation.MachineInt

/-!
# Byte buffers

The buffers of `em_buf.c`: bytes are appended up to a capacity, in a region
that has one byte more.
-/

namespace EmbeddedMiddle

open Foundation

/-- `data` is NULL after the buffer has been destroyed. -/
structure EmBuf where
  bufCapacity : ℕ
  dataSize : ℕ
  data : Option Bytes
  deriving Inhabited

/-- `memory` is what `alloc_func` gives. -/
def emBufInit (bufCapacity : ℕ) (memory : Bytes) : EmBuf :=
  { bufCapacity
    dataSize := 0
    data := some
      (Function.update (Function.update memory 0 0) bufCapacity 0) }

def emBufClear (bf : EmBuf) : EmBuf :=
  { bf with
    dataSize := 0
    data := bf.data.map (fun data => Function.update data 0 0) }

def emBufDestroy (bf : EmBuf) : EmBuf := { bf with data := none }

/-- The sum is one of `uint`; the length of the copy is converted to
`size_t`. -/
def emBufAppend (bf : EmBuf) (appendData : Bytes) (length : ℤ) : ℤ × EmBuf :=
  match bf.data with
  | none => (-1, bf)
  | some data =>
      let size := uint32 (bf.dataSize + intToUint32 length)
      if bf.bufCapacity < size then (-2, bf)
      else
        (0, { bf with
          data := some
            (data.copy bf.dataSize appendData (intToSize length))
          dataSize := size })

/-! ## Contents -/

namespace EmBuf

/-- The region of a buffer holds `content`, with whatever lies behind. -/
structure Holds (bf : EmBuf) (content : List UInt8) (memory : Bytes) :
    Prop where
  data_eq : bf.data = some (memory.startingWith content)
  dataSize_eq : bf.dataSize = content.length
  fits : content.length ≤ bf.bufCapacity

/-- The region of a new buffer. -/
def clearedRegion (bufCapacity : ℕ) (memory : Bytes) : Bytes :=
  Function.update (Function.update memory 0 0) bufCapacity 0

theorem init_holds (bufCapacity : ℕ) (memory : Bytes) :
    (emBufInit bufCapacity memory).Holds []
      (clearedRegion bufCapacity memory) :=
  ⟨by simp [emBufInit, clearedRegion], rfl, Nat.zero_le _⟩

variable {bf : EmBuf} {content : List UInt8} {memory : Bytes}

/-- An append that the capacity admits. -/
theorem Holds.append (holds : bf.Holds content memory)
    (below : bf.bufCapacity < 4294967296) {length : ℕ}
    (isInt : length ≤ intMax)
    (room : content.length + length ≤ bf.bufCapacity) (source : Bytes) :
    ∃ after, emBufAppend bf source length = (0, after) ∧
      after.Holds (content ++ source.read 0 length) memory ∧
      after.bufCapacity = bf.bufCapacity := by
  have size : uint32 (bf.dataSize + intToUint32 (length : ℤ)) =
      content.length + length := by
    rw [holds.dataSize_eq, intToUint32_natCast isInt]
    exact uint32_of_lt (by omega)
  refine ⟨{ bf with
    data := some (memory.startingWith (content ++ source.read 0 length))
    dataSize := content.length + length }, ?_, ⟨rfl, ?_, ?_⟩, rfl⟩
  · rw [emBufAppend, holds.data_eq]
    simp only [size, if_neg (Nat.not_lt.mpr room)]
    rw [intToSize_natCast isInt, holds.dataSize_eq, Bytes.copy_startingWith]
  · simp
  · simpa using room

/-- A sum that does not wrap is compared as it is. -/
theorem Holds.append_refused (holds : bf.Holds content memory) {length : ℕ}
    (isInt : length ≤ intMax)
    (noWrap : content.length + length < 4294967296)
    (tooLong : bf.bufCapacity < content.length + length) (source : Bytes) :
    emBufAppend bf source length = (-2, bf) := by
  have size : uint32 (bf.dataSize + intToUint32 (length : ℤ)) =
      content.length + length := by
    rw [holds.dataSize_eq, intToUint32_natCast isInt]
    exact uint32_of_lt noWrap
  rw [emBufAppend, holds.data_eq]
  simp only [size, if_pos tooLong]

/-- A sum that wraps makes the size smaller, whatever the capacity. -/
theorem Holds.append_wrapped (holds : bf.Holds content memory)
    (below : bf.bufCapacity < 4294967296) {length : ℕ}
    (isInt : length ≤ intMax)
    (wraps : 4294967296 ≤ content.length + length) (source : Bytes) :
    (emBufAppend bf source length).1 = 0 ∧
      (emBufAppend bf source length).2.dataSize < content.length := by
  have fits := holds.fits
  have size : uint32 (bf.dataSize + intToUint32 (length : ℤ)) =
      content.length + length - 4294967296 := by
    rw [holds.dataSize_eq, intToUint32_natCast isInt, uint32]
    unfold intMax at isInt
    omega
  have accepted : ¬ bf.bufCapacity < content.length + length - 4294967296 := by
    unfold intMax at isInt
    omega
  rw [emBufAppend, holds.data_eq]
  simp only [size, if_neg accepted, true_and]
  unfold intMax at isInt
  omega

end EmBuf

end EmbeddedMiddle
