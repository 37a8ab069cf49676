import EmbeddedMiddle.Gdatamng
import EmbeddedMiddle.Foundation.LittleEndian

/-!
# Data managers with numeric keys

The functions of `em_idatamng.c`: a data manager whose keys are the eight bytes
of an `ulong`.
-/

namespace EmbeddedMiddle

open Foundation

universe u

variable {Value : Type u}

def sizeofUlong : ℕ := 8

/-- The bytes behind a pointer to an `ulong`. -/
def ulongBytes (id : UInt64) : Bytes := Bytes.ofNat id.toNat

def readUlong (memory : Bytes) : UInt64 :=
  UInt64.ofNat (memory.toNat sizeofUlong)

def emDatamngInvalidId : UInt64 := 0xffffffffffffffff

def emIdatamngCreate (dm : EmDatamng Value) (dataSize dataNum : ℕ)
    (duplicateMode : DuplicateMode) (keymem : Bytes) (rawdata : ℤ) :
    EmDatamng Value :=
  emGdatamngCreate dm dataSize dataNum .integer sizeofUlong duplicateMode
    keymem rawdata

def emIdatamngAddData (dm : EmDatamng Value) (id : UInt64) (data : Value) :
    ℤ × EmDatamng Value :=
  emGdatamngAddData dm (ulongBytes id) data

def emIdatamngGetDataPtr (dm : EmDatamng Value) (id : UInt64) : Option ℤ :=
  emGdatamngGetDataPtr dm (ulongBytes id)

def emIdatamngGetData (dm : EmDatamng Value) (id : UInt64) : Option Value :=
  emGdatamngGetData dm (ulongBytes id)

def emIdatamngRemoveData (dm : EmDatamng Value) (id : UInt64) :
    ℤ × EmDatamng Value :=
  emGdatamngRemoveData dm (ulongBytes id)

def emIdatamngGetId (dm : EmDatamng Bytes) (searchdata : Bytes) : UInt64 :=
  match emGdatamngGetKey dm searchdata with
  | none => emDatamngInvalidId
  | some ret => readUlong (dm.keymem.shift ret)

def emIdatamngGetIdByFunc (dm : EmDatamng Value)
    (comparator : Value → Bool) : UInt64 :=
  match emGdatamngGetKeyByFunc dm comparator with
  | none => emDatamngInvalidId
  | some ret => readUlong (dm.keymem.shift ret)

theorem readUlong_of_read {memory : Bytes} {id : UInt64}
    (same : memory.read 0 sizeofUlong =
      (ulongBytes id).read 0 sizeofUlong) : readUlong memory = id := by
  rw [readUlong, Bytes.toNat_congr same, ulongBytes, Bytes.toNat_ofNat]
  apply UInt64.toNat_inj.mp
  have bound := id.toNat_lt
  simp [sizeofUlong, Nat.mod_eq_of_lt bound]

/-- The number that was read has the bytes that are there. -/
theorem read_ulongBytes_readUlong (memory : Bytes) :
    (ulongBytes (readUlong memory)).read 0 sizeofUlong =
      memory.read 0 sizeofUlong := by
  have bound : memory.toNat sizeofUlong < 256 ^ sizeofUlong :=
    Bytes.toNat_lt sizeofUlong memory
  rw [ulongBytes, readUlong, UInt64.toNat_ofNat_of_lt' bound,
    Bytes.read_ofNat_toNat]

theorem ulongBytes_injective {left right : UInt64}
    (same : (ulongBytes left).read 0 sizeofUlong =
      (ulongBytes right).read 0 sizeofUlong) : left = right := by
  rw [← readUlong_of_read same]
  exact (readUlong_of_read rfl).symm

end EmbeddedMiddle
