import EmbeddedMiddle.Mempool
import EmbeddedMiddle.Foundation.CString

/-!
# The data manager

The keyed store of `em_gdatamng.c` over a memory pool.  Values are copied as
whole blocks, so a block of the pool is a `Value`; keys are bytes.
-/

namespace EmbeddedMiddle

open Foundation

universe u

inductive KeyType where
  | integer
  | string
  | other
  deriving DecidableEq, Inhabited, Repr

inductive DuplicateMode where
  | error
  | update
  | countup
  | other
  deriving DecidableEq, Inhabited, Repr

/-- A key pointer is its offset in `keymem`. -/
structure EmKeycnt where
  key : ℕ
  count : ℤ
  deriving DecidableEq, Inhabited, Repr

/-- The pointers of an `em_datamng_t` to its own regions, with its
`free_func`. -/
structure KeyRegions where
  freeFunc : FreeFunc
  keycnt : Option ℕ
  keymem : Option ℕ
  deriving DecidableEq, Inhabited

/-- `data` is the memory behind the data pointers of the pool. -/
structure EmDatamng (Value : Type u) where
  mp : EmMpool
  keycnt : ℕ → EmKeycnt
  keySize : ℕ
  keymem : Bytes
  duplicateMode : DuplicateMode
  keyType : KeyType
  data : ℤ → Value
  regions : KeyRegions
  deriving Inhabited

/-- `_em_gdatamng_keycmp`. -/
def emGdatamngKeycmp (keyType : KeyType) (s1 s2 : Bytes) (n : ℕ) : ℤ :=
  match keyType with
  | .string => Bytes.strncmp n s1 s2
  | _ => Bytes.memcmp n s1 s2

variable {Value : Type u}

/-- One round of the loop that sets up the keys. -/
def emGdatamngInitKey (dm : EmDatamng Value) (i : ℕ) : EmDatamng Value :=
  { dm with
    keycnt := Function.update dm.keycnt i ⟨uint32 (i * dm.keySize), 0⟩ }

/-- The regions come from `alloc_func`, with whatever they hold; the pool gets
its own as in `em_mpool_create`. -/
def emGdatamngCreate (dm : EmDatamng Value) (dataSize dataNum : ℕ)
    (keyType : KeyType) (keySize : ℕ) (duplicateMode : DuplicateMode)
    (keymem : Bytes) (rawdata : ℤ) : EmDatamng Value :=
  let dm : EmDatamng Value :=
    { dm with
      keySize
      keyType
      duplicateMode
      keymem
      mp := (emMpoolCreate dm.mp dataSize dataNum rawdata).2 }
  (List.range dataNum).foldl emGdatamngInitKey dm

/-- The loop over the live blocks: the first slot of `block_ptr` whose block
has the key. -/
def emGdatamngSearch (dm : EmDatamng Value) (key : Bytes) : Option ℕ :=
  (List.range dm.mp.numUsed).find? (fun i =>
    let dataIndex := (toInt32 (dm.mp.block (dm.mp.blockPtr i)).index).toNat
    emGdatamngKeycmp dm.keyType (dm.keymem.shift (dm.keycnt dataIndex).key)
      key dm.keySize = 0)

/-- `_em_gdatamng_get_dataidx`. -/
def emGdatamngGetDataidx (dm : EmDatamng Value) (key : Bytes) : ℤ :=
  match emGdatamngSearch dm key with
  | none => -1
  | some i => toInt32 (dm.mp.block (dm.mp.blockPtr i)).index

/-- `_em_gdatamng_get_blockinfo`: the block, or `none` for -1. -/
def emGdatamngGetBlockinfo (dm : EmDatamng Value) (key : Bytes) : Option ℕ :=
  match emGdatamngSearch dm key with
  | none => none
  | some i => some (dm.mp.blockPtr i)

def emGdatamngAddData (dm : EmDatamng Value) (key : Bytes) (data : Value) :
    ℤ × EmDatamng Value :=
  let existDataidx := emGdatamngGetDataidx dm key
  if existDataidx < 0 then
    match emMpoolAllocBlock dm.mp emNoWait with
    | some (some newDataPtr, mp) =>
        let dataidx := (emMpoolGetDataidx mp newDataPtr).toNat
        let keyPtr := (dm.keycnt dataidx).key
        (0, { dm with
          mp
          data := Function.update dm.data newDataPtr data
          keymem := dm.keymem.copy keyPtr key dm.keySize
          keycnt := Function.update dm.keycnt dataidx ⟨keyPtr, 1⟩ })
    | some (none, mp) => (-1, { dm with mp })
    -- With EM_NO_WAIT the call always returns.
    | none => (-1, dm)
  else
    match dm.duplicateMode with
    | .error => (-1, dm)
    | .update =>
        match emMpoolGetDataptr dm.mp existDataidx.toNat with
        | some dst => (0, { dm with data := Function.update dm.data dst data })
        -- A copy to NULL, which does not return.
        | none => (0, dm)
    | .countup =>
        let keycnt := dm.keycnt existDataidx.toNat
        (0, { dm with
          keycnt := Function.update dm.keycnt existDataidx.toNat
            { keycnt with count := keycnt.count + 1 } })
    | .other => (-1, dm)

def emGdatamngGetDataPtr (dm : EmDatamng Value) (key : Bytes) : Option ℤ :=
  match emGdatamngGetBlockinfo dm key with
  | none => none
  | some blockTmp => some (dm.mp.block blockTmp).dataPtr

def emGdatamngGetData (dm : EmDatamng Value) (key : Bytes) : Option Value :=
  match emGdatamngGetDataPtr dm key with
  | none => none
  | some dataPtr => some (dm.data dataPtr)

/-- `_em_gdatamng_get_data_index_by_func`; the comparator has its second
argument. -/
def emGdatamngGetDataIndexByFunc (dm : EmDatamng Value)
    (comparator : Value → Bool) : ℤ :=
  let found := (List.range dm.mp.numUsed).find? (fun i =>
    let dataIndex := (toInt32 (dm.mp.block (dm.mp.blockPtr i)).index).toNat
    comparator (dm.data (dm.mp.block dataIndex).dataPtr))
  match found with
  | none => -1
  | some i => toInt32 (dm.mp.block (dm.mp.blockPtr i)).index

/-- `none` is NULL. -/
def emGdatamngGetKeyByFunc (dm : EmDatamng Value) (comparator : Value → Bool) :
    Option ℕ :=
  let dataIndex := emGdatamngGetDataIndexByFunc dm comparator
  if 0 ≤ dataIndex then some (dm.keycnt dataIndex.toNat).key else none

/-- What is copied to `data`; `none` is -1. -/
def emGdatamngGetDataByFunc (dm : EmDatamng Value)
    (comparator : Value → Bool) : Option Value :=
  let dataIndex := emGdatamngGetDataIndexByFunc dm comparator
  if 0 ≤ dataIndex then
    some (dm.data (dm.mp.block dataIndex.toNat).dataPtr)
  else none

def emGdatamngGetDataNum (dm : EmDatamng Value) : ℤ :=
  toInt32 dm.mp.numUsed

structure EmKeyval where
  key : ℕ
  val : ℤ
  deriving DecidableEq, Inhabited, Repr

/-- `dst` is what the pointer points to, before and afterwards; `none` is
NULL. -/
def emGdatamngGetKeyvalByIdx (dm : EmDatamng Value) (elemIdx : ℕ)
    (dst : Option EmKeyval) : ℤ × Option EmKeyval :=
  match dst with
  | none => (-1, none)
  | some dst =>
      if dm.mp.numUsed ≤ elemIdx then (-1, some dst)
      else
        let block := dm.mp.block (dm.mp.blockPtr elemIdx)
        let dataIndex := (toInt32 block.index).toNat
        (0, some { key := (dm.keycnt dataIndex).key, val := block.dataPtr })

/-- The blocks are bytes here.  The key is that of the block with the number of
the slot, not that of the block in the slot. -/
def emGdatamngGetKey (dm : EmDatamng Bytes) (searchdata : Bytes) : Option ℕ :=
  let found := (List.range dm.mp.numUsed).find? (fun i =>
    Bytes.memcmp dm.mp.blockSize
      (dm.data (dm.mp.block (dm.mp.blockPtr i)).dataPtr) searchdata = 0)
  match found with
  | none => none
  | some i => some (dm.keycnt i).key

def emGdatamngGetDataCnt (dm : EmDatamng Value) (key : Bytes) : ℤ :=
  match emGdatamngGetBlockinfo dm key with
  | none => -1
  | some blockTmp => (dm.keycnt (dm.mp.block blockTmp).index).count

def emGdatamngRemoveData (dm : EmDatamng Value) (key : Bytes) :
    ℤ × EmDatamng Value :=
  match emGdatamngGetBlockinfo dm key with
  | none => (-1, dm)
  | some blockTmp =>
      let index := (dm.mp.block blockTmp).index
      let keycnt := dm.keycnt index
      let dm := { dm with
        keycnt := Function.update dm.keycnt index
          { keycnt with count := keycnt.count - 1 } }
      if (dm.keycnt index).count ≤ 0 then
        (0, { dm with mp := (emMpoolFreeBlockByDataidx dm.mp index).2 })
      else (0, dm)

end EmbeddedMiddle
