import EmbeddedMiddle.Mempool

/-!
# The block allocator

`em_malloc.c`.  An arena of units is described by records that are chained in
address order between two sentinels; the records of allocated ranges live in
the pool `mp_used`, those of free ranges in `mp_free`.
-/

namespace EmbeddedMiddle

open Foundation

/-- A pointer to a record: a block of one of the two pools by its address, one
of the sentinels inside the manager, or NULL. -/
inductive MeminfoPtr where
  | null
  | first
  | last
  | used (address : ℤ)
  | free (address : ℤ)
  deriving DecidableEq, Inhabited, Repr

structure EmMeminfo where
  memIndex : ℤ
  memLength : ℤ
  isUsed : Bool
  nextMeminfo : MeminfoPtr
  backMeminfo : MeminfoPtr
  deriving DecidableEq, Inhabited, Repr

/-- The pointers of an `em_memmng_t` to its own regions, with `is_malloc`. -/
structure ArenaRegions where
  isMalloc : Bool
  minfoPtr : Option ℕ
  memory : Option ℕ
  deriving DecidableEq, Inhabited

/-- `record` is the memory of all records: `first_meminfo`, `last_meminfo` and
the raw data of both pools.  Indices, lengths and the usage counter are an `int`
in the source and have no bound here: where a result depends on their values
they stay within the arena. -/
structure EmMemmng where
  memTotalSize : ℕ
  memUnitSize : ℕ
  memUnitBshift : ℕ
  isBshiftable : Bool
  memTotalBnum : ℕ
  memUsedBsize : ℤ
  mpUsed : EmMpool
  mpFree : EmMpool
  memory : ℤ
  minfoPtr : ℤ → MeminfoPtr
  record : MeminfoPtr → EmMeminfo
  regions : ArenaRegions
  deriving Inhabited

/-- `sizeof(em_meminfo_t)` where pointers have 8 bytes. -/
def sizeofMeminfo : ℕ := 32

/-- Assign to fields of the record behind a pointer. -/
def EmMemmng.assign (mm : EmMemmng) (target : MeminfoPtr)
    (change : EmMeminfo → EmMeminfo) : EmMemmng :=
  { mm with
    record := Function.update mm.record target (change (mm.record target)) }

namespace EmMemmng

variable {mm : EmMemmng} {target ptr : MeminfoPtr}
  {change : EmMeminfo → EmMeminfo}

@[simp] theorem assign_record_self :
    (mm.assign target change).record target = change (mm.record target) :=
  Function.update_self ..

@[simp] theorem assign_record_of_ne (different : ptr ≠ target) :
    (mm.assign target change).record ptr = mm.record ptr :=
  Function.update_of_ne different ..

@[simp] theorem assign_assign {again : EmMeminfo → EmMeminfo} :
    (mm.assign target change).assign target again =
      mm.assign target (fun old => again (change old)) := by
  simp only [assign, Function.update_self, Function.update_idem]

@[simp] theorem assign_mpFree :
    (mm.assign target change).mpFree = mm.mpFree := rfl

@[simp] theorem assign_minfoPtr :
    (mm.assign target change).minfoPtr = mm.minfoPtr := rfl

@[simp] theorem assign_memTotalBnum :
    (mm.assign target change).memTotalBnum = mm.memTotalBnum := rfl

end EmMemmng

/-- `em_mpool_alloc_block` with `EM_NO_WAIT`, which always returns. -/
def emMpoolAllocBlockNoWait (mp : EmMpool) : Option ℤ × EmMpool :=
  (emMpoolAllocBlock mp emNoWait).getD (none, mp)

/-- `em_mpool_free_block` on a record: a pointer that is no block of a pool is
rejected like every address outside its raw data. -/
def emMpoolFreeRecord (mp : EmMpool) : MeminfoPtr → EmMpool
  | .used address => (emMpoolFreeBlock mp address).2
  | .free address => (emMpoolFreeBlock mp address).2
  | _ => mp

/-- The addresses `malloc` returns for the raw data of the two pools and for
the arena. -/
structure EmMemmngRegions where
  rawUsed : ℤ
  rawFree : ℤ
  memory : ℤ
  deriving DecidableEq, Inhabited, Repr

/-- Links the initial free record, which covers the arena, between the
sentinels. -/
def emMemmngLinkInitial (mm : EmMemmng) (initial : MeminfoPtr) : EmMemmng :=
  let mm := mm.assign .first (fun _ => ⟨-1, 0, true, initial, .null⟩)
  let mm := mm.assign .last (fun _ => ⟨-2, 0, true, .null, initial⟩)
  mm.assign initial (fun _ => ⟨0, mm.memTotalBnum, false, .last, .first⟩)

/-- With a buffer of the caller (`some`) the pools, `minfo_ptr` and the arena
are laid out in it; without one they come from `malloc`. -/
def emMemmngPools (mm : EmMemmng) (allocMaxNum : ℕ) (memory : Option ℤ)
    (regions : EmMemmngRegions) : EmMemmng :=
  match memory with
  | some memory =>
      let sizeMp := emMpoolCalcMemsize sizeofMeminfo allocMaxNum
      let memMpUsed := memory
      let memMpFree := memMpUsed + sizeMp
      let minfoPtr := memMpFree + sizeMp
      { mm with
        memory := minfoPtr + (sizeofPtr * mm.memTotalBnum : ℕ)
        mpUsed := (emMpoolCreateWithMem2 mm.mpUsed sizeofMeminfo allocMaxNum
          (some memMpUsed)).2
        mpFree := (emMpoolCreateWithMem2 mm.mpFree sizeofMeminfo allocMaxNum
          (some memMpFree)).2 }
  | none =>
      { mm with
        memory := regions.memory
        mpUsed := (emMpoolCreate mm.mpUsed sizeofMeminfo allocMaxNum
          regions.rawUsed).2
        mpFree := (emMpoolCreate mm.mpFree sizeofMeminfo allocMaxNum
          regions.rawFree).2 }

def emMemmngCreate (mm : EmMemmng) (memUnitSize memBlockNum allocMaxNum : ℕ)
    (memory : Option ℤ) (regions : EmMemmngRegions) : EmMemmng :=
  let isBshiftable :=
    !decide (memUnitSize ≤ 0 ∨ memUnitSize &&& (memUnitSize - 1) ≠ 0)
  let mm : EmMemmng :=
    { mm with
      isBshiftable
      memTotalSize := memUnitSize * memBlockNum
      memUnitSize
      memTotalBnum := memBlockNum
      memUnitBshift := memUnitSize.log2
      memUsedBsize := 0 }
  let mm := emMemmngPools mm allocMaxNum memory regions
  match emMpoolAllocBlockNoWait mm.mpFree with
  | (some address, mpFree) =>
      emMemmngLinkInitial { mm with mpFree } (.free address)
  -- The record is then an uninitialised pointer: no manager is built.
  | (none, mpFree) => { mm with mpFree }

/-- The request in units, rounded up, as an `int`. -/
def emMallocBlength (mm : EmMemmng) (size : ℕ) : ℤ :=
  if mm.isBshiftable then
    let blength := toInt32 (size >>> mm.memUnitBshift : ℕ)
    if size &&& (mm.memUnitSize - 1) ≠ 0 then toInt32 (blength + 1)
    else blength
  else
    let blength := toInt32 (size / mm.memUnitSize : ℕ)
    if size % mm.memUnitSize ≠ 0 then toInt32 (blength + 1) else blength

/-- The loop over the free records, from the last slot of the pool down. -/
def emMallocSearch (mm : EmMemmng) (blength : ℤ) : ℕ → Option ℤ
  | 0 => none
  | i + 1 =>
      let address := (mm.mpFree.block (mm.mpFree.blockPtr i)).dataPtr
      if blength ≤ (mm.record (.free address)).memLength then some address
      else emMallocSearch mm blength i

/-- Carves `blength` units off the free record and gives them to the new one.
When they are all of its units the free record goes back to its pool; its
successor is not told. -/
def emMallocCarve (mm : EmMemmng) (new free : MeminfoPtr) (blength : ℤ) :
    EmMemmng :=
  let back := (mm.record free).backMeminfo
  let mm := mm.assign new (fun old =>
    { old with
      memIndex := (mm.record free).memIndex
      memLength := blength
      backMeminfo := back
      isUsed := true })
  let mm := mm.assign back (fun old => { old with nextMeminfo := new })
  if (mm.record free).memLength = blength then
    let mm := mm.assign new (fun old =>
      { old with nextMeminfo := (mm.record free).nextMeminfo })
    { mm with mpFree := emMpoolFreeRecord mm.mpFree free }
  else
    let mm := mm.assign new (fun old => { old with nextMeminfo := free })
    mm.assign free (fun old =>
      { old with
        memIndex := old.memIndex + blength
        memLength := old.memLength - blength
        backMeminfo := new })

def EmMemmng.unitAddress (mm : EmMemmng) (index : ℤ) : ℤ :=
  if mm.isBshiftable then mm.memory + index <<< mm.memUnitBshift
  else mm.memory + index * mm.memUnitSize

/-- `_em_malloc`: the return value, the pointer stored through `mem`, and the
manager. -/
def emMallocUnlocked (mm : EmMemmng) (size : ℕ) :
    ℤ × Option ℤ × EmMemmng :=
  if size ≤ 0 then (emErrParam, none, mm)
  else
    let blength := emMallocBlength mm size
    match emMallocSearch mm blength mm.mpFree.numUsed with
    | none => (-2, none, mm)
    | some address =>
        let mm := { mm with memUsedBsize := mm.memUsedBsize + blength }
        match emMpoolAllocBlockNoWait mm.mpUsed with
        | (none, mpUsed) => (-1, none, { mm with mpUsed })
        | (some newAddress, mpUsed) =>
            let new := MeminfoPtr.used newAddress
            let mm := emMallocCarve { mm with mpUsed } new (.free address)
              blength
            let index := (mm.record new).memIndex
            let mm := { mm with
              minfoPtr := Function.update mm.minfoPtr index new }
            (emSuccess, some (mm.unitAddress index), mm)

def emMalloc (mm : EmMemmng) (size : ℕ) : Option ℤ × EmMemmng :=
  (emMallocUnlocked mm size).2

def EmMemmng.unitIndex (mm : EmMemmng) (addr : ℤ) : ℤ :=
  if mm.isBshiftable then toInt32 ((addr - mm.memory) >>> mm.memUnitBshift)
  else toInt32 ((addr - mm.memory).tdiv mm.memUnitSize)

/-- The four merge cases of `em_free`. -/
def emFreeMerge (mm : EmMemmng) (del : MeminfoPtr) : EmMemmng :=
  let back := (mm.record del).backMeminfo
  let next := (mm.record del).nextMeminfo
  if (mm.record back).isUsed then
    if (mm.record next).isUsed then
      match emMpoolAllocBlockNoWait mm.mpFree with
      -- Here the source goes on with an uninitialised pointer.
      | (none, mpFree) => { mm with mpFree }
      | (some address, mpFree) =>
          let new := MeminfoPtr.free address
          let mm := { mm with mpFree }
          let mm := mm.assign new (fun _ => mm.record del)
          let mm := mm.assign new (fun old => { old with isUsed := false })
          let mm := mm.assign back (fun old => { old with nextMeminfo := new })
          mm.assign next (fun old => { old with backMeminfo := new })
    else
      let mm := mm.assign next (fun old =>
        { old with
          memIndex := (mm.record del).memIndex
          memLength := old.memLength + (mm.record del).memLength })
      let mm := mm.assign back (fun old => { old with nextMeminfo := next })
      mm.assign next (fun old => { old with backMeminfo := back })
  else
    if (mm.record next).isUsed then
      let mm := mm.assign back (fun old =>
        { old with
          memLength := old.memLength + (mm.record del).memLength
          nextMeminfo := next })
      mm.assign next (fun old => { old with backMeminfo := back })
    else
      let mm := mm.assign back (fun old =>
        { old with memLength := old.memLength + (mm.record del).memLength })
      let mm := mm.assign back (fun old =>
        { old with memLength := old.memLength + (mm.record next).memLength })
      let beyond := (mm.record next).nextMeminfo
      let mm := mm.assign back (fun old => { old with nextMeminfo := beyond })
      let mm := mm.assign beyond (fun old => { old with backMeminfo := back })
      { mm with mpFree := emMpoolFreeRecord mm.mpFree next }

def emFree (mm : EmMemmng) (addr : ℤ) : EmMemmng :=
  let del := mm.minfoPtr (mm.unitIndex addr)
  let mm := emFreeMerge mm del
  let mm := { mm with mpUsed := emMpoolFreeRecord mm.mpUsed del }
  { mm with memUsedBsize := mm.memUsedBsize - (mm.record del).memLength }

end EmbeddedMiddle
