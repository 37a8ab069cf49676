import EmbeddedMiddle.RegionsKept

/-!
# The lifecycles of the containers

Pools, queues, ring buffers, lists, data managers, mutex managers and memory
managers from their creation through any operations to their destruction.
-/

namespace EmbeddedMiddle

open Foundation

/-! ## Creations -/

/-- A call of a create function with what its memory held before: the
structure of the caller, the new regions, and where they lie.  The arguments
are `uint` or, as integers, `int`; a container whose blocks have a negative
size is that with blocks of size 0, which cannot be used either. -/
inductive Creation (Value : Type) where
  | mpool (memory : EmMpool) (blockSize blockNum : ℕ) (rawdata : ℤ)
  | queue (memory : EmQueue) (blockSize blockNum : ℤ) (blockPtr : ℕ → ℕ)
      (rawdata : Bytes)
  | ring (blockSize blockNum : ℕ) (overrideMode : OverrideMode)
      (rawdata : Bytes) (blockPtr : ℕ → ℕ)
  | list (memory : EmList) (numMaxItem rawdata : ℤ)
  | gdatamng (memory : EmDatamng Value) (dataSize dataNum : ℕ)
      (keyType : KeyType) (keySize : ℕ) (duplicateMode : DuplicateMode)
      (keymem : Bytes) (rawdata : ℤ)
  | mtxmng (memory : EmMtxmng) (maxMutexNum : ℤ) (islock : ℤ → ℤ)
      (rawdata : ℤ)
  | memmng (memory : EmMemmng) (memUnitSize memBlockNum allocMaxNum : ℤ)
      (addresses : EmMemmngRegions)

/-- The object of a creation that returns 0, with its pointers. -/
def whereAccepted {Object Regions : Type} (build : Regions → Object) :
    Option (ℤ × Regions × RegionHeap) → Option (Object × RegionHeap)
  | some (ret, regions, heap) =>
      if ret = 0 then some (build regions, heap) else none
  | none => none

/-- The object of a creation that always returns 0. -/
def whereBuilt {Object Regions : Type} (build : Regions → Object)
    (called : Option (Regions × RegionHeap)) : Option (Object × RegionHeap) :=
  called.map (fun (regions, heap) => (build regions, heap))

/-- The memory manager that is built if `mp_free` gives a block for the initial
record; the pointer to the record is not initialised otherwise. -/
def whereLinked {Object Regions : Type} (mpFree : EmMpool)
    (build : Regions → Object) (called : Option (Regions × RegionHeap)) :
    Option (Object × RegionHeap) :=
  match (emMpoolAllocBlockNoWait mpFree).1 with
  | none => none
  | some _ => whereBuilt build called

section Where

variable {Object Regions : Type} {build : Regions → Object}
  {object : Object} {heap : RegionHeap}

theorem whereAccepted_eq_some
    {called : Option (ℤ × Regions × RegionHeap)}
    (accepted : whereAccepted build called = some (object, heap)) :
    ∃ regions, called = some (0, regions, heap) ∧ object = build regions := by
  unfold whereAccepted at accepted
  split at accepted
  · split_ifs at accepted with zero
    obtain ⟨rfl, rfl⟩ := Prod.mk.inj (Option.some.inj accepted)
    exact ⟨_, by rw [zero], rfl⟩
  · cases accepted

theorem whereBuilt_eq_some {called : Option (Regions × RegionHeap)}
    (built : whereBuilt build called = some (object, heap)) :
    ∃ regions, called = some (regions, heap) ∧ object = build regions := by
  obtain ⟨⟨regions, reached⟩, isCalled, same⟩ :=
    Option.map_eq_some_iff.mp built
  obtain ⟨rfl, rfl⟩ := Prod.mk.inj same
  exact ⟨regions, isCalled, rfl⟩

theorem whereLinked_eq_some {mpFree : EmMpool}
    {called : Option (Regions × RegionHeap)}
    (linked : whereLinked mpFree build called = some (object, heap)) :
    ∃ regions, called = some (regions, heap) ∧ object = build regions := by
  unfold whereLinked at linked
  split at linked
  · cases linked
  · exact whereBuilt_eq_some linked

end Where

namespace Creation

variable {Value : Type}

/-- The memory manager has `malloc` and `free` for the two functions. -/
def lifecycle (allocFunc : AllocFunc) (freeFunc : FreeFunc) :
    Creation Value → Lifecycle
  | mpool memory blockSize blockNum rawdata =>
      { Object := EmMpool
        Regions := MpoolRegions
        regions := EmMpool.regions
        create := fun heap => whereAccepted
          (fun regions =>
            { (emMpoolCreate memory blockSize blockNum rawdata).2 with
              regions })
          (memory.regions.emMpoolCreate blockSize blockNum allocFunc freeFunc
            heap)
        Operation := EmMpool.Operation
        keeps := EmMpool.Operation.regions_eq
        destroy := MpoolRegions.emMpoolDestroy }
  | queue memory blockSize blockNum blockPtr rawdata =>
      { Object := EmQueue
        Regions := BlockRegions
        regions := EmQueue.regions
        create := fun heap => whereBuilt
          (fun regions =>
            { emQueueCreate memory blockSize.toNat blockNum blockPtr rawdata
              with regions })
          (BlockRegions.emQueueCreate blockSize blockNum allocFunc freeFunc
            heap)
        Operation := EmQueue.Operation
        keeps := EmQueue.Operation.regions_eq
        destroy := BlockRegions.emQueueDestroy }
  | ring blockSize blockNum overrideMode rawdata blockPtr =>
      { Object := EmRing
        Regions := BlockRegions
        regions := EmRing.regions
        create := fun heap => whereBuilt
          (fun regions =>
            { emRingCreate blockSize blockNum overrideMode rawdata blockPtr
              with regions })
          (BlockRegions.emRingCreate blockSize blockNum allocFunc freeFunc
            heap)
        Operation := EmRing.Operation
        keeps := EmRing.Operation.regions_eq
        destroy := BlockRegions.emRingDestroy }
  | list memory numMaxItem rawdata =>
      { Object := EmList
        Regions := MpoolRegions
        regions := fun li => li.mp.regions
        create := fun heap => whereAccepted
          (fun regions =>
            let li := (emListCreate memory numMaxItem rawdata).2
            { li with mp := { li.mp with regions } })
          (memory.mp.regions.emListCreate numMaxItem allocFunc freeFunc heap)
        Operation := EmList.Operation
        keeps := EmList.Operation.regions_eq
        destroy := MpoolRegions.emListDelete }
  | gdatamng memory dataSize dataNum keyType keySize duplicateMode keymem
      rawdata =>
      { Object := EmDatamng Value
        Regions := DatamngRegions
        regions := EmDatamng.allRegions
        create := fun heap => whereBuilt
          (emGdatamngCreate memory dataSize dataNum keyType keySize
            duplicateMode keymem rawdata).withRegions
          (memory.allRegions.emGdatamngCreate dataSize dataNum keySize
            allocFunc freeFunc heap)
        Operation := EmDatamng.Operation
        keeps := EmDatamng.Operation.allRegions_eq
        destroy := DatamngRegions.emGdatamngDestroy }
  | mtxmng memory maxMutexNum islock rawdata =>
      { Object := EmMtxmng
        Regions := MtxmngRegions
        regions := EmMtxmng.allRegions
        create := fun heap => whereAccepted
          (emMtxmngInit memory maxMutexNum islock rawdata).2.withRegions
          (memory.allRegions.emMtxmngInit maxMutexNum allocFunc freeFunc heap)
        Operation := EmMtxmng.Operation
        keeps := EmMtxmng.Operation.allRegions_eq
        destroy := MtxmngRegions.emMtxmngDestroy }
  | memmng memory memUnitSize memBlockNum allocMaxNum addresses =>
      { Object := EmMemmng
        Regions := MemmngRegions
        regions := EmMemmng.allRegions
        create := fun heap => whereLinked
          (emMpoolCreate memory.mpFree sizeofMeminfo (intToUint32 allocMaxNum)
            addresses.rawFree).2
          (emMemmngCreate memory memUnitSize.toNat memBlockNum.toNat
            (intToUint32 allocMaxNum) none addresses).withRegions
          (memory.allRegions.emMemmngCreate memUnitSize memBlockNum allocMaxNum
            allocFunc heap)
        Operation := EmMemmng.Operation
        keeps := EmMemmng.Operation.allRegions_eq
        destroy := MemmngRegions.emMemmngDestroy }

/-- Where all regions are given back. -/
def GivenBack (freeFunc : FreeFunc) : Creation Value → Prop
  | gdatamng memory dataSize dataNum _ _ _ _ _ =>
      freeFunc = .given ∧
        (dataSize ≠ 0 ∧ dataNum ≠ 0 ∨ memory.mp.regions.HoldsNothing)
  | memmng _ _ _ _ _ => False
  | _ => freeFunc = .given

variable {creation : Creation Value} {allocFunc : AllocFunc}
  {freeFunc : FreeFunc} {before middle : RegionHeap}
  {object later : (creation.lifecycle allocFunc freeFunc).Object}

theorem returns_iff_of_created
    (created : (creation.lifecycle allocFunc freeFunc).create before =
      some (object, middle)) :
    (creation.lifecycle allocFunc freeFunc).Returns before middle object ↔
      creation.GivenBack freeFunc := by
  cases creation with
  | mpool memory blockSize blockNum rawdata =>
      obtain ⟨regions, called, rfl⟩ := whereAccepted_eq_some created
      exact (MpoolRegions.created_of_accepted called).returned_iff
  | queue memory blockSize blockNum blockPtr rawdata =>
      obtain ⟨regions, called, rfl⟩ := whereBuilt_eq_some created
      exact BlockRegions.returned_iff called
  | ring blockSize blockNum overrideMode rawdata blockPtr =>
      obtain ⟨regions, called, rfl⟩ := whereBuilt_eq_some created
      exact BlockRegions.returned_iff called
  | list memory numMaxItem rawdata =>
      obtain ⟨regions, called, rfl⟩ := whereAccepted_eq_some created
      exact (MpoolRegions.created_of_accepted called).returned_iff
  | gdatamng memory dataSize dataNum keyType keySize duplicateMode keymem
      rawdata =>
      obtain ⟨regions, called, rfl⟩ := whereBuilt_eq_some created
      exact DatamngRegions.returned_iff called
  | mtxmng memory maxMutexNum islock rawdata =>
      obtain ⟨regions, called, rfl⟩ := whereAccepted_eq_some created
      exact MtxmngRegions.returned_iff called
  | memmng memory memUnitSize memBlockNum allocMaxNum addresses =>
      obtain ⟨regions, called, rfl⟩ := whereLinked_eq_some created
      exact iff_of_false (MemmngRegions.not_returned called) id

/-- Whatever was done in between, the destruction of a container gives back
what the heap gave for it in exactly these cases. -/
theorem regions_returned_iff
    (created : (creation.lifecycle allocFunc freeFunc).create before =
      some (object, middle))
    (operations : Relation.ReflTransGen
      (creation.lifecycle allocFunc freeFunc).Operation object later) :
    (creation.lifecycle allocFunc freeFunc).Returns before middle later ↔
      creation.GivenBack freeFunc := by
  rw [Lifecycle.returns_iff _ operations]
  exact returns_iff_of_created created

theorem regions_returned_one_block :
    ∃ (mp later : EmMpool) (middle : RegionHeap),
      ((.mpool default 8 2 1000 : Creation Bytes).lifecycle
        (fun _ _ => true) .given).create ⟨0, []⟩ = some (mp, middle) ∧
      later.numUsed = 1 ∧
      ((.mpool default 8 2 1000 : Creation Bytes).lifecycle
        (fun _ _ => true) .given).Returns ⟨0, []⟩ middle later := by
  let life := (.mpool default 8 2 1000 :
    Creation Bytes).lifecycle (fun _ _ => true) .given
  let mp : EmMpool := { (emMpoolCreate default 8 2 1000).2 with
    regions := ⟨.given, some 0, some 1, some 2, some 3⟩ }
  obtain ⟨middle, created⟩ :
      ∃ middle, life.create ⟨0, []⟩ = some (mp, middle) := ⟨_, rfl⟩
  have taken : life.Operation mp (emMpoolAllocBlockNoWait mp).2 :=
    @EmMpool.Operation.allocBlock mp _ emNoWait (some 1000) rfl
  exact ⟨mp, _, middle, created, rfl,
    (regions_returned_iff created (.single taken)).mpr rfl⟩

/-- Both pools of a memory manager are lost. -/
theorem memmng_regions_lost :
    ¬ ∀ (creation : Creation Bytes) (allocFunc : AllocFunc)
        (before middle : RegionHeap)
        (object later : (creation.lifecycle allocFunc .given).Object),
      (creation.lifecycle allocFunc .given).create before =
        some (object, middle) →
      Relation.ReflTransGen (creation.lifecycle allocFunc .given).Operation
        object later →
      (creation.lifecycle allocFunc .given).Returns before middle later := by
  intro always
  let creation : Creation Bytes :=
    .memmng default 8 4 2 ⟨1000, 2000, 3000⟩
  obtain ⟨object, middle, created⟩ : ∃ object middle,
      (creation.lifecycle (fun _ _ => true) .given).create ⟨0, []⟩ =
        some (object, middle) := ⟨_, _, rfl⟩
  have returned := always creation (fun _ _ => true) _ _ _ _ created .refl
  exact (returns_iff_of_created created).mp returned

end Creation

end EmbeddedMiddle
