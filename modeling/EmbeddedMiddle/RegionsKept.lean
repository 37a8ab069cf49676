import EmbeddedMiddle.RegionsReturned

/-!
# Operations keep the regions

The pointers of the containers to their regions are assigned when a container is
created.  Here are the other functions, which leave them as they are.
-/

namespace EmbeddedMiddle

open Foundation

/-! ## Pools -/

section Pools

variable {mp after : EmMpool}

theorem emMpoolAllocBlockmng_regions {blockMng : ℕ}
    (taken : emMpoolAllocBlockmng mp = some (blockMng, after)) :
    after.regions = mp.regions := by
  unfold emMpoolAllocBlockmng at taken
  split_ifs at taken
  obtain ⟨-, rfl⟩ := Prod.mk.inj (Option.some.inj taken)
  rfl

theorem emMpoolAllocBlock_regions {timeoutMs : ℤ} {result : Option ℤ}
    (called : emMpoolAllocBlock mp timeoutMs = some (result, after)) :
    after.regions = mp.regions := by
  unfold emMpoolAllocBlock at called
  split at called
  · cases called
  · next ret sem _ =>
      split_ifs at called
      · cases called
        rfl
      · cases taken : emMpoolAllocBlockmng { mp with sem } with
        | none =>
            rw [taken] at called
            cases called
            rfl
        | some block =>
            rw [taken] at called
            cases called
            exact @emMpoolAllocBlockmng_regions { mp with sem } _ _ taken

@[simp] theorem emMpoolAllocBlockNoWait_regions :
    (emMpoolAllocBlockNoWait mp).2.regions = mp.regions := by
  unfold emMpoolAllocBlockNoWait
  cases called : emMpoolAllocBlock mp emNoWait with
  | none => rfl
  | some result => exact emMpoolAllocBlock_regions called

@[simp] theorem emMpoolFreeBlockByDataidx_regions (dataIdx : ℕ) :
    (emMpoolFreeBlockByDataidx mp dataIdx).2.regions = mp.regions := by
  unfold emMpoolFreeBlockByDataidx emMpoolFreeLocked
  split_ifs
  · rfl
  · rfl

@[simp] theorem emMpoolFreeBlock_regions (blockData : ℤ) :
    (emMpoolFreeBlock mp blockData).2.regions = mp.regions :=
  emMpoolFreeBlockByDataidx_regions _

@[simp] theorem emMpoolFreeRecord_regions (ptr : MeminfoPtr) :
    (emMpoolFreeRecord mp ptr).regions = mp.regions := by
  cases ptr with
  | used address => exact emMpoolFreeBlock_regions address
  | free address => exact emMpoolFreeBlock_regions address
  | _ => rfl

end Pools

inductive EmMpool.Operation : EmMpool → EmMpool → Prop where
  | allocBlock {mp after timeoutMs result} :
      emMpoolAllocBlock mp timeoutMs = some (result, after) →
      Operation mp after
  | freeBlockByDataidx {mp after dataIdx ret} :
      emMpoolFreeBlockByDataidx mp dataIdx = (ret, after) →
      Operation mp after
  | freeBlock {mp after blockData ret} :
      emMpoolFreeBlock mp blockData = (ret, after) → Operation mp after

theorem EmMpool.Operation.regions_eq {mp after : EmMpool}
    (operation : mp.Operation after) : after.regions = mp.regions := by
  cases operation with
  | allocBlock called => exact emMpoolAllocBlock_regions called
  | freeBlockByDataidx called =>
      obtain rfl := congrArg Prod.snd called
      exact emMpoolFreeBlockByDataidx_regions _
  | freeBlock called =>
      obtain rfl := congrArg Prod.snd called
      exact emMpoolFreeBlock_regions _

/-! ## Queues and ring buffers -/

section Queues

variable {qu after : EmQueue}

theorem emEnqueueIncrement_regions :
    (emEnqueueIncrement qu).2.regions = qu.regions := by
  unfold emEnqueueIncrement
  split_ifs
  · rfl
  · rfl

theorem emDequeueIncrement_regions :
    (emDequeueIncrement qu).2.regions = qu.regions := by
  unfold emDequeueIncrement
  split_ifs
  · rfl
  · rfl

theorem emEnqueueBody_regions (blockData : Bytes) :
    (emEnqueueBody qu blockData).2.regions = qu.regions := by
  unfold emEnqueueBody
  split
  · rfl
  · exact emEnqueueIncrement_regions

theorem emDequeueBody_regions :
    (emDequeueBody qu).2.regions = qu.regions := by
  unfold emDequeueBody
  split
  · rfl
  · exact emDequeueIncrement_regions

theorem emEnqueue_regions {blockData : Bytes} {timeoutMs ret : ℤ}
    (called : emEnqueue qu blockData timeoutMs = some (ret, after)) :
    after.regions = qu.regions := by
  unfold emEnqueue at called
  split at called
  · cases called
  · next semIn _ =>
      have kept := @emEnqueueBody_regions { qu with semIn } blockData
      simp only at called
      split_ifs at called
      · cases called
        rfl
      · cases called
        exact kept
      · cases called
        exact kept

theorem emDequeue_regions {timeoutMs : ℤ} {result : Except ℤ (List UInt8)}
    (called : emDequeue qu timeoutMs = some (result, after)) :
    after.regions = qu.regions := by
  unfold emDequeue at called
  split at called
  · cases called
  · next semOut _ =>
      have kept := @emDequeueBody_regions { qu with semOut }
      simp only at called
      split_ifs at called
      · cases called
        rfl
      · split at called
        · next body =>
            rw [body] at kept
            cases called
            exact kept
        · next body =>
            rw [body] at kept
            cases called
            exact kept

end Queues

inductive EmQueue.Operation : EmQueue → EmQueue → Prop where
  | enqueue {qu after blockData timeoutMs ret} :
      emEnqueue qu blockData timeoutMs = some (ret, after) →
      Operation qu after
  | dequeue {qu after timeoutMs result} :
      emDequeue qu timeoutMs = some (result, after) → Operation qu after

theorem EmQueue.Operation.regions_eq {qu after : EmQueue}
    (operation : qu.Operation after) : after.regions = qu.regions := by
  cases operation with
  | enqueue called => exact emEnqueue_regions called
  | dequeue called => exact emDequeue_regions called

section Rings

variable {rb : EmRing}

theorem emRingDeleteTaildata_regions (delNum : ℕ) :
    (emRingDeleteTaildata rb delNum).2.regions = rb.regions := by
  unfold emRingDeleteTaildata
  split_ifs
  · rfl
  · rfl

theorem emRingAddNewdata_regions :
    (emRingAddNewdata rb).2.regions = rb.regions := by
  unfold emRingAddNewdata
  split_ifs
  · rfl
  · rfl

theorem emRingGetDataptrNew_regions :
    (emRingGetDataptrNew rb).2.regions = rb.regions := by
  unfold emRingGetDataptrNew
  split_ifs
  · split
    · rfl
    · exact emRingDeleteTaildata_regions 1
    · rfl
  · rfl

end Rings

/-- Callers write through the pointers they are given. -/
inductive EmRing.Operation : EmRing → EmRing → Prop where
  | getDataptrNew {rb after ptr} :
      emRingGetDataptrNew rb = (ptr, after) → Operation rb after
  | write {rb : EmRing} {ptr val length} :
      Operation rb { rb with rawdata := rb.rawdata.copy ptr val length }
  | addNewdata {rb after ret} :
      emRingAddNewdata rb = (ret, after) → Operation rb after
  | deleteTaildata {rb after delNum ret} :
      emRingDeleteTaildata rb delNum = (ret, after) → Operation rb after

theorem EmRing.Operation.regions_eq {rb after : EmRing}
    (operation : rb.Operation after) : after.regions = rb.regions := by
  cases operation with
  | getDataptrNew called =>
      obtain rfl := congrArg Prod.snd called
      exact emRingGetDataptrNew_regions
  | write => rfl
  | addNewdata called =>
      obtain rfl := congrArg Prod.snd called
      exact emRingAddNewdata_regions
  | deleteTaildata called =>
      obtain rfl := congrArg Prod.snd called
      exact emRingDeleteTaildata_regions _

/-! ## Lists -/

inductive EmList.Operation : EmList → EmList → Prop where
  | add {li after data ret} :
      emListAdd li data = some (ret, after) → Operation li after
  | removeAt {li after index ret} :
      emListRemoveAt li index = some (ret, after) → Operation li after

theorem EmList.Operation.regions_eq {li after : EmList}
    (operation : li.Operation after) : after.mp.regions = li.mp.regions := by
  cases operation with
  | add called =>
      unfold emListAdd at called
      split at called
      · next alloc =>
          have kept := emMpoolAllocBlock_regions alloc
          simp only at called
          split at called
          · cases called
            exact kept
          · split at called
            · cases called
            · cases called
              exact kept
      · next alloc =>
          cases called
          exact emMpoolAllocBlock_regions alloc
      · cases called
  | removeAt called =>
      unfold emListRemoveAt at called
      split_ifs at called
      · cases called
        rfl
      · split at called
        · cases called
        · cases called
          simp only [emMpoolFreeBlock_regions]
          split <;> split <;> rfl

/-! ## Data managers and mutex managers -/

/-- All pointers of a data manager. -/
def EmDatamng.allRegions {Value : Type} (dm : EmDatamng Value) :
    DatamngRegions :=
  { dm.regions with mp := dm.mp.regions }

def EmDatamng.withRegions {Value : Type} (dm : EmDatamng Value)
    (regions : DatamngRegions) : EmDatamng Value :=
  { dm with
    mp := { dm.mp with regions := regions.mp }
    regions := regions.toKeyRegions }

section Datamngs

variable {Value : Type} {dm : EmDatamng Value}

theorem emGdatamngAddData_allRegions (key : Bytes) (data : Value) :
    (emGdatamngAddData dm key data).2.allRegions = dm.allRegions := by
  unfold emGdatamngAddData EmDatamng.allRegions
  simp only
  split_ifs
  · split
    · next alloc => rw [emMpoolAllocBlock_regions alloc]
    · next alloc => rw [emMpoolAllocBlock_regions alloc]
    · rfl
  · split
    · rfl
    · split <;> rfl
    · rfl
    · rfl

theorem emGdatamngRemoveData_allRegions (key : Bytes) :
    (emGdatamngRemoveData dm key).2.allRegions = dm.allRegions := by
  unfold emGdatamngRemoveData EmDatamng.allRegions
  split
  · rfl
  · simp only
    split_ifs
    · simp only [emMpoolFreeBlockByDataidx_regions]
    · rfl

end Datamngs

def EmDatamng.Operation {Value : Type} (dm after : EmDatamng Value) : Prop :=
  ∃ call, dm.Step call after

theorem EmDatamng.Operation.allRegions_eq {Value : Type}
    {dm after : EmDatamng Value} (operation : dm.Operation after) :
    after.allRegions = dm.allRegions := by
  obtain ⟨call, taken⟩ := operation
  cases call with
  | addData key data ret =>
      obtain rfl := congrArg Prod.snd taken
      exact emGdatamngAddData_allRegions key data
  | removeData key ret =>
      obtain rfl := congrArg Prod.snd taken
      exact emGdatamngRemoveData_allRegions key
  | _ => rw [taken.2]

/-- All pointers of a mutex manager. -/
def EmMtxmng.allRegions (mtxm : EmMtxmng) : MtxmngRegions :=
  { mtxm.regions with mpMutex := mtxm.mpMutex.regions }

def EmMtxmng.withRegions (mtxm : EmMtxmng) (regions : MtxmngRegions) :
    EmMtxmng :=
  { mtxm with
    mpMutex := { mtxm.mpMutex with regions := regions.mpMutex }
    regions := regions.toLockRegions }

inductive EmMtxmng.Operation : EmMtxmng → EmMtxmng → Prop where
  | createMutex {mtxm after ret calls} :
      emMtxmngCreateMutex mtxm = (ret, calls, after) → Operation mtxm after
  | deleteMutex {mtxm after mutexId ret calls} :
      emMtxmngDeleteMutex mtxm mutexId = (ret, calls, after) →
      Operation mtxm after
  | lock {mtxm after mutexId timeoutMs answered ret calls} :
      emMtxmngLock mtxm mutexId timeoutMs answered = (ret, calls, after) →
      Operation mtxm after
  | unlock {mtxm after mutexId answered ret calls} :
      emMtxmngUnlock mtxm mutexId answered = some (ret, calls, after) →
      Operation mtxm after

theorem EmMtxmng.Operation.allRegions_eq {mtxm after : EmMtxmng}
    (operation : mtxm.Operation after) :
    after.allRegions = mtxm.allRegions := by
  cases operation with
  | createMutex called =>
      obtain rfl := congrArg (fun result => result.2.2) called
      unfold emMtxmngCreateMutex allRegions
      split
      · next alloc => rw [emMpoolAllocBlock_regions alloc]
      · next alloc => rw [emMpoolAllocBlock_regions alloc]
      · rfl
  | deleteMutex called =>
      obtain rfl := congrArg (fun result => result.2.2) called
      simp only [emMtxmngDeleteMutex, allRegions,
        emMpoolFreeBlockByDataidx_regions]
  | lock called =>
      obtain rfl := congrArg (fun result => result.2.2) called
      unfold emMtxmngLock
      simp only
      split_ifs
      · rfl
      · rfl
  | unlock called =>
      unfold emMtxmngUnlock at called
      split_ifs at called
      cases called
      rfl

/-! ## Memory managers -/

/-- All pointers of a memory manager. -/
def EmMemmng.allRegions (mm : EmMemmng) : MemmngRegions :=
  { mm.regions with
    mpUsed := mm.mpUsed.regions
    mpFree := mm.mpFree.regions }

def EmMemmng.withRegions (mm : EmMemmng) (regions : MemmngRegions) :
    EmMemmng :=
  { mm with
    mpUsed := { mm.mpUsed with regions := regions.mpUsed }
    mpFree := { mm.mpFree with regions := regions.mpFree }
    regions := regions.toArenaRegions }

section Memmngs

variable {mm : EmMemmng}

theorem EmMemmng.allRegions_pools {mpUsed mpFree : EmMpool}
    (usedKept : mpUsed.regions = mm.mpUsed.regions)
    (freeKept : mpFree.regions = mm.mpFree.regions) :
    ({ mm with mpUsed, mpFree } : EmMemmng).allRegions = mm.allRegions := by
  unfold allRegions
  rw [usedKept, freeKept]

theorem emMallocCarve_allRegions (new free : MeminfoPtr) (blength : ℤ) :
    (emMallocCarve mm new free blength).allRegions = mm.allRegions := by
  unfold emMallocCarve
  simp only
  split_ifs
  · exact EmMemmng.allRegions_pools rfl (emMpoolFreeRecord_regions free)
  · rfl

theorem emMallocUnlocked_allRegions (size : ℕ) :
    (emMallocUnlocked mm size).2.2.allRegions = mm.allRegions := by
  unfold emMallocUnlocked
  simp only
  split_ifs
  · rfl
  · split
    · rfl
    · split
      · next alloc =>
          have kept := congrArg (fun result => result.2.regions) alloc
          exact EmMemmng.allRegions_pools
            (kept.symm.trans emMpoolAllocBlockNoWait_regions) rfl
      · next alloc =>
          have kept := congrArg (fun result => result.2.regions) alloc
          exact (emMallocCarve_allRegions _ _ _).trans
            (EmMemmng.allRegions_pools
              (kept.symm.trans emMpoolAllocBlockNoWait_regions) rfl)

theorem emFreeMerge_allRegions (del : MeminfoPtr) :
    (emFreeMerge mm del).allRegions = mm.allRegions := by
  unfold emFreeMerge
  simp only
  split_ifs
  · split
    · next alloc =>
        have kept := congrArg (fun result => result.2.regions) alloc
        exact EmMemmng.allRegions_pools rfl
          (kept.symm.trans emMpoolAllocBlockNoWait_regions)
    · next alloc =>
        have kept := congrArg (fun result => result.2.regions) alloc
        exact EmMemmng.allRegions_pools rfl
          (kept.symm.trans emMpoolAllocBlockNoWait_regions)
  · rfl
  · rfl
  · exact EmMemmng.allRegions_pools rfl (emMpoolFreeRecord_regions _)

theorem emFree_allRegions (addr : ℤ) :
    (emFree mm addr).allRegions = mm.allRegions := by
  unfold emFree
  exact (EmMemmng.allRegions_pools (emMpoolFreeRecord_regions _) rfl).trans
    (emFreeMerge_allRegions _)

end Memmngs

/-- `em_trymalloc` makes the attempts of `em_malloc`. -/
inductive EmMemmng.Operation : EmMemmng → EmMemmng → Prop where
  | malloc {mm after size ret mem} :
      emMallocUnlocked mm size = (ret, mem, after) → Operation mm after
  | free {mm addr} : Operation mm (emFree mm addr)

theorem EmMemmng.Operation.allRegions_eq {mm after : EmMemmng}
    (operation : mm.Operation after) : after.allRegions = mm.allRegions := by
  cases operation with
  | malloc called =>
      obtain rfl := congrArg (fun result => result.2.2) called
      exact emMallocUnlocked_allRegions _
  | free => exact emFree_allRegions _

end EmbeddedMiddle
