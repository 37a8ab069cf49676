import EmbeddedMiddle.SystemRuns
import EmbeddedMiddle.TaskRegions

/-!
# The regions of a whole program

What `em_sysmng_init` requests for the managers, what `em_sysmng_finalize`
releases, and the tasks in between.
-/

namespace EmbeddedMiddle

open Foundation

/-! ## The managers -/

structure CmdmngRegions where
  dmCmd : DatamngRegions
  quCmd : BlockRegions
  deriving DecidableEq

namespace CmdmngRegions

def emCmdInit (regions : CmdmngRegions) (numCmd : ℤ) (allocFunc : AllocFunc)
    (freeFunc : FreeFunc) (heap : RegionHeap) :
    Option (CmdmngRegions × RegionHeap) := do
  let (dmCmd, heap) ← regions.dmCmd.emGdatamngCreate sizeofCmdsetting
    (intToUint32 numCmd) emCmdNameLengthMax allocFunc freeFunc heap
  let (quCmd, heap) ← BlockRegions.emQueueCreate emCmdBufLength
    emCmdAsyncQueueSize allocFunc freeFunc heap
  return ({ dmCmd, quCmd }, heap)

def emCmdDestroy (regions : CmdmngRegions) (heap : RegionHeap) :
    Option RegionHeap := do
  let heap ← regions.dmCmd.emGdatamngDestroy heap
  regions.quCmd.emQueueDestroy heap

end CmdmngRegions

/-- `em_memmng_create`: a buffer of the caller holds everything.  There too the
initial record needs a block of `mp_free`. -/
def MemmngRegions.emMemmngCreateIn (regions : MemmngRegions)
    (memUnitSize memBlockNum allocMaxNum : ℤ) (memory : Option ℤ)
    (malloc : AllocFunc) (heap : RegionHeap) :
    Option (MemmngRegions × RegionHeap) :=
  match memory with
  | some _ =>
      if intToUint32 allocMaxNum = 0 then none
      else some ({ regions with isMalloc := false }, heap)
  | none =>
      regions.emMemmngCreate memUnitSize memBlockNum allocMaxNum malloc heap

/-- The table is left when the semaphore cannot be destroyed. -/
def DatamngRegions.emTaskmngDestroy (taskinfoMng : DatamngRegions)
    (semDestroyed : Bool) (heap : RegionHeap) : Option RegionHeap :=
  if !semDestroyed then some heap else taskinfoMng.emGdatamngDestroy heap

/-- The managers of `em_sysmng_t` that have pointers to regions. -/
structure ManagerRegions where
  memmng : MemmngRegions
  tmrmng : MpoolRegions
  mtxmng : MtxmngRegions
  semmng : MpoolRegions
  evtmng : MpoolRegions
  cmdmng : CmdmngRegions
  tskmng : DatamngRegions
  deriving DecidableEq

namespace ManagerRegions

/-- `ticked` and `flagged` are as in the other model of `em_sysmng_init`. -/
def emSysmngInit (regions : ManagerRegions) (setting : EmSysmngStg)
    (ticked flagged : Bool) (malloc allocFunc : AllocFunc)
    (freeFunc : FreeFunc) (heap : RegionHeap) :
    Option (ℤ × ManagerRegions × RegionHeap) := do
  if !ticked then return (-1, regions, heap)
  let (memmng, heap) ← regions.memmng.emMemmngCreateIn setting.memBlockSize
    setting.memBlockNum setting.memAllocNum setting.memStatic malloc heap
  let regions := { regions with memmng }
  let (ret, tmrmng, heap) ← regions.tmrmng.emMpoolCreate sizeofTimerinfo
    (intToUint32 setting.maxNumMutex) allocFunc freeFunc heap
  let regions := { regions with tmrmng }
  if ret ≠ 0 then return (-1, regions, heap)
  let (ret, mtxmng, heap) ← regions.mtxmng.emMtxmngInit setting.maxNumMutex
    allocFunc freeFunc heap
  let regions := { regions with mtxmng }
  if ret ≠ 0 then return (-1, regions, heap)
  let (ret, semmng, heap) ← regions.semmng.emMpoolCreate sizeofSem
    (intToUint32 setting.maxNumSem) allocFunc freeFunc heap
  let regions := { regions with semmng }
  if ret ≠ 0 then return (-1, regions, heap)
  let (ret, evtmng, heap) ← regions.evtmng.emMpoolCreate sizeofEvent
    (intToUint32 setting.maxNumEvent) allocFunc freeFunc heap
  let regions := { regions with evtmng }
  if ret ≠ 0 then return (-1, regions, heap)
  let (cmdmng, heap) ← regions.cmdmng.emCmdInit setting.maxNumCmd allocFunc
    freeFunc heap
  let regions := { regions with cmdmng }
  let (tskmng, heap) ← regions.tskmng.emGdatamngCreate sizeofTaskinfo
    (intToUint32 setting.maxNumTask) sizeofUlong allocFunc freeFunc heap
  let regions := { regions with tskmng }
  if !flagged then return (-1, regions, heap)
  return (0, regions, heap)

/-- No failure ends `em_sysmng_finalize`. -/
def emSysmngFinalize (regions : ManagerRegions) (semDestroyed : Bool)
    (heap : RegionHeap) : Option RegionHeap := do
  let heap ← regions.tmrmng.emMpoolDestroy heap
  let heap ← regions.mtxmng.emMtxmngDestroy heap
  let heap ← regions.semmng.emMpoolDestroy heap
  let heap ← regions.evtmng.emMpoolDestroy heap
  let heap ← regions.cmdmng.emCmdDestroy heap
  let heap ← regions.tskmng.emTaskmngDestroy semDestroyed heap
  regions.memmng.emMemmngDestroy heap

end ManagerRegions

/-! ## What the creations request -/

section Requests

variable {allocFunc malloc : AllocFunc} {freeFunc : FreeFunc}
  {before after : RegionHeap} {ret : ℤ}

theorem MpoolRegions.emMpoolCreate_requested
    {regions created : MpoolRegions} {blockSize blockNum : ℕ}
    (called : regions.emMpoolCreate blockSize blockNum allocFunc freeFunc
      before = some (ret, created, after)) : Requested before after := by
  unfold MpoolRegions.emMpoolCreate at called
  split_ifs at called with zero
  · obtain ⟨_, same⟩ := Prod.mk.inj (Option.some.inj called)
    rw [(Prod.mk.inj same).2]
    exact .refl
  · dsimp only at called
    split_ifs at called
    obtain ⟨_, same⟩ := Prod.mk.inj (Option.some.inj called)
    rw [← (Prod.mk.inj same).2]
    exact (((Requested.call allocFunc _).trans (.call allocFunc _)).trans
      (.call allocFunc _)).trans (.call allocFunc _)

/-- A pool that was created, with its function and a region it surely has. -/
structure MpoolRegions.Made (created : MpoolRegions) (freeFunc : FreeFunc)
    (before after : RegionHeap) : Prop where
  freeFunc_eq : created.freeFunc = freeFunc
  blockPtr_ne : created.blockPtr ≠ none
  requests : Requests before created.pointers after

theorem MpoolRegions.emMpoolCreate_made
    {regions created : MpoolRegions} {blockSize blockNum : ℕ}
    (called : regions.emMpoolCreate blockSize blockNum allocFunc freeFunc
      before = some (0, created, after)) :
    created.Made freeFunc before after := by
  obtain ⟨isFunc, isRegion, obtained⟩ := created_of_accepted called
  exact ⟨isFunc, isRegion, obtained, emMpoolCreate_requested called⟩

theorem BlockRegions.emQueueCreate_requests {created : BlockRegions}
    {blockSize blockNum : ℤ}
    (called : BlockRegions.emQueueCreate blockSize blockNum allocFunc
      freeFunc before = some (created, after)) :
    created.freeFunc = freeFunc ∧ Requests before created.pointers after := by
  obtain ⟨isFunc, obtained⟩ := create_obtains called
  refine ⟨isFunc, obtained, ?_⟩
  simp only [emQueueCreate, create] at called
  split_ifs at called
  obtain ⟨_, rfl⟩ := Prod.mk.inj (Option.some.inj called)
  exact (Requested.call allocFunc _).trans (.call allocFunc _)

def MtxmngRegions.pointers (regions : MtxmngRegions) : List (Option ℕ) :=
  regions.islock :: regions.mpMutex.pointers

theorem MtxmngRegions.emMtxmngInit_requests
    {regions created : MtxmngRegions} {maxMutexNum : ℤ}
    (called : regions.emMtxmngInit maxMutexNum allocFunc freeFunc before =
      some (0, created, after)) :
    created.freeFunc = freeFunc ∧ created.mpMutex.freeFunc = freeFunc ∧
      Requests before created.pointers after := by
  simp only [emMtxmngInit] at called
  split at called
  · cases called
  · rename_i pool mpMutex heap inner
    obtain ⟨rfl, same⟩ := Prod.mk.inj (Option.some.inj called)
    obtain ⟨rfl, rfl⟩ := Prod.mk.inj same
    obtain ⟨isFunc, _, requests⟩ := MpoolRegions.emMpoolCreate_made inner
    exact ⟨rfl, isFunc, (Requests.call allocFunc _).trans requests⟩

def DatamngRegions.pointers (regions : DatamngRegions) : List (Option ℕ) :=
  [regions.keycnt, regions.keymem] ++ regions.mp.pointers

/-- A data manager with a pool, likewise. -/
structure DatamngRegions.Made (created : DatamngRegions)
    (freeFunc : FreeFunc) (before after : RegionHeap) : Prop where
  freeFunc_eq : created.freeFunc = freeFunc
  pool_eq : created.mp.freeFunc = freeFunc
  blockPtr_ne : created.mp.blockPtr ≠ none
  requests : Requests before created.pointers after

theorem DatamngRegions.emGdatamngCreate_made
    {regions created : DatamngRegions} {dataSize dataNum keySize : ℕ}
    (someSize : dataSize ≠ 0) (someNum : dataNum ≠ 0)
    (called : regions.emGdatamngCreate dataSize dataNum keySize allocFunc
      freeFunc before = some (created, after)) :
    created.Made freeFunc before after := by
  simp only [emGdatamngCreate] at called
  split at called
  · cases called
  · rename_i pool mp heap inner
    split_ifs at called
    obtain ⟨rfl, rfl⟩ := Prod.mk.inj (Option.some.inj called)
    have positive : ¬ (dataSize = 0 ∨ dataNum = 0) :=
      fun zero => zero.elim someSize someNum
    obtain ⟨isZero, _⟩ := MpoolRegions.emMpoolCreate_created positive inner
    subst isZero
    obtain ⟨isFunc, isRegion, requests⟩ :=
      MpoolRegions.emMpoolCreate_made inner
    exact ⟨rfl, isFunc, isRegion, ((Requests.call allocFunc _).trans
      (.call allocFunc _)).trans requests⟩

theorem MemmngRegions.emMemmngCreate_requested
    {regions created : MemmngRegions}
    {memUnitSize memBlockNum allocMaxNum : ℤ}
    (called : regions.emMemmngCreate memUnitSize memBlockNum allocMaxNum
      malloc before = some (created, after)) : Requested before after := by
  simp only [emMemmngCreate] at called
  split at called
  · cases called
  · rename_i usedRet mpUsed first isUsed
    split at called
    · cases called
    · rename_i freeRet mpFree second isFree
      split_ifs at called
      obtain ⟨_, rfl⟩ := Prod.mk.inj (Option.some.inj called)
      have pools := (MpoolRegions.emMpoolCreate_requested isUsed).trans
        (MpoolRegions.emMpoolCreate_requested isFree)
      exact (pools.trans (.call malloc _)).trans (.call malloc _)

def MemmngRegions.released (regions : MemmngRegions) : List (Option ℕ) :=
  if regions.isMalloc then [regions.memory, regions.minfoPtr] else []

/-- The pools are requested and not released. -/
theorem MemmngRegions.emMemmngCreateIn_requests
    {regions created : MemmngRegions}
    {memUnitSize memBlockNum allocMaxNum : ℤ} {memory : Option ℤ}
    (called : regions.emMemmngCreateIn memUnitSize memBlockNum allocMaxNum
      memory malloc before = some (created, after)) :
    ∃ obtained, Requests before obtained after ∧
      (∀ region, created.released.count (some region) ≤
        obtained.count (some region)) ∧
      ((∀ region, created.released.count (some region) =
          obtained.count (some region)) ↔ memory ≠ none) := by
  cases memory with
  | some buffer =>
      simp only [emMemmngCreateIn] at called
      split_ifs at called
      obtain ⟨rfl, rfl⟩ := Prod.mk.inj (Option.some.inj called)
      exact ⟨[], .nil, fun region => le_refl _, by simp [released]⟩
  | none =>
      have requested := emMemmngCreate_requested called
      obtain ⟨isMalloc, isRegion, obtained⟩ := emMemmngCreate_obtains called
      have swapped : List.Perm created.released
          [created.minfoPtr, created.memory] := by
        rw [released, if_pos isMalloc]
        exact .swap _ _ []
      refine ⟨_, ⟨obtained, requested⟩, ?_, ?_⟩
      · intro region
        rw [swapped.count_eq, List.count_append]
        exact Nat.le_add_left _ _
      · refine iff_of_false (fun all => ?_) (by simp)
        obtain ⟨region, isRegion⟩ := Option.ne_none_iff_exists'.mp isRegion
        have same := all region
        simp only [swapped.count_eq, List.count_append,
          MpoolRegions.pointers, isRegion, List.count_cons_self] at same
        omega

end Requests

/-! ## What the destructions release -/

section Releases

variable {heap : RegionHeap}

def MpoolRegions.released (regions : MpoolRegions) : List (Option ℕ) :=
  [regions.blockPtr, regions.block, regions.rawdata, regions.dataPtr]

theorem MpoolRegions.count_released (regions : MpoolRegions)
    (ptr : Option ℕ) :
    regions.released.count ptr = regions.pointers.count ptr := by
  have same : List.Perm regions.released regions.pointers :=
    .cons _ (.cons _ (.swap _ _ []))
  exact same.count_eq ptr

theorem MpoolRegions.emMpoolDestroy_eq {regions : MpoolRegions}
    (given : regions.freeFunc = .given) :
    regions.emMpoolDestroy heap = some (heap.freeAll regions.released) := by
  simp only [emMpoolDestroy, given]
  rfl

def MtxmngRegions.released (regions : MtxmngRegions) : List (Option ℕ) :=
  regions.islock :: regions.mpMutex.released

theorem MtxmngRegions.count_released (regions : MtxmngRegions)
    (ptr : Option ℕ) :
    regions.released.count ptr = regions.pointers.count ptr := by
  rw [released, pointers, List.count_cons, List.count_cons,
    MpoolRegions.count_released]

theorem MtxmngRegions.emMtxmngDestroy_eq {regions : MtxmngRegions}
    (given : regions.freeFunc = .given)
    (poolGiven : regions.mpMutex.freeFunc = .given) :
    regions.emMtxmngDestroy heap = some (heap.freeAll regions.released) := by
  simp only [emMtxmngDestroy, given, FreeFunc.call, Option.bind_eq_bind,
    Option.bind_some, MpoolRegions.emMpoolDestroy_eq poolGiven]
  rfl

def BlockRegions.released (regions : BlockRegions) : List (Option ℕ) :=
  [regions.blockPtr, regions.rawdata]

theorem BlockRegions.count_released (regions : BlockRegions)
    (ptr : Option ℕ) :
    regions.released.count ptr = regions.pointers.count ptr := by
  have same : List.Perm regions.released regions.pointers := .swap _ _ []
  exact same.count_eq ptr

theorem BlockRegions.emQueueDestroy_eq {regions : BlockRegions}
    (given : regions.freeFunc = .given) :
    regions.emQueueDestroy heap = some (heap.freeAll regions.released) := by
  simp only [emQueueDestroy, destroy, given]
  rfl

def DatamngRegions.released (regions : DatamngRegions) : List (Option ℕ) :=
  regions.mp.released ++ [regions.keycnt, regions.keymem]

theorem DatamngRegions.count_released (regions : DatamngRegions)
    (ptr : Option ℕ) :
    regions.released.count ptr = regions.pointers.count ptr := by
  rw [released, pointers, List.count_append, List.count_append,
    MpoolRegions.count_released, Nat.add_comm]

theorem DatamngRegions.emGdatamngDestroy_eq {regions : DatamngRegions}
    (given : regions.freeFunc = .given)
    (poolGiven : regions.mp.freeFunc = .given) :
    regions.emGdatamngDestroy heap = some (heap.freeAll regions.released) := by
  rw [emGdatamngDestroy_given given
    (MpoolRegions.emMpoolDestroy_eq poolGiven), released,
    RegionHeap.freeAll_append]
  rfl

theorem MemmngRegions.emMemmngDestroy_eq (regions : MemmngRegions) :
    regions.emMemmngDestroy heap = some (heap.freeAll regions.released) := by
  rw [emMemmngDestroy, released]
  split_ifs <;> rfl

end Releases

namespace ManagerRegions

variable {regions managers : ManagerRegions} {setting : EmSysmngStg}
  {ticked flagged : Bool} {malloc allocFunc : AllocFunc}
  {before after : RegionHeap}

/-- A failure is returned as -1. -/
theorem of_not_failed {condition : Prop} [Decidable condition]
    {failed : ManagerRegions × RegionHeap}
    {rest : Option (ℤ × ManagerRegions × RegionHeap)}
    (called : (if condition then pure (-1, failed) else rest) =
      some (0, managers, after)) :
    ¬ condition ∧ rest = some (0, managers, after) := by
  split_ifs at called with isFailed
  · cases (Prod.mk.inj (Option.some.inj called)).1
  · exact ⟨isFailed, called⟩

theorem emSysmngInit_cases {freeFunc : FreeFunc}
    (called : regions.emSysmngInit setting ticked flagged malloc allocFunc
      freeFunc before = some (0, managers, after)) :
    ∃ heap1 heap2 heap3 heap4 heap5 heap6 heap7,
      regions.memmng.emMemmngCreateIn setting.memBlockSize
        setting.memBlockNum setting.memAllocNum setting.memStatic malloc
        before = some (managers.memmng, heap1) ∧
      regions.tmrmng.emMpoolCreate sizeofTimerinfo
        (intToUint32 setting.maxNumMutex) allocFunc freeFunc heap1 =
          some (0, managers.tmrmng, heap2) ∧
      regions.mtxmng.emMtxmngInit setting.maxNumMutex allocFunc freeFunc
        heap2 = some (0, managers.mtxmng, heap3) ∧
      regions.semmng.emMpoolCreate sizeofSem
        (intToUint32 setting.maxNumSem) allocFunc freeFunc heap3 =
          some (0, managers.semmng, heap4) ∧
      regions.evtmng.emMpoolCreate sizeofEvent
        (intToUint32 setting.maxNumEvent) allocFunc freeFunc heap4 =
          some (0, managers.evtmng, heap5) ∧
      regions.cmdmng.dmCmd.emGdatamngCreate sizeofCmdsetting
        (intToUint32 setting.maxNumCmd) emCmdNameLengthMax allocFunc
        freeFunc heap5 = some (managers.cmdmng.dmCmd, heap6) ∧
      BlockRegions.emQueueCreate emCmdBufLength emCmdAsyncQueueSize allocFunc
        freeFunc heap6 = some (managers.cmdmng.quCmd, heap7) ∧
      regions.tskmng.emGdatamngCreate sizeofTaskinfo
        (intToUint32 setting.maxNumTask) sizeofUlong allocFunc freeFunc
        heap7 = some (managers.tskmng, after) := by
  unfold emSysmngInit at called
  obtain ⟨_, called⟩ := of_not_failed called
  obtain ⟨⟨memmng, heap1⟩, memory, called⟩ := Option.bind_eq_some_iff.mp called
  obtain ⟨⟨_, tmrmng, heap2⟩, timers, called⟩ :=
    Option.bind_eq_some_iff.mp called
  obtain ⟨timersMade, called⟩ := of_not_failed called
  obtain ⟨⟨_, mtxmng, heap3⟩, mutexes, called⟩ :=
    Option.bind_eq_some_iff.mp called
  obtain ⟨mutexesMade, called⟩ := of_not_failed called
  obtain ⟨⟨_, semmng, heap4⟩, sems, called⟩ :=
    Option.bind_eq_some_iff.mp called
  obtain ⟨semsMade, called⟩ := of_not_failed called
  obtain ⟨⟨_, evtmng, heap5⟩, events, called⟩ :=
    Option.bind_eq_some_iff.mp called
  obtain ⟨eventsMade, called⟩ := of_not_failed called
  obtain ⟨⟨cmdmng, heap⟩, cmds, called⟩ := Option.bind_eq_some_iff.mp called
  obtain ⟨⟨tskmng, last⟩, tasks, called⟩ := Option.bind_eq_some_iff.mp called
  obtain ⟨_, called⟩ := of_not_failed called
  obtain ⟨_, same⟩ := Prod.mk.inj (Option.some.inj called)
  obtain ⟨rfl, rfl⟩ := Prod.mk.inj same
  obtain ⟨⟨dmCmd, heap6⟩, table, cmds⟩ := Option.bind_eq_some_iff.mp cmds
  obtain ⟨⟨quCmd, heap7⟩, queue, cmds⟩ := Option.bind_eq_some_iff.mp cmds
  obtain ⟨rfl, rfl⟩ := Prod.mk.inj (Option.some.inj cmds)
  rw [not_not] at timersMade mutexesMade semsMade eventsMade
  subst timersMade mutexesMade semsMade eventsMade
  exact ⟨heap1, heap2, heap3, heap4, heap5, heap6, heap7, memory, timers,
    mutexes, sems, events, table, queue, tasks⟩

/-- In the order of `em_sysmng_finalize`. -/
def released (managers : ManagerRegions) (semDestroyed : Bool) :
    List (Option ℕ) :=
  managers.tmrmng.released ++ (managers.mtxmng.released ++
    (managers.semmng.released ++ (managers.evtmng.released ++
      (managers.cmdmng.dmCmd.released ++ (managers.cmdmng.quCmd.released ++
        ((if semDestroyed then managers.tskmng.released else []) ++
          managers.memmng.released))))))

/-- What the managers have requested, what is released at the end, and when
that is the same. -/
theorem emSysmngInit_requests
    (someCmd : intToUint32 setting.maxNumCmd ≠ 0)
    (someTask : intToUint32 setting.maxNumTask ≠ 0)
    (called : regions.emSysmngInit setting ticked flagged malloc allocFunc
      .given before = some (0, managers, after)) (semDestroyed : Bool) :
    ∃ obtained, Requests before obtained after ∧
      (∀ heap, managers.emSysmngFinalize semDestroyed heap =
        some (heap.freeAll (managers.released semDestroyed))) ∧
      (∀ region, (managers.released semDestroyed).count (some region) ≤
        obtained.count (some region)) ∧
      ((∀ region, (managers.released semDestroyed).count (some region) =
          obtained.count (some region)) ↔
        semDestroyed = true ∧ setting.memStatic ≠ none) := by
  obtain ⟨_, _, _, _, _, _, _, memory, timers, mutexes, sems, events, table,
    queue, tasks⟩ := emSysmngInit_cases called
  obtain ⟨own, memRequests, memWithin, memAll⟩ :=
    MemmngRegions.emMemmngCreateIn_requests memory
  have timersMade := MpoolRegions.emMpoolCreate_made timers
  obtain ⟨mutexGiven, mutexPool, mutexRequests⟩ :=
    MtxmngRegions.emMtxmngInit_requests mutexes
  have semsMade := MpoolRegions.emMpoolCreate_made sems
  have eventsMade := MpoolRegions.emMpoolCreate_made events
  have tableMade := DatamngRegions.emGdatamngCreate_made (by decide) someCmd
    table
  obtain ⟨queueGiven, queueRequests⟩ :=
    BlockRegions.emQueueCreate_requests queue
  have tasksMade := DatamngRegions.emGdatamngCreate_made (by decide) someTask
    tasks
  have requests := memRequests.trans (timersMade.requests.trans
    (mutexRequests.trans (semsMade.requests.trans (eventsMade.requests.trans
      (tableMade.requests.trans (queueRequests.trans
        tasksMade.requests))))))
  -- All but the memory manager and the table of tasks balance.
  let others : List (Option ℕ) := managers.tmrmng.pointers ++
    (managers.mtxmng.pointers ++ (managers.semmng.pointers ++
      (managers.evtmng.pointers ++ (managers.cmdmng.dmCmd.pointers ++
        managers.cmdmng.quCmd.pointers))))
  have isReleased : ∀ ptr, (managers.released semDestroyed).count ptr =
      others.count ptr + (if semDestroyed then
        managers.tskmng.pointers.count ptr else 0) +
          managers.memmng.released.count ptr := by
    intro ptr
    simp only [released, others, List.count_append,
      MpoolRegions.count_released, MtxmngRegions.count_released,
      DatamngRegions.count_released, BlockRegions.count_released]
    cases semDestroyed <;>
      simp only [Bool.false_eq_true, if_true, if_false, List.count_nil,
        DatamngRegions.count_released] <;>
      omega
  have isObtained : ∀ ptr, (own ++ (managers.tmrmng.pointers ++
      (managers.mtxmng.pointers ++ (managers.semmng.pointers ++
        (managers.evtmng.pointers ++ (managers.cmdmng.dmCmd.pointers ++
          (managers.cmdmng.quCmd.pointers ++
            managers.tskmng.pointers))))))).count ptr =
      others.count ptr + managers.tskmng.pointers.count ptr +
        own.count ptr := by
    intro ptr
    simp only [others, List.count_append]
    omega
  refine ⟨_, requests, ?_, ?_, ?_⟩
  · intro heap
    simp only [emSysmngFinalize, CmdmngRegions.emCmdDestroy,
      MpoolRegions.emMpoolDestroy_eq timersMade.freeFunc_eq,
      MtxmngRegions.emMtxmngDestroy_eq mutexGiven mutexPool,
      MpoolRegions.emMpoolDestroy_eq semsMade.freeFunc_eq,
      MpoolRegions.emMpoolDestroy_eq eventsMade.freeFunc_eq,
      DatamngRegions.emGdatamngDestroy_eq tableMade.freeFunc_eq
        tableMade.pool_eq, BlockRegions.emQueueDestroy_eq queueGiven,
      MemmngRegions.emMemmngDestroy_eq, released, RegionHeap.freeAll_append,
      Option.bind_eq_bind, Option.bind_some]
    cases semDestroyed with
    | false => rfl
    | true =>
        rw [DatamngRegions.emTaskmngDestroy,
          DatamngRegions.emGdatamngDestroy_eq tasksMade.freeFunc_eq
            tasksMade.pool_eq]
        rfl
  · intro region
    rw [isReleased, isObtained]
    have within := memWithin region
    split_ifs <;> omega
  · rw [← memAll]
    constructor
    · intro all
      have tableReleased : semDestroyed = true := by
        by_contra kept
        obtain ⟨region, isRegion⟩ :=
          Option.ne_none_iff_exists'.mp tasksMade.blockPtr_ne
        have member : some region ∈ managers.tskmng.pointers := by
          simp [DatamngRegions.pointers, MpoolRegions.pointers, isRegion]
        have positive := List.count_pos_iff.mpr member
        have same := all region
        have within := memWithin region
        rw [isReleased, isObtained, if_neg kept] at same
        omega
      refine ⟨tableReleased, fun region => ?_⟩
      have same := all region
      rw [isReleased, isObtained, if_pos tableReleased] at same
      omega
    · rintro ⟨tableReleased, own⟩ region
      rw [isReleased, isObtained, if_pos tableReleased, own]

end ManagerRegions

/-! ## The whole program -/

theorem emSysmngInit_tskmng {memory sysmng : EmSysmng}
    {setting : EmSysmngStg} {contents : SysmngRegions}
    {ticked flagged : Bool}
    (initialised :
      emSysmngInit memory setting contents ticked flagged = (0, sysmng)) :
    sysmng.tskmng = (emTaskmngInit memory.tskmng
      (intToUint32 setting.maxNumTask) setting.sizeMsgdata sizeofTaskinfo
      contents.taskKeymem contents.task).2 := by
  simp only [emSysmngInit] at initialised
  split_ifs at initialised <;>
    first
    | exact absurd (Prod.mk.inj initialised).1 (by decide)
    | exact congrArg EmSysmng.tskmng (Prod.mk.inj initialised).2.symm

/-- From `em_sysmng_init` to `em_sysmng_finalize` no region is released twice
or used after its release, and at the end all is given back when the semaphore
of the task manager could be destroyed, the memory manager was made in a buffer
of the caller, and every task was deleted before. -/
theorem system_regions_returned_iff {setting : EmSysmngStg}
    (accepted : setting.Accepted) (available : 0 < setting.sizeMsgdata)
    {memory sysmng : EmSysmng} {contents : SysmngRegions}
    {ticked flagged : Bool}
    (initialised :
      emSysmngInit memory setting contents ticked flagged = (0, sysmng))
    {regions managers : ManagerRegions} {malloc allocFunc : AllocFunc}
    {before middle : RegionHeap}
    (requested : regions.emSysmngInit setting ticked flagged malloc allocFunc
      .given before = some (0, managers, middle))
    {outer : Finset ℕ} (sound : before.Sound outer)
    {calls : List TaskHeapCall} {held : TaskHeap}
    (run : Run (Guarded TaskHeap.Careful (TaskHeap.Step allocFunc .given))
      (.start sysmng.tskmng middle) calls held) (semDestroyed : Bool) :
    ∃ after, managers.emSysmngFinalize semDestroyed held.heap = some after ∧
      after.Lawful ∧
      (before.GivesBack after ↔
        (semDestroyed = true ∧ setting.memStatic ≠ none) ∧
        ∀ taskId, emIdatamngGetData held.tm.taskinfoMng
          (ulongOfTaskid taskId) = none) := by
  have someNumber : ∀ {kind : ObjectKind} {number : ℤ},
      setting.limit kind.passed = number.toNat → intToUint32 number ≠ 0 := by
    intro kind number isLimit
    rw [accepted.intToUint32_eq kind isLimit]
    exact (accepted.positive _).ne'
  obtain ⟨obtained, requests, finalized, within, all⟩ :=
    ManagerRegions.emSysmngInit_requests (@someNumber .cmd _ rfl)
      (@someNumber .task _ rfl) requested semDestroyed
  have table := (accepted.taskTable_valid contents).created_table
    ⟨rfl, rfl, rfl⟩ memory.tskmng.taskinfoMng contents.taskKeymem
  have started : (TaskHeap.start sysmng.tskmng middle).Keeps
      (taskTable (setting.limit .task) sizeofTaskinfo contents.task)
      (outer ∪ Finset.Ico before.next middle.next) middle.next
      (fun _ => none) := by
    rw [emSysmngInit_tskmng initialised, accepted.intToUint32_eq .task rfl]
    exact .start table available (requests.requested.sound sound).2
  obtain ⟨entries, keeps⟩ := TaskHeap.keeps_of_run started run
  obtain ⟨live, last, named⟩ := keeps.owned.sound
  have kept : outer ∪ Finset.Ico before.next middle.next ⊆ live := by
    intro region member
    exact (named region).mpr ⟨.outside region, if_pos member⟩
  obtain ⟨lawful, back⟩ := requests.givesBack_freeAll_iff sound last
    keeps.later kept within
  refine ⟨_, finalized held.heap, lawful, ?_⟩
  rw [back, all, keeps.live_eq_outer_iff named]
  simp only [keeps.holds.getData_eq]

/-- A program with a buffer for its memory manager and one task that is
deleted. -/
theorem system_regions_returned_one :
    ∃ (managers : ManagerRegions) (held : TaskHeap) (after : RegionHeap),
      managers.emSysmngFinalize true held.heap = some after ∧ after.Lawful ∧
      (RegionHeap.GivesBack ⟨0, []⟩ after ↔
        ∀ taskId, emIdatamngGetData held.tm.taskinfoMng
          (ulongOfTaskid taskId) = none) := by
  let setting : EmSysmngStg :=
    { EmSysmngStg.sample 1 1 with memStatic := some 5000 }
  have accepted : setting.Accepted := by
    refine ⟨by decide, ?_, ?_⟩ <;> intro kind <;> cases kind <;> decide
  have initialised : emSysmngInit default setting default true true =
      (0, (emSysmngInit default setting default true true).2) := rfl
  let pool : MpoolRegions := ⟨.invalid, none, none, none, none⟩
  let table : DatamngRegions := ⟨⟨.invalid, none, none⟩, pool⟩
  let regions : ManagerRegions :=
    ⟨⟨⟨false, none, none⟩, pool, pool⟩, pool, ⟨⟨.invalid, none⟩, pool⟩, pool,
      pool, ⟨table, .unset⟩, table⟩
  obtain ⟨managers, requested⟩ : ∃ managers,
      regions.emSysmngInit setting true true (fun _ _ => true)
        (fun _ _ => true) .given ⟨0, []⟩ =
          some (0, managers, ⟨31, (List.range 31).map .create⟩) := ⟨_, rfl⟩
  have isTskmng : (emSysmngInit default setting default true true).2.tskmng =
      (emTaskmngInit default 1 4 192 default 0).2 := by
    rw [emSysmngInit_tskmng initialised, accepted.intToUint32_eq .task rfl]
    rfl
  have run : ∃ held, Run
      (Guarded TaskHeap.Careful (TaskHeap.Step (fun _ _ => true) .given))
      (.start (emTaskmngInit default 1 4 192 default 0).2
        ⟨31, (List.range 31).map .create⟩)
      [.create ⟨[116], 1, 2⟩ (some 10) default, .enter 10, .finish 10,
        .delete 1 default] held :=
    ⟨_, .cons ⟨.inr ⟨Option.not_isSome_iff_eq_none.mp (by decide +kernel),
        by decide⟩, .create (by decide) (fun _ _ => rfl) rfl⟩ <|
      .cons ⟨trivial, .enter rfl⟩ <|
      .cons ⟨trivial, .finish rfl⟩ <|
      .cons ⟨Option.ne_none_iff_isSome.mpr (by decide +kernel),
        .delete rfl⟩ .nil⟩
  obtain ⟨held, run⟩ := run
  rw [← isTskmng] at run
  obtain ⟨after, finalized, lawful, back⟩ := system_regions_returned_iff
    accepted (by decide) initialised requested .empty run true
  exact ⟨managers, held, after, finalized, lawful, back.trans
    (and_iff_right ⟨rfl, by decide⟩)⟩

end EmbeddedMiddle
