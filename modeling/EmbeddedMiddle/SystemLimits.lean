import EmbeddedMiddle.System
import EmbeddedMiddle.MempoolHandles
import EmbeddedMiddle.TaskCreation

/-!
# The limits of the system

Each manager is a store of as many objects as the number it was initialised
with, whatever happens to the others.  For all kinds but the timers this is the
number that the settings have for them.
-/

namespace EmbeddedMiddle

open Foundation ObjectEvent

/-! ## Managers on a pool -/

section Pools

variable {params : PoolParams}

/-- A timer is known by the index of its block, counted from 1. -/
abbrev timerHandle (k : ℕ) : ℕ := k + 1

/-- A mutex is known by the index of its block. -/
abbrev mutexHandle (k : ℕ) : ℤ := k

theorem emTimerCreate_takes {state : EmTimers} {ids : Finset ℕ}
    (serves : state.tmrmng.mpTimerinfo.Serves params timerHandle ids)
    (setting : EmTimersetting) (id : ℕ) :
    Takes params.capacity ids
      ((emTimerCreate state setting (some id) true).2.2.tmrmng.mpTimerinfo
        |>.Serves params timerHandle)
      (.create (if (emTimerCreate state setting (some id) true).1 = 0
        then (emTimerCreate state setting (some id) true).2.1 else none)) := by
  rcases serves.alloc with
    ⟨k, mp, bound, accepted, called, fits, kept⟩ | ⟨called, fits⟩
  · have timerId : intToUint32 (1 + emMpoolGetDataidx mp (params.address k)) =
        timerHandle k := by
      rw [kept.getDataidx bound]
      unfold intToUint32 timerHandle
      unfold semValueMax intMax at accepted
      omega
    simp only [emTimerCreate, called, timerCreate, EmTimers.assign,
      timerSettime_accepted (Function.update_self ..), timerId, Int.reduceEq,
      Int.reduceNeg, ↓reduceIte]
    exact ⟨fits, kept⟩
  · simp only [emTimerCreate, called, Int.reduceEq, Int.reduceNeg, ↓reduceIte]
    exact ⟨fits, serves⟩

theorem emTimerDelete_takes {state : EmTimers} {ids : Finset ℕ}
    (serves : state.tmrmng.mpTimerinfo.Serves params timerHandle ids)
    {timerId : ℕ} (live : timerId ∈ ids) :
    Takes params.capacity ids
      ((emTimerDelete state timerId).2.tmrmng.mpTimerinfo.Serves params
        timerHandle) (.delete timerId) := by
  obtain ⟨k, mp, bound, accepted, rfl, found, _, freed, kept⟩ :=
    serves.find live
  have index : intToUint32 ((timerHandle k : ℤ) - 1) = k := by
    unfold intToUint32 timerHandle
    unfold semValueMax intMax at accepted
    omega
  simp only [emTimerDelete, index, found, EmTimers.freeBlock, freed]
  exact ⟨live, kept⟩

theorem emMtxmngCreateMutex_takes {mtxm : EmMtxmng} {ids : Finset ℤ}
    (serves : mtxm.mpMutex.Serves params mutexHandle ids) :
    Takes params.capacity ids
      ((emMtxmngCreateMutex mtxm).2.2.mpMutex.Serves params mutexHandle)
      (.create (if 0 ≤ (emMtxmngCreateMutex mtxm).1
        then some (emMtxmngCreateMutex mtxm).1 else none)) := by
  rcases serves.alloc with
    ⟨k, mp, bound, _, called, fits, kept⟩ | ⟨called, fits⟩
  · simp only [emMtxmngCreateMutex, called, kept.getDataidx bound,
      Int.natCast_nonneg, ↓reduceIte]
    exact ⟨fits, kept⟩
  · simp only [emMtxmngCreateMutex, called, Int.reduceNeg, Int.reduceLE,
      ↓reduceIte]
    exact ⟨fits, serves⟩

theorem emMtxmngDeleteMutex_takes {mtxm : EmMtxmng} {ids : Finset ℤ}
    (serves : mtxm.mpMutex.Serves params mutexHandle ids) {mutexId : ℤ}
    (live : mutexId ∈ ids) :
    Takes params.capacity ids
      ((emMtxmngDeleteMutex mtxm mutexId).2.2.mpMutex.Serves params
        mutexHandle) (.delete mutexId) := by
  obtain ⟨k, mp, bound, accepted, rfl, _, freed, _, kept⟩ :=
    serves.find live
  have index : intToUint32 (mutexHandle k) = k :=
    intToUint32_natCast (bound.le.trans accepted)
  simp only [emMtxmngDeleteMutex, index, freed]
  exact ⟨live, kept⟩

/-- Semaphores and events are known by the addresses of their blocks. -/
theorem emSemmngFactory_takes {smm : EmSemmng} {sems : Finset ℤ}
    (serves : smm.mpSemaphore.Serves params params.address sems) {value : ℤ}
    (accepted : 0 ≤ value ∧ value ≤ semValueMax) :
    Takes params.capacity sems
      ((emSemmngFactory smm value true).2.mpSemaphore.Serves params
        params.address) (.create (emSemmngFactory smm value true).1) := by
  rcases serves.alloc with ⟨k, mp, _, _, called, fits, kept⟩ | ⟨called, fits⟩
  · simp only [emSemmngFactory, called, emSemInit, if_pos accepted,
      ↓reduceIte]
    exact ⟨fits, kept⟩
  · simp only [emSemmngFactory, called]
    exact ⟨fits, serves⟩

theorem emSemmngDispose_takes {smm : EmSemmng} {sems : Finset ℤ}
    (serves : smm.mpSemaphore.Serves params params.address sems) {semP : ℤ}
    (live : semP ∈ sems) :
    Takes params.capacity sems
      ((emSemmngDispose smm semP).2.mpSemaphore.Serves params params.address)
      (.delete semP) := by
  obtain ⟨k, mp, _, _, rfl, _, _, freed, kept⟩ := serves.find live
  simp only [emSemmngDispose, freed]
  exact ⟨live, kept⟩

theorem emEvtmngFactory_takes {evtmng : EmEvtmng} {events : Finset ℤ}
    (serves : evtmng.mpEvent.Serves params params.address events) :
    Takes params.capacity events
      ((emEvtmngFactory evtmng true true).2.mpEvent.Serves params
        params.address) (.create (emEvtmngFactory evtmng true true).1) := by
  rcases serves.alloc with ⟨k, mp, _, _, called, fits, kept⟩ | ⟨called, fits⟩
  · simp only [emEvtmngFactory, called]
    exact ⟨fits, kept⟩
  · simp only [emEvtmngFactory, called]
    exact ⟨fits, serves⟩

theorem emEvtmngDispose_takes {evtmng : EmEvtmng} {events : Finset ℤ}
    (serves : evtmng.mpEvent.Serves params params.address events) {evtP : ℤ}
    (live : evtP ∈ events) :
    Takes params.capacity events
      ((emEvtmngDispose evtmng evtP true true).2.mpEvent.Serves params
        params.address) (.delete evtP) := by
  obtain ⟨k, mp, _, _, rfl, _, _, freed, kept⟩ := serves.find live
  have destroyed : ¬ emEventDestroy true true ≠ 0 := by decide
  simp only [emEvtmngDispose, if_neg destroyed, freed]
  exact ⟨live, kept⟩

end Pools

/-! ## Commands -/

/-- The part of a name that is its key. -/
def cmdKey (name : List UInt8) : List UInt8 := name.take emCmdNameLengthMax

/-- The table of commands. -/
def cmdTable (pool : PoolParams) : DatamngParams :=
  ⟨pool, emCmdNameLengthMax, .string, .error⟩

/-- The registered names have different keys, which are those of the table. -/
structure EmCmdmng.Shows (pool : PoolParams) (cm : EmCmdmng)
    (names : Finset (List UInt8)) : Prop where
  shown : ∃ set map, cm.dmCmd.Shows (cmdTable pool) set map ∧
    map.keys = names.image cmdKey
  distinct : ∀ left ∈ names, ∀ right ∈ names,
    cmdKey left = cmdKey right → left = right

section Commands

variable {pool : PoolParams} {cm : EmCmdmng} {names : Finset (List UInt8)}
  {cmdsetting : EmCmdsetting} {cmdName : List UInt8}

theorem cmdTable_keyOf (pool : PoolParams)
    (holds : cmdsetting.cmdName.HoldsText cmdName) (noZero : 0 ∉ cmdName) :
    (cmdTable pool).keyOf cmdsetting.cmdName = cmdKey cmdName :=
  holds.cString_eq_take noZero emCmdNameLengthMax

theorem EmCmdmng.Shows.card_image (shows : cm.Shows pool names) :
    (names.image cmdKey).card = names.card := by
  apply Finset.card_image_of_injOn
  intro left leftMember right rightMember same
  exact shows.distinct left leftMember right rightMember same

theorem EmCmdmng.Shows.card_le (shows : cm.Shows pool names) :
    names.card ≤ pool.capacity := by
  have card := shows.card_image
  obtain ⟨⟨set, map, _, keys⟩, _⟩ := shows
  rw [← card, ← keys]
  exact map.bounded

/-- A name whose key is taken is refused. -/
theorem emCmdRegister_taken (shows : cm.Shows pool names)
    (holds : cmdsetting.cmdName.HoldsText cmdName) (noZero : 0 ∉ cmdName)
    (taken : cmdKey cmdName ∈ names.image cmdKey) (loglevel : ℤ) :
    emCmdRegister cm cmdsetting loglevel =
      if emLogError < loglevel then some (-1, cm) else none := by
  obtain ⟨⟨set, map, shown, keys⟩, _⟩ := shows
  rw [← keys, ← cmdTable_keyOf pool holds noZero] at taken
  exact emCmdRegister_refused (shown.addData_rejected taken rfl _) loglevel

/-- Without room every name is refused. -/
theorem emCmdRegister_full (shows : cm.Shows pool names)
    (holds : cmdsetting.cmdName.HoldsText cmdName) (noZero : 0 ∉ cmdName)
    (full : names.card = pool.capacity) (loglevel : ℤ) :
    emCmdRegister cm cmdsetting loglevel =
      if emLogError < loglevel then some (-1, cm) else none := by
  by_cases taken : cmdKey cmdName ∈ names.image cmdKey
  · exact emCmdRegister_taken shows holds noZero taken loglevel
  · have cardImage := shows.card_image
    obtain ⟨⟨set, map, shown, keys⟩, _⟩ := shows
    have missing : (cmdTable pool).keyOf cmdsetting.cmdName ∉ map.keys := by
      rw [cmdTable_keyOf pool holds noZero, keys]
      exact taken
    have card : map.keys.card = pool.capacity := by
      rw [keys, cardImage, full]
    exact emCmdRegister_refused (shown.addData_full missing card _) loglevel

/-- A name with a new key is registered where there is room. -/
theorem emCmdRegister_new (shows : cm.Shows pool names)
    (holds : cmdsetting.cmdName.HoldsText cmdName) (noZero : 0 ∉ cmdName)
    (room : names.card < pool.capacity)
    (apart : ∀ name ∈ names, cmdKey name ≠ cmdKey cmdName) (loglevel : ℤ) :
    ∃ after, emCmdRegister cm cmdsetting loglevel = some (0, after) ∧
      cmdName ∉ names ∧ after.Shows pool (insert cmdName names) := by
  have cardImage := shows.card_image
  obtain ⟨⟨set, map, shown, keys⟩, distinct⟩ := shows
  have isKey := cmdTable_keyOf pool holds noZero
  have missing : (cmdTable pool).keyOf cmdsetting.cmdName ∉ map.keys := by
    rw [isKey, keys]
    intro taken
    obtain ⟨name, member, same⟩ := Finset.mem_image.mp taken
    exact apart name member same
  have few : map.keys.card < pool.capacity := by
    rw [keys, cardImage]
    exact room
  obtain ⟨_, after, place, added, _, kept⟩ :=
    shown.addData_room missing few cmdsetting
  refine ⟨_, emCmdRegister_added added loglevel, ?_, ⟨_, _, kept, ?_⟩, ?_⟩
  · intro member
    exact apart cmdName member rfl
  · change insert _ map.keys = _
    rw [isKey, keys]
    exact (Finset.image_insert _ _ _).symm
  · intro left leftMember right rightMember same
    rcases Finset.mem_insert.mp leftMember with rfl | leftOld
    · rcases Finset.mem_insert.mp rightMember with rfl | rightOld
      · rfl
      · exact absurd same.symm (apart right rightOld)
    · rcases Finset.mem_insert.mp rightMember with rfl | rightOld
      · exact absurd same (apart left leftOld)
      · exact distinct left leftOld right rightOld same

/-- What is not a registration under a key that is taken is answered by the
room in the table, if the answer is defined. -/
theorem emCmdRegister_takes (shows : cm.Shows pool names)
    (holds : cmdsetting.cmdName.HoldsText cmdName) (noZero : 0 ∉ cmdName)
    (apart : names.card < pool.capacity →
      ∀ name ∈ names, cmdKey name ≠ cmdKey cmdName)
    {loglevel ret : ℤ} {after : EmCmdmng}
    (called : emCmdRegister cm cmdsetting loglevel = some (ret, after)) :
    Takes pool.capacity names (after.Shows pool) (createdIf ret cmdName) := by
  rcases shows.card_le.lt_or_eq with room | full
  · obtain ⟨next, succeeds, new, kept⟩ :=
      emCmdRegister_new shows holds noZero room (apart room) loglevel
    obtain ⟨rfl, rfl⟩ : 0 = ret ∧ next = after := by
      simpa using succeeds.symm.trans called
    exact ⟨⟨new, room⟩, kept⟩
  · rw [emCmdRegister_full shows holds noZero full] at called
    split_ifs at called
    obtain ⟨rfl, rfl⟩ : -1 = ret ∧ cm = after := by
      simpa using called
    exact ⟨full, shows⟩

end Commands

/-! ## Tasks -/

/-- The table has the tasks with these identifiers. -/
def EmTaskmng.Shows (params : DatamngParams) (tm : EmTaskmng)
    (ids : Finset EmTaskid) : Prop :=
  ∃ table, tm.taskinfoMng.Table params table ∧
    (∀ taskId, taskId ∈ ids ↔ table (ulongOfTaskid taskId) ≠ none) ∧
    ∀ id, table id ≠ none → ∃ taskId, id = ulongOfTaskid taskId

section Tasks

variable {params : DatamngParams} {tm : EmTaskmng} {ids : Finset EmTaskid}

theorem EmTaskmng.Shows.numUsed_eq (shows : tm.Shows params ids) :
    tm.taskinfoMng.mp.numUsed = ids.card ∧
      tm.taskinfoMng.mp.numMax = params.pool.capacity ∧
      ids.card ≤ params.pool.capacity := by
  obtain ⟨table, ⟨set, map, isTable⟩, members, tasks⟩ := shows
  have settled := isTable.shows.represents.settled
  have keys : map.keys =
      ids.image (fun taskId => params.idKey (ulongOfTaskid taskId)) := by
    ext key
    rw [map.mem_keys, Finset.mem_image]
    constructor
    · intro present
      obtain ⟨entry, isEntry⟩ := Option.isSome_iff_exists.mp present
      obtain ⟨_, id, rfl⟩ := isTable.single key entry isEntry
      have used : table id ≠ none := by
        rw [isTable.table_eq, isEntry]
        simp
      obtain ⟨taskId, rfl⟩ := tasks id used
      exact ⟨taskId, (members taskId).mpr used, rfl⟩
    · rintro ⟨taskId, member, rfl⟩
      have used := (members taskId).mp member
      obtain ⟨value, isValue⟩ := Option.ne_none_iff_exists'.mp used
      obtain ⟨entry, isEntry, _⟩ := isTable.entry isValue
      rw [isEntry]
      rfl
  have card : map.keys.card = ids.card := by
    rw [keys, Finset.card_image_of_injective]
    intro left right same
    exact ulongOfTaskid_injective (isTable.forIds.idKey_injective same)
  refine ⟨?_, settled.numMax_eq, ?_⟩
  · rw [settled.numUsed_eq, ← card, isTable.shows.card_eq]
  · rw [← card]
    exact map.bounded

theorem EmTaskmng.Shows.full_iff (shows : tm.Shows params ids) :
    tm.full = true ↔ ids.card = params.pool.capacity := by
  obtain ⟨used, most, _⟩ := shows.numUsed_eq
  rw [EmTaskmng.full, beq_iff_eq, used, most]

theorem emTaskCreate_takes (shows : tm.Shows params ids)
    {tasksetting : EmTasksetting} (new : tasksetting.taskId ∉ ids)
    (thread : UInt64) (memory : TaskMemory) :
    Takes params.pool.capacity ids
      ((emTaskCreate tm tasksetting (some thread) memory).2.Shows params)
      (createdIf (emTaskCreate tm tasksetting (some thread) memory).1
        tasksetting.taskId) := by
  cases full : tm.full with
  | true =>
      rw [emTaskCreate_full full]
      exact ⟨shows.full_iff.mp full, shows⟩
  | false =>
      have room : ids.card < params.pool.capacity := by
        obtain ⟨_, _, atMost⟩ := shows.numUsed_eq
        refine lt_of_le_of_ne atMost fun isFull => ?_
        rw [shows.full_iff.mpr isFull] at full
        cases full
      obtain ⟨table, holds, members, tasks⟩ := shows
      obtain ⟨ret, after, entry, called, _, kept, _, succeeds, _⟩ :=
        emTaskCreate_room holds full tasksetting (some thread) memory
      obtain ⟨rfl, info, rfl, _⟩ := succeeds thread rfl
      rw [called]
      refine ⟨⟨new, room⟩, _, kept, ?_, ?_⟩
      · intro taskId
        by_cases same : taskId = tasksetting.taskId
        · simp [createdIf, ObjectEvent.after, same]
        · rw [Function.update_of_ne
            (fun ulongs => same (ulongOfTaskid_injective ulongs)),
            ← members taskId]
          simp [createdIf, ObjectEvent.after, same]
      · intro id used
        by_cases same : id = ulongOfTaskid tasksetting.taskId
        · exact ⟨_, same⟩
        · rw [Function.update_of_ne same] at used
          exact tasks id used

theorem emTaskDelete_takes (shows : tm.Shows params ids)
    {taskId : EmTaskid} (live : taskId ∈ ids) (taskinfo : EmTaskinfo) :
    Takes params.pool.capacity ids
      ((emTaskDelete tm taskId taskinfo).tm.Shows params)
      (.delete taskId) := by
  obtain ⟨table, holds, members, tasks⟩ := shows
  obtain ⟨info, used⟩ :=
    Option.ne_none_iff_exists'.mp ((members taskId).mp live)
  obtain ⟨_, _, kept⟩ := emTaskDelete_used holds used taskinfo
  refine ⟨live, _, kept, ?_, ?_⟩
  · intro other
    by_cases same : other = taskId
    · simp [ObjectEvent.after, same]
    · rw [Function.update_of_ne
        (fun ulongs => same (ulongOfTaskid_injective ulongs)), ← members other]
      simp [ObjectEvent.after, same]
  · intro id present
    by_cases same : id = ulongOfTaskid taskId
    · exact ⟨_, same⟩
    · rw [Function.update_of_ne same] at present
      exact tasks id present

end Tasks

end EmbeddedMiddle
