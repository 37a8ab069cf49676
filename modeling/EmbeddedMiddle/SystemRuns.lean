import EmbeddedMiddle.SystemLimits
import EmbeddedMiddle.Foundation.Transition

/-!
# Runs of the system

The managers that `em_sysmng_init` makes answer every creation by the number
that they were made for.  The timers were made for the number of mutexes.
-/

namespace EmbeddedMiddle

open Foundation

/-! ## All kinds -/

/-- The limit that the settings have for a kind. -/
def EmSysmngStg.limit (setting : EmSysmngStg) : ObjectKind → ℕ
  | .timer => setting.maxNumTimer.toNat
  | .mutex => setting.maxNumMutex.toNat
  | .sem => setting.maxNumSem.toNat
  | .event => setting.maxNumEvent.toNat
  | .cmd => setting.maxNumCmd.toNat
  | .task => setting.maxNumTask.toNat

/-- The kind whose limit `em_sysmng_init` passes on. -/
def ObjectKind.passed : ObjectKind → ObjectKind
  | .timer => .mutex
  | kind => kind

def sizeofObject : ObjectKind → ℕ
  | .timer => sizeofTimerinfo
  | .mutex => sizeofMutex
  | .sem => sizeofSem
  | .event => sizeofEvent
  | .cmd => sizeofCmdsetting
  | .task => sizeofTaskinfo

/-- The limits are positive, and the sizes of the pools are those of `uint`; the
memory manager has records. -/
structure EmSysmngStg.Accepted (setting : EmSysmngStg) : Prop where
  records : 0 < setting.memAllocNum ∧
    sizeofMeminfo * setting.memAllocNum.toNat < 4294967296
  positive : ∀ kind, 0 < setting.limit kind
  fits : ∀ kind : ObjectKind,
    sizeofObject kind * setting.limit kind.passed < 4294967296

def SysmngRegions.rawdata (regions : SysmngRegions) : ObjectKind → ℤ
  | .timer => regions.timerinfo
  | .mutex => regions.mutex
  | .sem => regions.sem
  | .event => regions.event
  | .cmd => regions.cmd
  | .task => regions.task

/-- The pool of a kind. -/
def EmSysmngStg.pool (setting : EmSysmngStg) (regions : SysmngRegions)
    (kind : ObjectKind) : PoolParams :=
  ⟨setting.limit kind.passed, sizeofObject kind, regions.rawdata kind⟩

/-- The manager of a kind has these objects. -/
def EmSysmng.Shows (setting : EmSysmngStg) (regions : SysmngRegions)
    (kind : ObjectKind) (sysmng : EmSysmng) : Finset kind.Handle → Prop :=
  match kind with
  | .timer => sysmng.tmrmng.tmrmng.mpTimerinfo.Serves
      (setting.pool regions .timer) timerHandle
  | .mutex => sysmng.mtxmng.mpMutex.Serves
      (setting.pool regions .mutex) mutexHandle
  | .sem => sysmng.semmng.mpSemaphore.Serves
      (setting.pool regions .sem) (setting.pool regions .sem).address
  | .event => sysmng.evtmng.mpEvent.Serves
      (setting.pool regions .event) (setting.pool regions .event).address
  | .cmd => sysmng.cmdmng.Shows (setting.pool regions .cmd)
  | .task => sysmng.tskmng.Shows (taskTable (setting.limit .task)
      sizeofTaskinfo regions.task)

/-! ## Initialisation -/

section Init

variable {setting : EmSysmngStg} (regions : SysmngRegions)

namespace EmSysmngStg.Accepted

theorem distinct (accepted : setting.Accepted) (kind : ObjectKind) :
    (setting.pool regions kind).Distinct := by
  refine ⟨?_, accepted.fits kind⟩
  cases kind <;> exact Nat.succ_pos _

theorem capacity_le (accepted : setting.Accepted) (kind : ObjectKind) :
    setting.limit kind.passed ≤ semValueMax := by
  have fits := accepted.fits kind
  unfold semValueMax intMax
  cases kind <;>
    simp only [sizeofObject, sizeofTimerinfo, sizeofMutex, sizeofSem,
      sizeofEvent, sizeofCmdsetting, sizeofTaskinfo] at fits <;>
    omega

/-- The conversion to `uint` of the number that is passed on. -/
theorem intToUint32_eq (accepted : setting.Accepted) (kind : ObjectKind)
    {number : ℤ} (isLimit : setting.limit kind.passed = number.toNat) :
    intToUint32 number = setting.limit kind.passed := by
  have positive := accepted.positive kind.passed
  have atMost := accepted.capacity_le kind
  have isNumber : number = (setting.limit kind.passed : ℤ) := by omega
  rw [isNumber]
  exact intToUint32_natCast atMost

theorem taskTable_valid (accepted : setting.Accepted) :
    (taskTable (setting.limit .task) sizeofTaskinfo regions.task).Valid := by
  refine ⟨accepted.distinct regions .task, accepted.positive .task,
    accepted.capacity_le .task, ?_⟩
  have fits := accepted.fits .task
  change sizeofUlong * setting.limit .task < 4294967296
  simp only [sizeofObject, sizeofTaskinfo, ObjectKind.passed] at fits
  unfold sizeofUlong
  omega

end EmSysmngStg.Accepted

end Init

/-! ## Steps -/

namespace SysState

/-- The number of live timers is below both limits or neither.  A name is told
from the registered ones by its key, if there is room for it, and otherwise its
refusal is not logged; the name of a task that is created is short, and tasks
that are deleted have queues. -/
def WithinLimits (setting : EmSysmngStg) (before : SysState)
    (label : SysCall × KindEvent ObjectKind.Handle) : Prop :=
  match label.1 with
  | .timerCreate _ _ =>
      (before.live .timer).card < setting.limit .timer ↔
        (before.live .timer).card < setting.limit .mutex
  | .cmdRegister _ cmdName loglevel =>
      if (before.live .cmd).card < setting.limit .cmd then
        ∀ name ∈ before.live .cmd, cmdKey name ≠ cmdKey cmdName
      else emLogError < loglevel
  | .taskCreate tasksetting _ _ =>
      (before.live .task).card < setting.limit .task →
        tasksetting.taskName.length < sizeofTaskName
  | .taskDelete _ _ => 0 < before.sysmng.tskmng.msgdataSize
  | _ => True

/-- The call is defined, and a creation succeeds exactly when fewer objects of
its kind are live than the settings allow. -/
def Answered (setting : EmSysmngStg) (before : SysState)
    (label : SysCall × KindEvent ObjectKind.Handle) (_ : SysState) : Prop :=
  (before.sysmng.call label.1).isSome = true ∧
    label.2.2.Answered (setting.limit label.2.1) (before.live label.2.1)

end SysState

section Steps

variable {setting : EmSysmngStg} {regions : SysmngRegions}
  {state : SysState} {call : SysCall}
  {result : KindEvent ObjectKind.Handle × EmSysmng}

/-- A call is about one kind of object. -/
theorem EmSysmng.call_others {sysmng : EmSysmng}
    (called : sysmng.call call = some result) {kind : ObjectKind}
    (other : kind ≠ result.1.1) {handles : Finset kind.Handle}
    (shows : sysmng.Shows setting regions kind handles) :
    result.2.Shows setting regions kind handles := by
  cases call <;> simp only [EmSysmng.call] at called <;>
    try split at called
  all_goals
    cases called
    try cases kind <;> first | exact shows | exact absurd rfl other

/-- What is not a registration under a key that is taken is answered by the
number that the manager was made for. -/
theorem SysState.call_takes
    (shows : ∀ kind, state.sysmng.Shows setting regions kind (state.live kind))
    (allowed : state.Allowed call)
    (apart : ∀ cmdsetting cmdName loglevel,
      call = .cmdRegister cmdsetting cmdName loglevel →
      (state.live .cmd).card < setting.limit .cmd →
        ∀ name ∈ state.live .cmd, cmdKey name ≠ cmdKey cmdName)
    (called : state.sysmng.call call = some result) :
    ObjectEvent.Takes (setting.limit result.1.1.passed)
      (state.live result.1.1)
      (result.2.Shows setting regions result.1.1) result.1.2 := by
  cases call with
  | timerCreate timersetting id =>
      cases called
      exact emTimerCreate_takes (shows .timer) timersetting id
  | timerDelete timerId =>
      cases called
      exact emTimerDelete_takes (shows .timer) allowed
  | mutexCreate =>
      cases called
      exact emMtxmngCreateMutex_takes (shows .mutex)
  | mutexDelete mutexId =>
      cases called
      exact emMtxmngDeleteMutex_takes (shows .mutex) allowed
  | semFactory value =>
      cases called
      exact emSemmngFactory_takes (shows .sem) allowed
  | semDispose semP =>
      cases called
      exact emSemmngDispose_takes (shows .sem) allowed
  | evtFactory =>
      cases called
      exact emEvtmngFactory_takes (shows .event)
  | evtDispose evtP =>
      cases called
      exact emEvtmngDispose_takes (shows .event) allowed
  | cmdRegister cmdsetting cmdName loglevel =>
      obtain ⟨holds, noZero, _⟩ := allowed
      simp only [EmSysmng.call] at called
      split at called
      · cases called
      · next ret cmdmng registered =>
          cases called
          exact emCmdRegister_takes (shows .cmd) holds noZero
            (apart cmdsetting cmdName loglevel rfl) registered
  | taskCreate tasksetting thread memory =>
      simp only [EmSysmng.call] at called
      split at called
      · cases called
      · cases called
        exact emTaskCreate_takes (shows .task) allowed thread memory
  | taskDelete taskId taskinfo =>
      simp only [EmSysmng.call] at called
      split at called
      · cases called
      · cases called
        exact emTaskDelete_takes (shows .task) allowed taskinfo

theorem SysState.Step.call_eq {before after : SysState}
    {event : KindEvent ObjectKind.Handle}
    (taken : before.Step (call, event) after)
    (called : before.sysmng.call call = some result) :
    result.1 = event ∧ result.2 = after.sysmng ∧
      after.live = before.live.after event := by
  obtain ⟨same, live⟩ := taken.2 result called
  rw [same]
  exact ⟨rfl, rfl, live⟩

/-- A registration is defined and answered as the limit says exactly under the
condition. -/
theorem SysState.cmdRegister_answered_iff
    (shows : state.sysmng.Shows setting regions .cmd (state.live .cmd))
    {cmdsetting : EmCmdsetting} {cmdName : List UInt8} {loglevel : ℤ}
    {event : KindEvent ObjectKind.Handle} {after : SysState}
    (taken : state.Step (.cmdRegister cmdsetting cmdName loglevel, event)
      after) :
    SysState.Answered setting state
        (.cmdRegister cmdsetting cmdName loglevel, event) after ↔
      SysState.WithinLimits setting state
        (.cmdRegister cmdsetting cmdName loglevel, event) := by
  obtain ⟨holds, noZero, _⟩ := taken.1
  -- A refusal is defined where it is not logged; then it creates nothing.
  have refused (registered : emCmdRegister state.sysmng.cmdmng cmdsetting
      loglevel = if emLogError < loglevel then
        some (-1, state.sysmng.cmdmng) else none) :
      SysState.Answered setting state
          (.cmdRegister cmdsetting cmdName loglevel, event) after ↔
        emLogError < loglevel ∧
          ¬ (state.live .cmd).card < setting.limit .cmd := by
    by_cases quiet : emLogError < loglevel
    · rw [if_pos quiet] at registered
      have called : state.sysmng.call
          (.cmdRegister cmdsetting cmdName loglevel) =
            some (⟨.cmd, .create none⟩, state.sysmng) := by
        simp only [EmSysmng.call, registered]
        rfl
      obtain ⟨rfl, _⟩ := taken.call_eq called
      simp [SysState.Answered, called, ObjectEvent.Answered, quiet]
    · rw [if_neg quiet] at registered
      simp [SysState.Answered, EmSysmng.call, registered, quiet]
  rcases shows.card_le.lt_or_eq with room | full
  · have hasRoom : (state.live .cmd).card < setting.limit .cmd := room
    simp only [SysState.WithinLimits, if_pos hasRoom]
    by_cases apart : ∀ name ∈ state.live .cmd,
        cmdKey name ≠ cmdKey cmdName
    · refine iff_of_true ?_ apart
      obtain ⟨cmdmng, registered, _⟩ :=
        emCmdRegister_new shows holds noZero room apart loglevel
      have called : state.sysmng.call
          (.cmdRegister cmdsetting cmdName loglevel) =
            some (⟨.cmd, .create (some cmdName)⟩,
              { state.sysmng with cmdmng }) := by
        simp only [EmSysmng.call, registered]
        rfl
      obtain ⟨rfl, _⟩ := taken.call_eq called
      refine ⟨by simp [called], iff_of_true rfl room⟩
    · refine iff_of_false ?_ apart
      push Not at apart
      obtain ⟨name, member, same⟩ := apart
      have isTaken : cmdKey cmdName ∈ (state.live .cmd).image cmdKey :=
        same ▸ Finset.mem_image_of_mem cmdKey member
      rw [refused (emCmdRegister_taken shows holds noZero isTaken loglevel)]
      exact fun answered => answered.2 room
  · have noRoom : ¬ (state.live .cmd).card < setting.limit .cmd :=
      full.not_lt
    simp only [SysState.WithinLimits, if_neg noRoom]
    rw [refused (emCmdRegister_full shows holds noZero full loglevel)]
    exact and_iff_left noRoom

theorem SysState.taskCreate_answered_iff
    (shows : state.sysmng.Shows setting regions .task (state.live .task))
    {tasksetting : EmTasksetting} {thread : UInt64} {memory : TaskMemory}
    {event : KindEvent ObjectKind.Handle} {after : SysState}
    (taken : state.Step (.taskCreate tasksetting thread memory, event)
      after) :
    SysState.Answered setting state
        (.taskCreate tasksetting thread memory, event) after ↔
      SysState.WithinLimits setting state
        (.taskCreate tasksetting thread memory, event) := by
  have atMost : (state.live .task).card ≤ setting.limit .task :=
    shows.numUsed_eq.2.2
  have notFull : state.sysmng.tskmng.full = false ↔
      (state.live .task).card < setting.limit .task := by
    rw [← Bool.not_eq_true, shows.full_iff]
    exact ⟨fun notFull => lt_of_le_of_ne atMost notFull, fun room => room.ne⟩
  by_cases defined : state.sysmng.tskmng.full = false ∧
      sizeofTaskName ≤ tasksetting.taskName.length
  · refine iff_of_false ?_ ?_
    · rintro ⟨isSome, _⟩
      simp [EmSysmng.call, defined] at isSome
    · intro short
      exact absurd (short (notFull.mp defined.1)) (not_lt.mpr defined.2)
  · refine iff_of_true ?_ ?_
    · have called : state.sysmng.call
          (.taskCreate tasksetting thread memory) = some (⟨.task, createdIf
            (emTaskCreate state.sysmng.tskmng tasksetting (some thread)
              memory).1 tasksetting.taskId⟩, { state.sysmng with
            tskmng := (emTaskCreate state.sysmng.tskmng tasksetting
              (some thread) memory).2 }) := if_neg defined
      obtain ⟨rfl, _⟩ := taken.call_eq called
      exact ⟨by simp [called],
        (emTaskCreate_takes shows taken.1 thread memory).fits.answered⟩
    · intro room
      by_contra long
      exact defined ⟨notFull.mpr room, not_lt.mp long⟩

theorem SysState.Step.answered_iff {before after : SysState}
    {event : KindEvent ObjectKind.Handle}
    (shows : ∀ kind,
      before.sysmng.Shows setting regions kind (before.live kind))
    (taken : before.Step (call, event) after) :
    SysState.Answered setting before (call, event) after ↔
      SysState.WithinLimits setting before (call, event) := by
  -- What a call that is defined creates is decided by the room.
  have answered {result : KindEvent ObjectKind.Handle × EmSysmng}
      (called : before.sysmng.call call = some result)
      (other : ∀ cmdsetting cmdName loglevel,
        call ≠ .cmdRegister cmdsetting cmdName loglevel) :
      result.1.2.Answered (setting.limit result.1.1.passed)
        (before.live result.1.1) :=
    (SysState.call_takes shows taken.1
      (fun _ _ _ same => absurd same (other _ _ _)) called).fits.answered
  cases call with
  | timerCreate timersetting id =>
      obtain ⟨rfl, _⟩ := taken.call_eq rfl
      rw [SysState.Answered, and_iff_right (by rfl)]
      exact (emTimerCreate_takes (shows .timer) timersetting
        id).fits.answered_iff
  | cmdRegister cmdsetting cmdName loglevel =>
      exact SysState.cmdRegister_answered_iff (shows .cmd) taken
  | taskCreate tasksetting thread memory =>
      exact SysState.taskCreate_answered_iff (shows .task) taken
  | taskDelete taskId taskinfo =>
      by_cases available : before.sysmng.tskmng.msgdataSize ≤ 0
      · refine iff_of_false ?_ (Int.not_lt.mpr available)
        rintro ⟨isSome, _⟩
        simp [EmSysmng.call, available] at isSome
      · have called : before.sysmng.call (.taskDelete taskId taskinfo) =
            some (⟨.task, .delete taskId⟩, { before.sysmng with
              tskmng := (emTaskDelete before.sysmng.tskmng taskId
                taskinfo).tm }) := if_neg available
        obtain ⟨rfl, _⟩ := taken.call_eq called
        exact iff_of_true ⟨by simp [called], trivial⟩
          (Int.not_le.mp available)
  | _ =>
      obtain ⟨rfl, _⟩ := taken.call_eq rfl
      exact iff_of_true ⟨rfl, answered rfl nofun⟩ trivial

/-- The managers go on with the objects that are live. -/
theorem SysState.Step.shows {before after : SysState}
    {event : KindEvent ObjectKind.Handle}
    (shows : ∀ kind,
      before.sysmng.Shows setting regions kind (before.live kind))
    (within : before.WithinLimits setting (call, event))
    (taken : before.Step (call, event) after) :
    ∀ kind, after.sysmng.Shows setting regions kind (after.live kind) := by
  obtain ⟨defined, _⟩ := (taken.answered_iff shows).mpr within
  obtain ⟨result, called⟩ := Option.isSome_iff_exists.mp defined
  obtain ⟨rfl, sysmng, live⟩ := taken.call_eq called
  rw [live, ← sysmng]
  refine LiveObjects.shows_after shows ?_ ?_
  · refine (SysState.call_takes shows taken.1 ?_ called).shows
    rintro cmdsetting cmdName loglevel rfl room
    have apart := within
    simp only [SysState.WithinLimits, if_pos room] at apart
    exact apart
  · intro kind handles other shown
    exact EmSysmng.call_others called other shown

end Steps

/-! ## Runs -/

/-- Settings with these limits for timers and mutexes, and 1 for the others. -/
def EmSysmngStg.sample (maxNumTimer maxNumMutex : ℤ) : EmSysmngStg where
  maxNumMutex := maxNumMutex
  maxNumSem := 1
  maxNumEvent := 1
  maxNumTimer := maxNumTimer
  maxNumCmd := 1
  maxNumTask := 1
  sizeMsgdata := 4
  memBlockSize := 64
  memBlockNum := 16
  memAllocNum := 8
  memStatic := none

end EmbeddedMiddle
