import EmbeddedMiddle.Command
import EmbeddedMiddle.EventFlag
import EmbeddedMiddle.EventManager
import EmbeddedMiddle.Malloc
import EmbeddedMiddle.Mtxmng
import EmbeddedMiddle.Semmng
import EmbeddedMiddle.Task
import EmbeddedMiddle.Timer
import EmbeddedMiddle.Foundation.LimitedStore

/-!
# The system

`em_system.c`: the managers of a program, all made from one settings record,
and the calls that create and delete their objects.
-/

namespace EmbeddedMiddle

open Foundation

/-- `em_sysmng_stg_t` without the two functions; `mem_static` may be NULL. -/
structure EmSysmngStg where
  maxNumMutex : ℤ
  maxNumSem : ℤ
  maxNumEvent : ℤ
  maxNumTimer : ℤ
  maxNumCmd : ℤ
  maxNumTask : ℤ
  sizeMsgdata : ℤ
  memBlockSize : ℤ
  memBlockNum : ℤ
  memAllocNum : ℤ
  memStatic : Option ℤ
  deriving DecidableEq

/-- The timers of the operating system stand beside their manager. -/
structure EmSysmng where
  memmng : EmMemmng
  tmrmng : EmTimers
  mtxmng : EmMtxmng
  semmng : EmSemmng
  evtmng : EmEvtmng
  tskmng : EmTaskmng
  cmdmng : EmCmdmng
  ef : EmEventflg
  deriving Inhabited

/-- `sizeof(_em_taskinfo_t)` on a 64-bit system. -/
def sizeofTaskinfo : ℕ := 192

/-- The regions that `malloc` and `alloc_func` give, with what they hold where
that is looked at. -/
structure SysmngRegions where
  memmng : EmMemmngRegions
  timerinfo : ℤ
  islock : ℤ → ℤ
  mutex : ℤ
  sem : ℤ
  event : ℤ
  cmdKeymem : Bytes
  cmd : ℤ
  cmdBlockPtr : ℕ → ℕ
  cmdRawdata : Bytes
  taskKeymem : Bytes
  task : ℤ
  deriving Inhabited

/-- `ticked` and `flagged` are whether the calls of the system in `em_tick_init`
and `em_eventflag_init` succeed; `em_memmng_create` always returns 0.  The
timers get the number of mutexes. -/
def emSysmngInit (sysmng : EmSysmng) (setting : EmSysmngStg)
    (regions : SysmngRegions) (ticked flagged : Bool) : ℤ × EmSysmng :=
  if !ticked then (-1, sysmng)
  else
    let memmng := emMemmngCreate sysmng.memmng setting.memBlockSize.toNat
      setting.memBlockNum.toNat (intToUint32 setting.memAllocNum)
      setting.memStatic regions.memmng
    let sysmng := { sysmng with memmng }
    let (ret, tmrmng) := emTimermngInit sysmng.tmrmng.tmrmng
      setting.maxNumMutex regions.timerinfo
    let sysmng := { sysmng with tmrmng.tmrmng := tmrmng }
    if ret ≠ 0 then (-1, sysmng)
    else
      let (ret, mtxmng) := emMtxmngInit sysmng.mtxmng setting.maxNumMutex
        regions.islock regions.mutex
      let sysmng := { sysmng with mtxmng }
      if ret ≠ 0 then (-1, sysmng)
      else
        let (ret, semmng) := emSemmngInit sysmng.semmng setting.maxNumSem
          regions.sem
        let sysmng := { sysmng with semmng }
        if ret ≠ 0 then (-1, sysmng)
        else
          let (ret, evtmng) := emEvtmngInit sysmng.evtmng
            (intToUint32 setting.maxNumEvent) regions.event
          let sysmng := { sysmng with evtmng }
          if ret ≠ 0 then (-1, sysmng)
          else
            let (ret, cmdmng) := emCmdInit sysmng.cmdmng setting.maxNumCmd
              regions.cmdKeymem regions.cmd regions.cmdBlockPtr
              regions.cmdRawdata
            let sysmng := { sysmng with cmdmng }
            if ret ≠ 0 then (-1, sysmng)
            else
              let (ret, tskmng) := emTaskmngInit sysmng.tskmng
                (intToUint32 setting.maxNumTask) setting.sizeMsgdata
                sizeofTaskinfo regions.taskKeymem regions.task
              let sysmng := { sysmng with tskmng }
              if ret ≠ 0 then (-1, sysmng)
              else if !flagged then (-1, sysmng)
              else (0, { sysmng with ef := emEventflagInit })

/-! ## The objects -/

inductive ObjectKind where
  | timer
  | mutex
  | sem
  | event
  | cmd
  | task
  deriving DecidableEq, Repr

/-- By what an object is known: the identifier of a timer, the number of a
mutex, the pointer to a semaphore or an event, the name of a command, the
identifier of a task. -/
abbrev ObjectKind.Handle : ObjectKind → Type
  | .timer => ℕ
  | .mutex => ℤ
  | .sem => ℤ
  | .event => ℤ
  | .cmd => List UInt8
  | .task => EmTaskid

instance (kind : ObjectKind) : DecidableEq kind.Handle :=
  match kind with
  | .timer => inferInstanceAs (DecidableEq ℕ)
  | .mutex => inferInstanceAs (DecidableEq ℤ)
  | .sem => inferInstanceAs (DecidableEq ℤ)
  | .event => inferInstanceAs (DecidableEq ℤ)
  | .cmd => inferInstanceAs (DecidableEq (List UInt8))
  | .task => inferInstanceAs (DecidableEq EmTaskid)

/-- A creation or deletion.  `id` is the timer of the system that is created;
`cmdName` is the text behind the pointer in the setting, and `loglevel` the
level of the log at that time; `thread` is the thread that is created;
`taskinfo` and `memory` are as in `em_task.c`. -/
inductive SysCall where
  | timerCreate (setting : EmTimersetting) (id : ℕ)
  | timerDelete (timerId : ℕ)
  | mutexCreate
  | mutexDelete (mutexId : ℤ)
  | semFactory (value : ℤ)
  | semDispose (semP : ℤ)
  | evtFactory
  | evtDispose (evtP : ℤ)
  | cmdRegister (cmdsetting : EmCmdsetting) (cmdName : List UInt8)
      (loglevel : ℤ)
  | taskCreate (tasksetting : EmTasksetting) (thread : UInt64)
      (memory : TaskMemory)
  | taskDelete (taskId : EmTaskid) (taskinfo : EmTaskinfo)

/-- The answer of a creation that returns 0, or -1. -/
def createdIf {Handle : Type} (ret : ℤ) (handle : Handle) :
    ObjectEvent Handle :=
  .create (if ret = 0 then some handle else none)

/-- The bytes of `task_name` in `_em_taskinfo_t`. -/
def sizeofTaskName : ℕ := 32

/-- What a call does when the system does what it is asked for, and what it
says: the handle of a new object or that of the one to be deleted.  It is `none`
where that is undefined: besides `em_cmd_register`, `em_task_create` copies a
name without looking at its length, and `em_task_delete` destroys a queue also
where tasks have none. -/
def EmSysmng.call (sysmng : EmSysmng) :
    SysCall → Option (KindEvent ObjectKind.Handle × EmSysmng)
  | .timerCreate setting id =>
      let (ret, timerId, tmrmng) := emTimerCreate sysmng.tmrmng setting
        (some id) true
      some (⟨.timer, .create (if ret = 0 then timerId else none)⟩,
        { sysmng with tmrmng })
  | .timerDelete timerId =>
      some (⟨.timer, .delete timerId⟩,
        { sysmng with tmrmng := (emTimerDelete sysmng.tmrmng timerId).2 })
  | .mutexCreate =>
      let (ret, _, mtxmng) := emMtxmngCreateMutex sysmng.mtxmng
      some (⟨.mutex, .create (if 0 ≤ ret then some ret else none)⟩,
        { sysmng with mtxmng })
  | .mutexDelete mutexId =>
      some (⟨.mutex, .delete mutexId⟩, { sysmng with
        mtxmng := (emMtxmngDeleteMutex sysmng.mtxmng mutexId).2.2 })
  | .semFactory value =>
      let (sem, semmng) := emSemmngFactory sysmng.semmng value true
      some (⟨.sem, .create sem⟩, { sysmng with semmng })
  | .semDispose semP =>
      some (⟨.sem, .delete semP⟩, { sysmng with
        semmng := (emSemmngDispose sysmng.semmng semP).2 })
  | .evtFactory =>
      let (event, evtmng) := emEvtmngFactory sysmng.evtmng true true
      some (⟨.event, .create event⟩, { sysmng with evtmng })
  | .evtDispose evtP =>
      some (⟨.event, .delete evtP⟩, { sysmng with
        evtmng := (emEvtmngDispose sysmng.evtmng evtP true true).2 })
  | .cmdRegister cmdsetting cmdName loglevel =>
      match emCmdRegister sysmng.cmdmng cmdsetting loglevel with
      | none => none
      | some (ret, cmdmng) =>
          some (⟨.cmd, createdIf ret cmdName⟩, { sysmng with cmdmng })
  | .taskCreate tasksetting thread memory =>
      if sysmng.tskmng.full = false ∧
          sizeofTaskName ≤ tasksetting.taskName.length then none
      else
        let (ret, tskmng) := emTaskCreate sysmng.tskmng tasksetting
          (some thread) memory
        some (⟨.task, createdIf ret tasksetting.taskId⟩, { sysmng with tskmng })
  | .taskDelete taskId taskinfo =>
      if sysmng.tskmng.msgdataSize ≤ 0 then none
      else
        some (⟨.task, .delete taskId⟩, { sysmng with
          tskmng := (emTaskDelete sysmng.tskmng taskId taskinfo).tm })

/-- The managers, with the objects that are live. -/
structure SysState where
  sysmng : EmSysmng
  live : LiveObjects ObjectKind.Handle

namespace SysState

/-- The timer of the system is a new one and `sem_init` is asked for a value
that it has; names of commands and identifiers of tasks are new; what is deleted
is live. -/
def Allowed (state : SysState) : SysCall → Prop
  | .timerCreate _ id => state.sysmng.tmrmng.timers id = none
  | .timerDelete timerId => timerId ∈ state.live .timer
  | .mutexCreate => True
  | .mutexDelete mutexId => mutexId ∈ state.live .mutex
  | .semFactory value => 0 ≤ value ∧ value ≤ semValueMax
  | .semDispose semP => semP ∈ state.live .sem
  | .evtFactory => True
  | .evtDispose evtP => evtP ∈ state.live .event
  | .cmdRegister cmdsetting cmdName _ =>
      cmdsetting.cmdName.HoldsText cmdName ∧ 0 ∉ cmdName ∧
        cmdName ∉ state.live .cmd
  | .taskCreate tasksetting _ _ => tasksetting.taskId ∉ state.live .task
  | .taskDelete taskId _ => taskId ∈ state.live .task

/-- A call with the event it shows.  After a call that is undefined there may be
anything. -/
def Step (before : SysState) (label : SysCall × KindEvent ObjectKind.Handle)
    (after : SysState) : Prop :=
  before.Allowed label.1 ∧
    ∀ result, before.sysmng.call label.1 = some result →
      result = (label.2, after.sysmng) ∧
        after.live = before.live.after label.2

end SysState

end EmbeddedMiddle
