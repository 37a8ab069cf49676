import EmbeddedMiddle.Idatamng
import EmbeddedMiddle.Queue

/-!
# Tasks and their messages

The task table of `em_task.c`, the creation and deletion of tasks, and the
message queue that each task has.
-/

namespace EmbeddedMiddle

open Foundation

abbrev EmTaskid := Int32

/-- A task identifier as the `ulong` key of the table. -/
def ulongOfTaskid (taskId : EmTaskid) : UInt64 := taskId.toInt64.toUInt64

def taskidOfUlong (id : UInt64) : EmTaskid := id.toInt64.toInt32

/-- `taskName` has the bytes before the terminating NUL. -/
structure EmTasksetting where
  taskName : List UInt8
  taskId : EmTaskid
  mqueueSize : ℤ
  deriving DecidableEq, Inhabited

/-- `thread_id` is a `pthread_t`. -/
structure EmTaskinfo where
  threadId : UInt64
  taskName : Bytes
  msgqueue : EmQueue
  deriving Inhabited

structure EmTaskmng where
  msgdataSize : ℤ
  taskinfoMng : EmDatamng EmTaskinfo
  sem : EmSem
  deriving Inhabited

/-- What the memory holds that a call uses before it is written: the structures
on the stack and the regions that `alloc_func` gives to a queue. -/
structure TaskMemory where
  msgqueueInfo : EmTaskinfo
  startInfo : EmTaskinfo
  blockPtr : ℕ → ℕ
  rawdata : Bytes
  deriving Inhabited

/-- `keymem` and `rawdata` are the regions of the table. -/
def emTaskmngInit (tm : EmTaskmng) (maxNumTask : ℕ) (msgdataSize : ℤ)
    (sizeofTaskinfo : ℕ) (keymem : Bytes) (rawdata : ℤ) : ℤ × EmTaskmng :=
  match emSemInit 0 with
  | none => (-1, { tm with msgdataSize })
  | some sem =>
      (0, { msgdataSize
            taskinfoMng := emIdatamngCreate tm.taskinfoMng sizeofTaskinfo
              maxNumTask .error keymem rawdata
            sem })

/-- A `_em_taskinfo_t` written through its pointer. -/
def EmTaskmng.setTaskinfo (tm : EmTaskmng) (ptr : ℤ) (info : EmTaskinfo) :
    EmTaskmng :=
  { tm with taskinfoMng := { tm.taskinfoMng with
      data := Function.update tm.taskinfoMng.data ptr info } }

/-- `num_used == num_max` of the table. -/
def EmTaskmng.full (tm : EmTaskmng) : Bool :=
  tm.taskinfoMng.mp.numUsed == tm.taskinfoMng.mp.numMax

/-! ## Creation and deletion -/

/-- `em_queue_create` always returns 0. -/
def emTaskCreateMsgqueue (tm : EmTaskmng) (tasksetting : EmTasksetting)
    (memory : TaskMemory) : ℤ × EmTaskmng :=
  if tm.msgdataSize ≤ 0 then (0, tm)
  else
    let id := ulongOfTaskid tasksetting.taskId
    match emIdatamngGetDataPtr tm.taskinfoMng id with
    | some taskInfo =>
        let info := tm.taskinfoMng.data taskInfo
        (0, tm.setTaskinfo taskInfo { info with
          msgqueue := emQueueCreate info.msgqueue tm.msgdataSize.toNat
            tasksetting.mqueueSize memory.blockPtr memory.rawdata })
    | none =>
        let newtaskInfo := memory.msgqueueInfo
        let newtaskInfo := { newtaskInfo with
          msgqueue := emQueueCreate newtaskInfo.msgqueue tm.msgdataSize.toNat
            tasksetting.mqueueSize memory.blockPtr memory.rawdata }
        match emIdatamngAddData tm.taskinfoMng id newtaskInfo with
        | (ret, taskinfoMng) => (ret, { tm with taskinfoMng })

/-- `memcpy` of a name with its NUL into `task_name`. -/
def EmTaskinfo.start (info : EmTaskinfo) (tasksetting : EmTasksetting)
    (threadId : UInt64) : EmTaskinfo :=
  { info with
    taskName := info.taskName.copy 0
      (fun position => tasksetting.taskName.getD position 0)
      (tasksetting.taskName.length + 1)
    threadId }

/-- What `em_task_start_task` writes into the table after `pthread_create`.
The result of `em_idatamng_add_data` is not looked at. -/
def emTaskRegister (tm : EmTaskmng) (tasksetting : EmTasksetting)
    (taskInfo : Option ℤ) (threadId : UInt64) (startInfo : EmTaskinfo) :
    EmTaskmng :=
  match taskInfo with
  | some ptr =>
      tm.setTaskinfo ptr
        ((tm.taskinfoMng.data ptr).start tasksetting threadId)
  | none =>
      { tm with
        taskinfoMng := (emIdatamngAddData tm.taskinfoMng
          (ulongOfTaskid tasksetting.taskId)
          (startInfo.start tasksetting threadId)).2 }

/-- `created` is the identifier that `pthread_create` stores, or `none` when
one of the calls on threads and their attributes fails. -/
def emTaskStartTask (tm : EmTaskmng) (tasksetting : EmTasksetting)
    (created : Option UInt64) (memory : TaskMemory) : ℤ × EmTaskmng :=
  let taskInfo := emIdatamngGetDataPtr tm.taskinfoMng
    (ulongOfTaskid tasksetting.taskId)
  if taskInfo = none ∧ tm.full then (-1, tm)
  else
    match created with
    | none => (-1, tm)
    | some threadId =>
        let tm := emTaskRegister tm tasksetting taskInfo threadId
          memory.startInfo
        (0, { tm with sem := emSemPost tm.sem })

def emTaskCreate (tm : EmTaskmng) (tasksetting : EmTasksetting)
    (created : Option UInt64) (memory : TaskMemory) : ℤ × EmTaskmng :=
  if tm.full then (-1, tm)
  else
    match emTaskCreateMsgqueue tm tasksetting memory with
    | (ret, tm) =>
        if ret ≠ 0 then (-1, tm)
        else
          match emTaskStartTask tm tasksetting created memory with
          | (ret, tm) => if ret ≠ 0 then (-1, tm) else (0, tm)

/-- The thread that `em_task_delete` joins, the queue it destroys, its return
value and the table after it. -/
structure TaskDeletion where
  joined : UInt64
  destroyed : EmQueue
  ret : ℤ
  tm : EmTaskmng

/-- `taskinfo` is what the structure on the stack holds; for an unknown task it
is used as it is. -/
def emTaskDelete (tm : EmTaskmng) (taskId : EmTaskid) (taskinfo : EmTaskinfo) :
    TaskDeletion :=
  let id := ulongOfTaskid taskId
  let taskinfo := (emIdatamngGetData tm.taskinfoMng id).getD taskinfo
  { joined := taskinfo.threadId
    destroyed := taskinfo.msgqueue
    ret := 0
    tm := { tm with
      taskinfoMng := (emIdatamngRemoveData tm.taskinfoMng id).2 } }

/-! ## Messages -/

/-- `threadId` is `pthread_self()`. -/
def emGetTaskId (tm : EmTaskmng) (threadId : UInt64) : EmTaskid :=
  let taskId := taskidOfUlong (emIdatamngGetIdByFunc tm.taskinfoMng
    (fun info => threadId == info.threadId))
  if taskId < 0 then -1 else taskId

/-- The pointer to the `_em_taskinfo_t` with the queue. -/
def emMsgmngGetQueue (tm : EmTaskmng) (taskid : EmTaskid) : Option ℤ :=
  emIdatamngGetDataPtr tm.taskinfoMng (ulongOfTaskid taskid)

def emMsgSend (tm : EmTaskmng) (taskid : EmTaskid) (msgdata : Bytes)
    (timeoutMs : ℤ) : Option (ℤ × EmTaskmng) :=
  match emMsgmngGetQueue tm taskid with
  | none => some (-1, tm)
  | some mqueue =>
      let info := tm.taskinfoMng.data mqueue
      match emEnqueue info.msgqueue msgdata timeoutMs with
      | none => none
      | some (ret, msgqueue) =>
          some (if ret ≠ 0 then -1 else 0,
            tm.setTaskinfo mqueue { info with msgqueue })

/-- The message, or `none` for the return value -1. -/
def emMsgRecv (tm : EmTaskmng) (threadId : UInt64) (timeoutMs : ℤ) :
    Option (Option (List UInt8) × EmTaskmng) :=
  match emMsgmngGetQueue tm (emGetTaskId tm threadId) with
  | none => some (none, tm)
  | some mqueue =>
      let info := tm.taskinfoMng.data mqueue
      match emDequeue info.msgqueue timeoutMs with
      | none => none
      | some (result, msgqueue) =>
          some (result.toOption, tm.setTaskinfo mqueue { info with msgqueue })

/-- `locked` is whether `em_queue_getnum` gets the mutex of the queue. -/
def emMsgRecvNumCheck (tm : EmTaskmng) (threadId : UInt64) (locked : Bool) :
    ℤ :=
  match emMsgmngGetQueue tm (emGetTaskId tm threadId) with
  | none => -1
  | some mqueue => emQueueGetnum (tm.taskinfoMng.data mqueue).msgqueue locked

/-! ## Identifiers -/

@[simp] theorem taskidOfUlong_ulongOfTaskid (taskId : EmTaskid) :
    taskidOfUlong (ulongOfTaskid taskId) = taskId := by
  rw [taskidOfUlong, ulongOfTaskid, Int64.toInt64_toUInt64,
    Int32.toInt32_toInt64]

theorem ulongOfTaskid_injective : Function.Injective ulongOfTaskid :=
  Function.LeftInverse.injective taskidOfUlong_ulongOfTaskid

/-- The answer to a failed search is the identifier -1. -/
theorem taskidOfUlong_invalid :
    taskidOfUlong emDatamngInvalidId = -1 := by
  decide

end EmbeddedMiddle
