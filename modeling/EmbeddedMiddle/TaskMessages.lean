import EmbeddedMiddle.Task
import EmbeddedMiddle.IdatamngTable
import EmbeddedMiddle.QueueCalls

/-!
# Delivery of task messages

Runs of creations, deletions, sends and receives.  The calls of a run say which
tasks are registered, with which threads, and what was sent to them and
received by them; the task table has to agree.
-/

namespace EmbeddedMiddle

open Foundation

/-! ## What the calls of a run say -/

/-- A call with its result.  The thread of a creation is the one that
`pthread_create` stores. -/
inductive TaskEvent where
  | create (tasksetting : EmTasksetting) (thread : UInt64) (ret : ℤ)
  | delete (taskId : EmTaskid)
  | send (taskId : EmTaskid) (msg : List UInt8) (ret : ℤ)
  | recv (thread : UInt64) (msg : Option (List UInt8))

/-- A registered task: its thread and its messages since the registration. -/
structure Mailbox where
  thread : UInt64
  sent : List (List UInt8)
  received : List (List UInt8)

abbrev Mailboxes := EmTaskid → Option Mailbox

namespace Mailboxes

def empty : Mailboxes := fun _ => none

/-- The mailboxes after one more call.  A creation for a registered task
changes nothing about it. -/
def record (boxes : Mailboxes) : TaskEvent → Mailboxes
  | .create tasksetting thread ret =>
      if ret = 0 ∧ boxes tasksetting.taskId = none then
        Function.update boxes tasksetting.taskId (some ⟨thread, [], []⟩)
      else boxes
  | .delete taskId => Function.update boxes taskId none
  | .send taskId msg ret =>
      if ret = 0 then
        Function.update boxes taskId ((boxes taskId).map
          (fun box => { box with sent := box.sent ++ [msg] }))
      else boxes
  | .recv thread (some msg) => fun taskId =>
      (boxes taskId).map (fun box =>
        if box.thread = thread then
          { box with received := box.received ++ [msg] }
        else box)
  | .recv _ none => boxes

def history (events : List TaskEvent) : Mailboxes :=
  events.foldl record empty

/-- The table has the registered tasks with their threads, and what was sent to
a task is what it received followed by what its queue holds. -/
def Delivered (boxes : Mailboxes) (tm : EmTaskmng) : Prop :=
  ∀ taskId,
    match boxes taskId with
    | none =>
        emIdatamngGetData tm.taskinfoMng (ulongOfTaskid taskId) = none
    | some box =>
        ∃ info,
          emIdatamngGetData tm.taskinfoMng (ulongOfTaskid taskId) =
            some info ∧
          info.threadId = box.thread ∧
          box.sent = box.received ++ info.msgqueue.contents

end Mailboxes

/-! ## Runs -/

/-- The task manager and the threads that exist and are not joined. -/
structure TaskSystem where
  tm : EmTaskmng
  threads : Finset UInt64

/-- All calls on threads succeed, and a new thread gets an identifier that no
other thread has. -/
inductive TaskSystem.Step : TaskSystem → TaskEvent → TaskSystem → Prop where
  | create {sys : TaskSystem} {tasksetting : EmTasksetting} {thread : UInt64}
      {memory : TaskMemory} {ret : ℤ} {tm : EmTaskmng} :
      thread ∉ sys.threads →
      emTaskCreate sys.tm tasksetting (some thread) memory = (ret, tm) →
      Step sys (.create tasksetting thread ret)
        ⟨tm, if ret = 0 then insert thread sys.threads else sys.threads⟩
  | delete {sys : TaskSystem} {taskId : EmTaskid} {taskinfo : EmTaskinfo}
      {deletion : TaskDeletion} :
      emTaskDelete sys.tm taskId taskinfo = deletion →
      Step sys (.delete taskId)
        ⟨deletion.tm, sys.threads.erase deletion.joined⟩
  | send {sys : TaskSystem} {taskId : EmTaskid} {msgdata : Bytes}
      {timeoutMs ret : ℤ} {tm : EmTaskmng} :
      emMsgSend sys.tm taskId msgdata timeoutMs = some (ret, tm) →
      Step sys
        (.send taskId (msgdata.read 0 sys.tm.msgdataSize.toNat) ret)
        ⟨tm, sys.threads⟩
  | recv {sys : TaskSystem} {thread : UInt64} {timeoutMs : ℤ}
      {msg : Option (List UInt8)} {tm : EmTaskmng} :
      emMsgRecv sys.tm thread timeoutMs = some (msg, tm) →
      Step sys (.recv thread msg) ⟨tm, sys.threads⟩

/-- A creation is rejected by a full table or is for a new task, with a name
that fits and a queue whose size is an `int`; a deletion is for a registered
task; a thread without an identifier of its own does not receive while a task
-1 of another thread is registered. -/
def TaskSystem.Careful (sys : TaskSystem) : TaskEvent → Prop
  | .create tasksetting _ _ =>
      sys.tm.full = true ∨
        (emIdatamngGetData sys.tm.taskinfoMng
            (ulongOfTaskid tasksetting.taskId) = none ∧
          tasksetting.taskName.length < 32 ∧
          |sys.tm.msgdataSize * tasksetting.mqueueSize| ≤ intMax)
  | .delete taskId =>
      emIdatamngGetData sys.tm.taskinfoMng (ulongOfTaskid taskId) ≠ none
  | .send _ _ _ => True
  | .recv thread _ =>
      emGetTaskId sys.tm thread = -1 →
        ∀ info, emIdatamngGetData sys.tm.taskinfoMng (ulongOfTaskid (-1)) =
          some info → info.threadId = thread

/-! ## The calls on the table -/

section Calls

variable {params : DatamngParams} {tm : EmTaskmng}
  {table : UInt64 → Option EmTaskinfo}

/-- A creation for a new task with room in the table. -/
theorem emTaskCreate_new (holds : tm.taskinfoMng.Table params table)
    {tasksetting : EmTasksetting}
    (unused : table (ulongOfTaskid tasksetting.taskId) = none)
    (room : tm.full = false) (available : 0 < tm.msgdataSize)
    (thread : UInt64) (memory : TaskMemory) :
    ∃ after info,
      emTaskCreate tm tasksetting (some thread) memory = (0, after) ∧
      after.taskinfoMng.Table params
        (Function.update table (ulongOfTaskid tasksetting.taskId)
          (some info)) ∧
      after.msgdataSize = tm.msgdataSize ∧ info.threadId = thread ∧
      info.msgqueue = emQueueCreate memory.msgqueueInfo.msgqueue
        tm.msgdataSize.toNat tasksetting.mqueueSize memory.blockPtr
        memory.rawdata := by
  have notFull : tm.taskinfoMng.mp.numUsed ≠ tm.taskinfoMng.mp.numMax := by
    simpa [EmTaskmng.full] using room
  have noPointer := holds.getDataPtr_none unused
  let newtaskInfo : EmTaskinfo :=
    { memory.msgqueueInfo with
      msgqueue := emQueueCreate memory.msgqueueInfo.msgqueue
        tm.msgdataSize.toNat tasksetting.mqueueSize memory.blockPtr
        memory.rawdata }
  obtain ⟨dm, added, addedHolds, _⟩ :=
    holds.addData_room unused notFull newtaskInfo
  have created : emTaskCreateMsgqueue tm tasksetting memory =
      (0, { tm with taskinfoMng := dm }) := by
    rw [emTaskCreateMsgqueue, if_neg (Int.not_le.mpr available)]
    simp only [noPointer]
    rw [added]
  obtain ⟨ptr, pointer, content, written⟩ := addedHolds.getDataPtr_some
    (Function.update_self (ulongOfTaskid tasksetting.taskId) _ table)
  refine ⟨{ ({ tm with taskinfoMng := dm } : EmTaskmng).setTaskinfo ptr
      (newtaskInfo.start tasksetting thread) with
      sem := emSemPost tm.sem }, newtaskInfo.start tasksetting thread,
    ?_, ?_, rfl, rfl, rfl⟩
  · simp [emTaskCreate, room, created, emTaskStartTask, pointer,
      emTaskRegister, content, EmTaskmng.setTaskinfo]
  · have reached := written (newtaskInfo.start tasksetting thread)
    rw [Function.update_idem] at reached
    exact reached

theorem emTaskCreate_full (full : tm.full = true)
    (tasksetting : EmTasksetting) (created : Option UInt64)
    (memory : TaskMemory) :
    emTaskCreate tm tasksetting created memory = (-1, tm) := by
  rw [emTaskCreate, if_pos full]

theorem emTaskDelete_used (holds : tm.taskinfoMng.Table params table)
    {taskId : EmTaskid} {info : EmTaskinfo}
    (used : table (ulongOfTaskid taskId) = some info)
    (taskinfo : EmTaskinfo) :
    (emTaskDelete tm taskId taskinfo).joined = info.threadId ∧
      (emTaskDelete tm taskId taskinfo).tm.msgdataSize = tm.msgdataSize ∧
      (emTaskDelete tm taskId taskinfo).tm.taskinfoMng.Table params
        (Function.update table (ulongOfTaskid taskId) none) := by
  obtain ⟨after, removed, kept⟩ := holds.removeData_used used
  refine ⟨?_, rfl, ?_⟩
  · rw [emTaskDelete, holds.getData_eq, used]
    rfl
  · simp only [emTaskDelete, removed]
    exact kept

/-- A thread finds the identifier of a task that has it, or -1. -/
theorem emGetTaskId_cases (holds : tm.taskinfoMng.Table params table)
    (onlyTasks : ∀ id info, table id = some info →
      ∃ taskId, id = ulongOfTaskid taskId) (thread : UInt64) :
    (∃ taskId info, table (ulongOfTaskid taskId) = some info ∧
        info.threadId = thread ∧ emGetTaskId tm thread = taskId) ∨
      emGetTaskId tm thread = -1 := by
  rcases holds.getIdByFunc_cases (fun info => thread == info.threadId) with
    ⟨notFound, _⟩ | ⟨id, info, used, hits, found⟩
  · right
    simp only [emGetTaskId, notFound, taskidOfUlong_invalid]
    decide
  · obtain ⟨taskId, rfl⟩ := onlyTasks id info used
    simp only [emGetTaskId, found, taskidOfUlong_ulongOfTaskid]
    split_ifs with negative
    · exact .inr rfl
    · exact .inl ⟨taskId, info, used, (beq_iff_eq.mp hits).symm, rfl⟩

end Calls

/-! ## Table and mailboxes -/

/-- An entry of the table and a mailbox that agree. -/
inductive Agree (size : ℕ) : Option EmTaskinfo → Option Mailbox → Prop where
  | none : Agree size none none
  | some {info : EmTaskinfo} {box : Mailbox} :
      info.threadId = box.thread → info.msgqueue.Ready size →
      box.sent = box.received ++ info.msgqueue.contents →
      Agree size (some info) (some box)

/-- The task table matches the mailboxes, and no two tasks share a thread. -/
structure TaskSystem.Matches (params : DatamngParams) (msgdataSize : ℤ)
    (sys : TaskSystem) (boxes : Mailboxes)
    (table : UInt64 → Option EmTaskinfo) : Prop where
  holds : sys.tm.taskinfoMng.Table params table
  msgdataSize_eq : sys.tm.msgdataSize = msgdataSize
  onlyTasks : ∀ id info, table id = some info →
    ∃ taskId, id = ulongOfTaskid taskId
  agree : ∀ taskId,
    Agree msgdataSize.toNat (table (ulongOfTaskid taskId)) (boxes taskId)
  distinct : ∀ left leftBox, boxes left = some leftBox →
    ∀ right rightBox, boxes right = some rightBox →
      leftBox.thread = rightBox.thread → left = right
  running : ∀ taskId box, boxes taskId = some box → box.thread ∈ sys.threads

namespace TaskSystem.Matches

variable {params : DatamngParams} {msgdataSize : ℤ} {sys : TaskSystem}
  {boxes : Mailboxes} {table : UInt64 → Option EmTaskinfo}

theorem unused_iff (matching : sys.Matches params msgdataSize boxes table)
    (taskId : EmTaskid) :
    table (ulongOfTaskid taskId) = none ↔ boxes taskId = none := by
  have agree := matching.agree taskId
  cases entry : table (ulongOfTaskid taskId) with
  | none =>
      rw [entry] at agree
      cases isBox : boxes taskId with
      | none => simp
      | some box =>
          rw [isBox] at agree
          cases agree
  | some info =>
      rw [entry] at agree
      cases isBox : boxes taskId with
      | none =>
          rw [isBox] at agree
          cases agree
      | some box => simp

theorem used (matching : sys.Matches params msgdataSize boxes table)
    {taskId : EmTaskid} {info : EmTaskinfo}
    (entry : table (ulongOfTaskid taskId) = some info) :
    ∃ box, boxes taskId = some box ∧ info.threadId = box.thread ∧
      info.msgqueue.Ready msgdataSize.toNat ∧
      box.sent = box.received ++ info.msgqueue.contents := by
  have agree := matching.agree taskId
  rw [entry] at agree
  cases isBox : boxes taskId with
  | none =>
      rw [isBox] at agree
      cases agree
  | some box =>
      rw [isBox] at agree
      cases agree with
      | some thread ready balance => exact ⟨box, rfl, thread, ready, balance⟩

theorem agree_update (matching : sys.Matches params msgdataSize boxes table)
    (taskId : EmTaskid) {info : Option EmTaskinfo} {box : Option Mailbox}
    (agree : Agree msgdataSize.toNat info box) (other : EmTaskid) :
    Agree msgdataSize.toNat
      (Function.update table (ulongOfTaskid taskId) info
        (ulongOfTaskid other))
      (Function.update boxes taskId box other) := by
  by_cases same : other = taskId
  · subst same
    rw [Function.update_self, Function.update_self]
    exact agree
  · have apart : ulongOfTaskid other ≠ ulongOfTaskid taskId :=
      fun ulongs => same (ulongOfTaskid_injective ulongs)
    rw [Function.update_of_ne same, Function.update_of_ne apart]
    exact matching.agree other

theorem onlyTasks_update
    (matching : sys.Matches params msgdataSize boxes table)
    (taskId : EmTaskid) (value : Option EmTaskinfo) (id : UInt64)
    (info : EmTaskinfo)
    (entry : Function.update table (ulongOfTaskid taskId) value id =
      some info) : ∃ taskId, id = ulongOfTaskid taskId := by
  rcases update_eq_cases entry with ⟨same, _⟩ | ⟨_, before⟩
  · exact ⟨taskId, same⟩
  · exact matching.onlyTasks id info before

/-- The entry of one task and its mailbox change, the thread stays. -/
theorem update (matching : sys.Matches params msgdataSize boxes table)
    {taskId : EmTaskid} {info : EmTaskinfo} {old box : Mailbox}
    {tm : EmTaskmng}
    (holds : tm.taskinfoMng.Table params
      (Function.update table (ulongOfTaskid taskId) (some info)))
    (size : tm.msgdataSize = msgdataSize)
    (agree : Agree msgdataSize.toNat (some info) (some box))
    (isOld : boxes taskId = some old) (thread : box.thread = old.thread) :
    TaskSystem.Matches params msgdataSize ⟨tm, sys.threads⟩
      (Function.update boxes taskId (some box))
      (Function.update table (ulongOfTaskid taskId) (some info)) := by
  -- Every mailbox has the thread of a mailbox that was there before.
  have before : ∀ other otherBox,
      Function.update boxes taskId (some box) other = some otherBox →
        ∃ oldBox, boxes other = some oldBox ∧
          otherBox.thread = oldBox.thread := by
    intro other otherBox isOther
    rcases update_eq_cases isOther with ⟨same, isBox⟩ | ⟨_, before⟩
    · cases isBox
      exact ⟨old, same ▸ isOld, thread⟩
    · exact ⟨otherBox, before, rfl⟩
  refine ⟨holds, size, matching.onlyTasks_update taskId _,
    matching.agree_update taskId agree, ?_, ?_⟩
  · intro left leftBox isLeft right rightBox isRight threads
    obtain ⟨leftOld, isLeftOld, leftThread⟩ := before left leftBox isLeft
    obtain ⟨rightOld, isRightOld, rightThread⟩ :=
      before right rightBox isRight
    exact matching.distinct left leftOld isLeftOld right rightOld isRightOld
      (leftThread.symm.trans (threads.trans rightThread))
  · intro other otherBox isOther
    obtain ⟨oldBox, isOldBox, same⟩ := before other otherBox isOther
    rw [same]
    exact matching.running other oldBox isOldBox

theorem delivered (matching : sys.Matches params msgdataSize boxes table) :
    boxes.Delivered sys.tm := by
  intro taskId
  have agree := matching.agree taskId
  rw [matching.holds.getData_eq]
  cases isBox : boxes taskId with
  | none => exact (matching.unused_iff taskId).mpr isBox
  | some box =>
      cases entry : table (ulongOfTaskid taskId) with
      | none =>
          rw [(matching.unused_iff taskId).mp entry] at isBox
          cases isBox
      | some info =>
          obtain ⟨found, isFound, thread, _, balance⟩ := matching.used entry
          rw [isFound] at isBox
          cases isBox
          exact ⟨info, rfl, thread, balance⟩

/-- The entry of one task changes in a way that its mailbox does not show. -/
theorem update_info (matching : sys.Matches params msgdataSize boxes table)
    {taskId : EmTaskid} {info : EmTaskinfo} {box : Mailbox}
    {tm : EmTaskmng}
    (holds : tm.taskinfoMng.Table params
      (Function.update table (ulongOfTaskid taskId) (some info)))
    (size : tm.msgdataSize = msgdataSize)
    (agree : Agree msgdataSize.toNat (some info) (some box))
    (isBox : boxes taskId = some box) :
    TaskSystem.Matches params msgdataSize ⟨tm, sys.threads⟩ boxes
      (Function.update table (ulongOfTaskid taskId) (some info)) := by
  have updated := matching.update holds size agree isBox rfl
  rwa [← isBox, Function.update_eq_self] at updated

/-- A task is registered with a thread that no task has. -/
theorem register (matching : sys.Matches params msgdataSize boxes table)
    {taskId : EmTaskid} {info : EmTaskinfo} {box : Mailbox} {tm : EmTaskmng}
    (holds : tm.taskinfoMng.Table params
      (Function.update table (ulongOfTaskid taskId) (some info)))
    (size : tm.msgdataSize = msgdataSize)
    (agree : Agree msgdataSize.toNat (some info) (some box))
    (fresh : box.thread ∉ sys.threads) :
    TaskSystem.Matches params msgdataSize
      ⟨tm, insert box.thread sys.threads⟩
      (Function.update boxes taskId (some box))
      (Function.update table (ulongOfTaskid taskId) (some info)) := by
  have others : ∀ other otherBox, other ≠ taskId →
      Function.update boxes taskId (some box) other = some otherBox →
        boxes other = some otherBox := by
    intro other otherBox different isBox
    rwa [Function.update_of_ne different] at isBox
  have apart : ∀ other otherBox, boxes other = some otherBox →
      otherBox.thread ≠ box.thread := by
    intro other otherBox isOther same
    have known := matching.running other otherBox isOther
    rw [same] at known
    exact fresh known
  refine ⟨holds, size, matching.onlyTasks_update taskId _,
    matching.agree_update taskId agree, ?_, ?_⟩
  · intro left leftBox isLeft right rightBox isRight threads
    by_cases leftNew : left = taskId
    · by_cases rightNew : right = taskId
      · rw [leftNew, rightNew]
      · rw [leftNew, Function.update_self] at isLeft
        cases isLeft
        have isOld := others right rightBox rightNew isRight
        exact absurd threads.symm (apart right rightBox isOld)
    · have isOld := others left leftBox leftNew isLeft
      by_cases rightNew : right = taskId
      · rw [rightNew, Function.update_self] at isRight
        cases isRight
        exact absurd threads (apart left leftBox isOld)
      · exact matching.distinct left leftBox isOld right rightBox
          (others right rightBox rightNew isRight) threads
  · intro other otherBox isOther
    by_cases isNew : other = taskId
    · rw [isNew, Function.update_self] at isOther
      cases isOther
      exact Finset.mem_insert_self _ _
    · exact Finset.mem_insert_of_mem
        (matching.running other otherBox (others other otherBox isNew isOther))

/-! ## One lemma for each call -/

theorem create (matching : sys.Matches params msgdataSize boxes table)
    (available : 0 < msgdataSize) {tasksetting : EmTasksetting}
    {thread : UInt64} {memory : TaskMemory} {ret : ℤ} {tm : EmTaskmng}
    (fresh : thread ∉ sys.threads)
    (careful : sys.Careful (.create tasksetting thread ret))
    (called : emTaskCreate sys.tm tasksetting (some thread) memory =
      (ret, tm)) :
    ∃ next, TaskSystem.Matches params msgdataSize
      ⟨tm, if ret = 0 then insert thread sys.threads else sys.threads⟩
      (boxes.record (.create tasksetting thread ret)) next := by
  cases full : sys.tm.full with
  | true =>
      rw [emTaskCreate_full full] at called
      obtain ⟨rfl, rfl⟩ := Prod.mk.inj called
      exact ⟨table, matching⟩
  | false =>
      obtain ⟨unknown, _⟩ := careful.resolve_left (by simp [full])
      rw [matching.holds.getData_eq] at unknown
      have noBox := (matching.unused_iff _).mp unknown
      obtain ⟨after, info, created, holds, size, isThread, isQueue⟩ :=
        emTaskCreate_new matching.holds unknown full
          (matching.msgdataSize_eq ▸ available) thread memory
      rw [created] at called
      obtain ⟨rfl, rfl⟩ := Prod.mk.inj called
      rw [matching.msgdataSize_eq] at size isQueue
      obtain ⟨ready, empty⟩ := @EmQueue.created_ready msgdataSize.toNat
        memory.msgqueueInfo.msgqueue tasksetting.mqueueSize memory.blockPtr
        memory.rawdata
      rw [← isQueue] at ready empty
      have recorded : boxes.record (.create tasksetting thread 0) =
          Function.update boxes tasksetting.taskId
            (some ⟨thread, [], []⟩) := by
        simp [Mailboxes.record, noBox]
      have agree : Agree msgdataSize.toNat (some info)
          (some ⟨thread, [], []⟩) := by
        refine .some isThread ready ?_
        rw [empty]
        rfl
      rw [recorded, if_pos rfl]
      exact ⟨_, matching.register holds size agree fresh⟩

theorem delete (matching : sys.Matches params msgdataSize boxes table)
    {taskId : EmTaskid} (careful : sys.Careful (.delete taskId))
    (taskinfo : EmTaskinfo) :
    ∃ next, TaskSystem.Matches params msgdataSize
      ⟨(emTaskDelete sys.tm taskId taskinfo).tm,
        sys.threads.erase (emTaskDelete sys.tm taskId taskinfo).joined⟩
      (boxes.record (.delete taskId)) next := by
  have registered : table (ulongOfTaskid taskId) ≠ none := by
    rw [← matching.holds.getData_eq]
    exact careful
  obtain ⟨info, entry⟩ := Option.ne_none_iff_exists'.mp registered
  obtain ⟨box, isBox, isThread, _⟩ := matching.used entry
  obtain ⟨joined, size, holds⟩ :=
    emTaskDelete_used matching.holds entry taskinfo
  have others : ∀ other otherBox,
      Function.update boxes taskId none other = some otherBox →
        other ≠ taskId ∧ boxes other = some otherBox := by
    intro other otherBox isOther
    rcases update_eq_cases isOther with ⟨_, impossible⟩ | unchanged
    · cases impossible
    · exact unchanged
  refine ⟨_, holds, size.trans matching.msgdataSize_eq,
    matching.onlyTasks_update _ _, matching.agree_update _ .none, ?_, ?_⟩
  · intro left leftBox isLeft right rightBox isRight threads
    exact matching.distinct left leftBox (others left leftBox isLeft).2
      right rightBox (others right rightBox isRight).2 threads
  · intro other otherBox isOther
    obtain ⟨different, isOther⟩ := others other otherBox isOther
    rw [joined, isThread]
    refine Finset.mem_erase.mpr
      ⟨?_, matching.running other otherBox isOther⟩
    intro same
    exact different
      (matching.distinct other otherBox isOther taskId box isBox same)

theorem send (matching : sys.Matches params msgdataSize boxes table)
    {taskId : EmTaskid} {msgdata : Bytes} {timeoutMs ret : ℤ} {tm : EmTaskmng}
    (called : emMsgSend sys.tm taskId msgdata timeoutMs = some (ret, tm)) :
    ∃ next, TaskSystem.Matches params msgdataSize ⟨tm, sys.threads⟩
      (boxes.record
        (.send taskId (msgdata.read 0 sys.tm.msgdataSize.toNat) ret))
      next := by
  unfold emMsgSend emMsgmngGetQueue at called
  cases entry : table (ulongOfTaskid taskId) with
  | none =>
      simp only [matching.holds.getDataPtr_none entry, Option.some.injEq]
        at called
      obtain ⟨rfl, rfl⟩ := Prod.mk.inj called
      exact ⟨table, matching⟩
  | some info =>
      obtain ⟨box, isBox, isThread, ready, balance⟩ := matching.used entry
      obtain ⟨ptr, pointer, content, written⟩ :=
        matching.holds.getDataPtr_some entry
      simp only [pointer, content] at called
      split at called
      · cases called
      · rename_i queueRet msgqueue enqueued
        obtain ⟨kept, contents⟩ := ready.enqueue enqueued
        obtain ⟨rfl, rfl⟩ := Prod.mk.inj (Option.some.inj called)
        rw [matching.msgdataSize_eq]
        have holds := written { info with msgqueue }
        have size : (sys.tm.setTaskinfo ptr
          { info with msgqueue }).msgdataSize = msgdataSize :=
          matching.msgdataSize_eq
        by_cases accepted : queueRet = 0
        · subst accepted
          rw [if_pos rfl] at contents
          have recorded : boxes.record (.send taskId
              (msgdata.read 0 msgdataSize.toNat)
              (if (0 : ℤ) ≠ 0 then -1 else 0)) =
            Function.update boxes taskId (some { box with
              sent := box.sent ++
                [msgdata.read 0 msgdataSize.toNat] }) := by
            simp [Mailboxes.record, isBox]
          have agree : Agree msgdataSize.toNat (some { info with msgqueue })
              (some { box with
                sent := box.sent ++
                  [msgdata.read 0 msgdataSize.toNat] }) := by
            refine .some isThread kept ?_
            rw [contents, ← List.append_assoc, ← balance]
          rw [recorded]
          exact ⟨_, matching.update holds size agree isBox rfl⟩
        · rw [if_neg accepted, List.append_nil] at contents
          have recorded : boxes.record (.send taskId
              (msgdata.read 0 msgdataSize.toNat)
              (if queueRet ≠ 0 then -1 else 0)) = boxes := by
            simp [Mailboxes.record, accepted]
          have agree : Agree msgdataSize.toNat (some { info with msgqueue })
              (some box) := by
            refine .some isThread kept ?_
            rw [contents]
            exact balance
          rw [recorded]
          exact ⟨_, matching.update_info holds size agree isBox⟩

/-- A careful receiver looks into its own queue. -/
theorem own_queue (matching : sys.Matches params msgdataSize boxes table)
    {thread : UInt64} {msg : Option (List UInt8)}
    (careful : sys.Careful (.recv thread msg)) {info : EmTaskinfo}
    (entry : table (ulongOfTaskid (emGetTaskId sys.tm thread)) = some info) :
    info.threadId = thread := by
  rcases emGetTaskId_cases matching.holds matching.onlyTasks thread with
    ⟨taskId, found, used, isThread, isId⟩ | unknown
  · rw [isId, used] at entry
    cases entry
    exact isThread
  · apply careful unknown
    rw [matching.holds.getData_eq, ← unknown]
    exact entry

/-- What a task received is recorded in its mailbox only. -/
theorem record_recv (matching : sys.Matches params msgdataSize boxes table)
    {taskId : EmTaskid} {box : Mailbox} (isBox : boxes taskId = some box)
    (msg : List UInt8) :
    boxes.record (.recv box.thread (some msg)) =
      Function.update boxes taskId
        (some { box with received := box.received ++ [msg] }) := by
  funext other
  by_cases same : other = taskId
  · subst same
    simp [Mailboxes.record, isBox]
  · rw [Function.update_of_ne same]
    cases isOther : boxes other with
    | none => simp [Mailboxes.record, isOther]
    | some otherBox =>
        have apart : otherBox.thread ≠ box.thread := fun threads =>
          same (matching.distinct other otherBox isOther taskId box isBox
            threads)
        simp [Mailboxes.record, isOther, apart]

theorem recv (matching : sys.Matches params msgdataSize boxes table)
    {thread : UInt64} {timeoutMs : ℤ} {msg : Option (List UInt8)}
    {tm : EmTaskmng} (careful : sys.Careful (.recv thread msg))
    (called : emMsgRecv sys.tm thread timeoutMs = some (msg, tm)) :
    ∃ next, TaskSystem.Matches params msgdataSize ⟨tm, sys.threads⟩
      (boxes.record (.recv thread msg)) next := by
  have ownQueue : ∀ info,
      table (ulongOfTaskid (emGetTaskId sys.tm thread)) = some info →
        info.threadId = thread :=
    fun _ entry => matching.own_queue careful entry
  unfold emMsgRecv emMsgmngGetQueue at called
  generalize emGetTaskId sys.tm thread = taskId at called ownQueue
  cases entry : table (ulongOfTaskid taskId) with
  | none =>
      simp only [matching.holds.getDataPtr_none entry, Option.some.injEq]
        at called
      obtain ⟨rfl, rfl⟩ := Prod.mk.inj called
      exact ⟨table, matching⟩
  | some info =>
      obtain ⟨box, isBox, isThread, ready, balance⟩ := matching.used entry
      obtain ⟨ptr, pointer, content, written⟩ :=
        matching.holds.getDataPtr_some entry
      simp only [pointer, content] at called
      split at called
      · cases called
      · rename_i result msgqueue dequeued
        obtain ⟨kept, contents⟩ := ready.dequeue dequeued
        obtain ⟨rfl, rfl⟩ := Prod.mk.inj (Option.some.inj called)
        have holds := written { info with msgqueue }
        have size : (sys.tm.setTaskinfo ptr
          { info with msgqueue }).msgdataSize = msgdataSize :=
          matching.msgdataSize_eq
        have own : thread = box.thread :=
          (ownQueue info entry).symm.trans isThread
        rw [own]
        cases isMsg : result.toOption with
        | none =>
            rw [isMsg] at contents
            have agree : Agree msgdataSize.toNat
                (some { info with msgqueue }) (some box) := by
              refine .some isThread kept ?_
              rw [balance, contents]
              rfl
            exact ⟨_, matching.update_info holds size agree isBox⟩
        | some msg =>
            rw [isMsg] at contents
            have agree : Agree msgdataSize.toNat
                (some { info with msgqueue })
                (some { box with received := box.received ++ [msg] }) := by
              refine .some isThread kept ?_
              rw [balance, contents, List.append_assoc]
              rfl
            rw [matching.record_recv isBox]
            exact ⟨_, matching.update holds size agree isBox rfl⟩

end TaskSystem.Matches

/-! ## Delivery in every careful run -/

/-- The parameters of the task table. -/
def taskTable (maxNumTask sizeofTaskinfo : ℕ) (rawdata : ℤ) :
    DatamngParams :=
  ⟨⟨maxNumTask, sizeofTaskinfo, rawdata⟩, sizeofUlong, .integer, .error⟩

theorem TaskSystem.Matches.step {params : DatamngParams} {msgdataSize : ℤ}
    (available : 0 < msgdataSize) {before after : TaskSystem}
    {boxes : Mailboxes} {table : UInt64 → Option EmTaskinfo}
    {event : TaskEvent}
    (matching : before.Matches params msgdataSize boxes table)
    (taken : Guarded TaskSystem.Careful TaskSystem.Step before event after) :
    ∃ next, after.Matches params msgdataSize (boxes.record event) next := by
  obtain ⟨careful, taken⟩ := taken
  cases taken with
  | create fresh called =>
      exact matching.create available fresh careful called
  | delete called =>
      subst called
      exact matching.delete careful _
  | send called => exact matching.send called
  | recv called => exact matching.recv careful called

/-- After a run whose calls are all careful, the table has every task with the
thread it was created with, and what was sent to a task is what the task
received, in this order, followed by what waits in its queue. -/
theorem messages_delivered_once (memory : EmTaskmng) (maxNumTask : ℕ)
    (msgdataSize : ℤ) (sizeofTaskinfo : ℕ) (keymem : Bytes) (rawdata : ℤ)
    (threads : Finset UInt64) (available : 0 < msgdataSize)
    (valid : (taskTable maxNumTask sizeofTaskinfo rawdata).Valid)
    {events : List TaskEvent} {sys : TaskSystem}
    (run : Run (Guarded TaskSystem.Careful TaskSystem.Step)
      ⟨(emTaskmngInit memory maxNumTask msgdataSize sizeofTaskinfo keymem
        rawdata).2, threads⟩ events sys) :
    (Mailboxes.history events).Delivered sys.tm := by
  have start : TaskSystem.Matches
      (taskTable maxNumTask sizeofTaskinfo rawdata) msgdataSize
      ⟨(emTaskmngInit memory maxNumTask msgdataSize sizeofTaskinfo keymem
        rawdata).2, threads⟩ .empty (fun _ => none) := by
    refine ⟨valid.created_table ⟨rfl, rfl, rfl⟩ _ _, rfl, ?_, ?_, ?_, ?_⟩
    · intro id info entry
      cases entry
    · intro taskId
      exact .none
    · intro left leftBox isLeft
      cases isLeft
    · intro taskId box isBox
      cases isBox
  obtain ⟨table, matching⟩ := run.history_invariant
    (fun events sys => ∃ table, sys.Matches
      (taskTable maxNumTask sizeofTaskinfo rawdata) msgdataSize
      (Mailboxes.history events) table)
    ⟨_, start⟩
    (by
      rintro events before event after ⟨table, matching⟩ taken
      obtain ⟨next, kept⟩ := matching.step available taken
      refine ⟨next, ?_⟩
      rw [Mailboxes.history, List.foldl_append]
      exact kept)
  exact matching.delivered

theorem messages_delivered_once_three_calls :
    ∃ sys : TaskSystem, (Mailboxes.history
        [.create ⟨[116], 1, 2⟩ 10 0, .send 1 [5] 0,
          .recv 10 (some [5])]).Delivered sys.tm := by
  have sent : ∃ sys, Run (Guarded TaskSystem.Careful TaskSystem.Step)
      ⟨(emTaskmngInit default 2 1 200 default 1000).2, ∅⟩
      [.create ⟨[116], 1, 2⟩ 10 0, .send 1 [5] 0] sys ∧
      emGetTaskId sys.tm 10 = 1 ∧
      (emMsgRecv sys.tm 10 0).map Prod.fst = some (some [5]) := by
    refine ⟨_, .cons ⟨.inr ⟨rfl, by decide, by decide⟩,
        @TaskSystem.Step.create _ _ _ default _ _ (by decide) rfl⟩
      (.cons ⟨trivial, @TaskSystem.Step.send _ _ (fun _ => 5) 0 _ _ rfl⟩
        .nil), ?_, ?_⟩
    · decide +kernel
    · decide +kernel
  obtain ⟨sys, run, self, received⟩ := sent
  obtain ⟨⟨msg, tm⟩, called, rfl⟩ := Option.map_eq_some_iff.mp received
  have careful : sys.Careful (.recv 10 (some [5])) :=
    fun unknown => absurd (self.symm.trans unknown) (by decide)
  exact ⟨_, messages_delivered_once default 2 1 200 default 1000 ∅
    (by decide) ⟨⟨by decide, by decide⟩, by decide, by decide, by decide⟩
    (run.snoc ⟨careful, .recv called⟩)⟩

/-- Creating a task again throws away what waits for it and replaces its
thread. -/
theorem messages_discarded :
    ∃ events sys, Run TaskSystem.Step
        ⟨(emTaskmngInit default 2 1 200 default 1000).2, ∅⟩ events sys ∧
      ¬ (Mailboxes.history events).Delivered sys.tm := by
  have run : ∃ sys, Run TaskSystem.Step
      ⟨(emTaskmngInit default 2 1 200 default 1000).2, ∅⟩
      [.create ⟨[116], 1, 2⟩ 10 0, .send 1 [5] 0,
        .create ⟨[116], 1, 2⟩ 11 0] sys ∧
      (emIdatamngGetData sys.tm.taskinfoMng (ulongOfTaskid 1)).map
        EmTaskinfo.threadId = some 11 := by
    refine ⟨_, .cons (@TaskSystem.Step.create _ _ _ default _ _ (by decide) rfl)
      (.cons (@TaskSystem.Step.send _ _ (fun _ => 5) 0 _ _ rfl)
        (.cons (@TaskSystem.Step.create _ _ _ default _ _ (by decide) rfl)
          .nil)), ?_⟩
    rfl
  obtain ⟨sys, run, replaced⟩ := run
  refine ⟨_, sys, run, ?_⟩
  intro delivered
  obtain ⟨info, entry, thread, _⟩ := delivered 1
  rw [entry, Option.map_some, thread] at replaced
  exact absurd replaced (by decide)

end EmbeddedMiddle
