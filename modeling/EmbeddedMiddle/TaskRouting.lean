import EmbeddedMiddle.TaskStart

/-!
# Whose queue a thread reads

`em_msg_recv` and `em_msg_recv_num_check` look for the task of the calling
thread and then for the queue of that task.  Between the two searches stands an
identifier in which -1 means that there is no such task.
-/

namespace EmbeddedMiddle

open Foundation

/-- A task table: its keys are identifiers of tasks, no two tasks have the same
thread. -/
structure EmTaskmng.Tasks (params : DatamngParams) (tm : EmTaskmng)
    (table : UInt64 → Option EmTaskinfo) : Prop where
  holds : tm.taskinfoMng.Table params table
  onlyTasks : ∀ id info, table id = some info →
    ∃ taskId, id = ulongOfTaskid taskId
  distinct : ∀ left leftInfo, table left = some leftInfo →
    ∀ right rightInfo, table right = some rightInfo →
      leftInfo.threadId = rightInfo.threadId → left = right

/-- The queue that the two functions work on in this thread. -/
def EmTaskmng.recvQueue (tm : EmTaskmng) (threadId : UInt64) : Option ℤ :=
  emMsgmngGetQueue tm (emGetTaskId tm threadId)

/-- `em_msg_recv` and `em_msg_recv_num_check` in a thread of this task work on
its queue: they answer what the queue answers, and after a receive only the
queue in this entry of the table is another one. -/
structure EmTaskmng.ReadsQueueOf (params : DatamngParams) (tm : EmTaskmng)
    (table : UInt64 → Option EmTaskinfo) (threadId : UInt64)
    (taskId : EmTaskid) (info : EmTaskinfo) : Prop where
  queue : tm.recvQueue threadId =
    emIdatamngGetDataPtr tm.taskinfoMng (ulongOfTaskid taskId)
  numCheck : ∀ locked, emMsgRecvNumCheck tm threadId locked =
    emQueueGetnum info.msgqueue locked
  blocks : ∀ timeoutMs, emMsgRecv tm threadId timeoutMs = none ↔
    emDequeue info.msgqueue timeoutMs = none
  recv : ∀ timeoutMs result msgqueue,
    emDequeue info.msgqueue timeoutMs = some (result, msgqueue) →
      ∃ after, emMsgRecv tm threadId timeoutMs =
          some (result.toOption, after) ∧
        after.taskinfoMng.Table params
          (Function.update table (ulongOfTaskid taskId)
            (some { info with msgqueue }))

/-- The two functions return -1 and touch nothing. -/
structure EmTaskmng.ReadsNothing (tm : EmTaskmng) (threadId : UInt64) :
    Prop where
  queue : tm.recvQueue threadId = none
  numCheck : ∀ locked, emMsgRecvNumCheck tm threadId locked = -1
  recv : ∀ timeoutMs, emMsgRecv tm threadId timeoutMs = some (none, tm)

namespace EmTaskmng.Tasks

variable {params : DatamngParams} {tm : EmTaskmng}
  {table : UInt64 → Option EmTaskinfo} {threadId : UInt64}
  {taskId : EmTaskid} {info : EmTaskinfo}

/-! ## The identifier of the calling thread -/

theorem getTaskId_of_task (tasks : tm.Tasks params table)
    (used : table (ulongOfTaskid taskId) = some info)
    (own : info.threadId = threadId) :
    emGetTaskId tm threadId = if taskId < 0 then -1 else taskId := by
  rcases tasks.holds.getIdByFunc_cases
      (fun info => threadId == info.threadId) with
    ⟨_, misses⟩ | ⟨id, found, isFound, hits, isId⟩
  · have missed := misses _ _ used
    rw [own, beq_self_eq_true] at missed
    cases missed
  · have sameThread : found.threadId = info.threadId :=
      (beq_iff_eq.mp hits).symm.trans own.symm
    have same := tasks.distinct _ _ isFound _ _ used sameThread
    rw [emGetTaskId, isId, same, taskidOfUlong_ulongOfTaskid]

theorem getTaskId_of_stranger (tasks : tm.Tasks params table)
    (stranger : ∀ id info, table id = some info → info.threadId ≠ threadId) :
    emGetTaskId tm threadId = -1 := by
  rcases tasks.holds.getIdByFunc_cases
      (fun info => threadId == info.threadId) with
    ⟨notFound, _⟩ | ⟨id, found, isFound, hits, _⟩
  · simp only [emGetTaskId, notFound, taskidOfUlong_invalid]
    decide
  · exact absurd (beq_iff_eq.mp hits).symm (stranger id found isFound)

/-! ## From the queue to the answers -/

theorem readsQueueOf_of_queue (tasks : tm.Tasks params table)
    (used : table (ulongOfTaskid taskId) = some info)
    (queue : tm.recvQueue threadId =
      emIdatamngGetDataPtr tm.taskinfoMng (ulongOfTaskid taskId)) :
    tm.ReadsQueueOf params table threadId taskId info := by
  obtain ⟨ptr, pointer, content, written⟩ := tasks.holds.getDataPtr_some used
  have own : emMsgmngGetQueue tm (emGetTaskId tm threadId) = some ptr :=
    queue.trans pointer
  refine ⟨queue, ?_, ?_, ?_⟩
  · intro locked
    simp only [emMsgRecvNumCheck, own, content]
  · intro timeoutMs
    simp only [emMsgRecv, own, content]
    cases emDequeue info.msgqueue timeoutMs <;> simp
  · intro timeoutMs result msgqueue dequeued
    refine ⟨tm.setTaskinfo ptr { info with msgqueue }, ?_, written _⟩
    simp only [emMsgRecv, own, content, dequeued]

theorem readsNothing_of_queue (queue : tm.recvQueue threadId = none) :
    tm.ReadsNothing threadId := by
  have noQueue : emMsgmngGetQueue tm (emGetTaskId tm threadId) = none := queue
  refine ⟨queue, ?_, ?_⟩
  · intro locked
    simp only [emMsgRecvNumCheck, noQueue]
  · intro timeoutMs
    simp only [emMsgRecv, noQueue]

/-! ## Whose queue it is -/

/-- Two identifiers lead to the same queue only if they are the same. -/
theorem pointers_differ (tasks : tm.Tasks params table) {other : EmTaskid}
    (used : table (ulongOfTaskid taskId) = some info)
    (same : emIdatamngGetDataPtr tm.taskinfoMng (ulongOfTaskid other) =
      emIdatamngGetDataPtr tm.taskinfoMng (ulongOfTaskid taskId)) :
    other = taskId := by
  obtain ⟨ptr, pointer, _, written⟩ := tasks.holds.getDataPtr_some used
  by_contra different
  have apart : ulongOfTaskid taskId ≠ ulongOfTaskid other :=
    fun ulongs => different (ulongOfTaskid_injective ulongs).symm
  cases entry : table (ulongOfTaskid other) with
  | none =>
      rw [pointer, tasks.holds.getDataPtr_none entry] at same
      cases same
  | some otherInfo =>
      obtain ⟨otherPtr, otherPointer, _, otherWritten⟩ :=
        tasks.holds.getDataPtr_some entry
      rw [pointer, otherPointer] at same
      obtain rfl := Option.some.inj same
      -- What is written for one task would be read for the other.
      have new : ∀ value : EmTaskinfo, value = info := by
        intro value
        have left := (written value).getData_eq (ulongOfTaskid taskId)
        have right := (otherWritten value).getData_eq (ulongOfTaskid taskId)
        rw [Function.update_self] at left
        rw [Function.update_of_ne apart, used] at right
        exact Option.some.inj (left.symm.trans right)
      have threads := congrArg EmTaskinfo.threadId
        ((new { info with threadId := 0 }).trans
          (new { info with threadId := 1 }).symm)
      change (0 : UInt64) = 1 at threads
      exact absurd threads (by decide)

theorem readsQueueOf_iff (tasks : tm.Tasks params table)
    (used : table (ulongOfTaskid taskId) = some info)
    (own : info.threadId = threadId) :
    tm.ReadsQueueOf params table threadId taskId info ↔ -1 ≤ taskId := by
  have found := tasks.getTaskId_of_task used own
  constructor
  · intro reads
    have same := tasks.pointers_differ used reads.queue
    rw [found] at same
    split_ifs at same with negative
    · exact Int32.le_of_eq same
    · have bound := Int32.not_lt.mp negative
      exact Int32.le_trans (by decide) bound
  · intro bound
    apply tasks.readsQueueOf_of_queue used
    have same : emGetTaskId tm threadId = taskId := by
      rw [found]
      split_ifs with negative
      · exact taskid_eq_neg_one bound negative
      · rfl
    rw [EmTaskmng.recvQueue, same]
    rfl

theorem readsNothing_iff (tasks : tm.Tasks params table)
    (stranger : ∀ id info, table id = some info → info.threadId ≠ threadId) :
    tm.ReadsNothing threadId ↔ table (ulongOfTaskid (-1)) = none := by
  have minusOne := tasks.getTaskId_of_stranger stranger
  constructor
  · intro reads
    have queue := reads.queue
    rw [EmTaskmng.recvQueue, minusOne] at queue
    cases entry : table (ulongOfTaskid (-1)) with
    | none => rfl
    | some info =>
        obtain ⟨ptr, pointer, _⟩ := tasks.holds.getDataPtr_some entry
        rw [emMsgmngGetQueue, pointer] at queue
        cases queue
  · intro unused
    apply readsNothing_of_queue
    rw [EmTaskmng.recvQueue, minusOne]
    exact tasks.holds.getDataPtr_none unused

end EmTaskmng.Tasks

/-- In every task table and for every thread: the thread of a task reads the
queue of this task, and a thread of no task reads nothing, if and only if the
identifier of the task is at least -1 and, for the thread of no task, no task
has the identifier -1. -/
theorem msg_routing_iff {params : DatamngParams} {tm : EmTaskmng}
    {table : UInt64 → Option EmTaskinfo} (tasks : tm.Tasks params table)
    (threadId : UInt64) :
    ((∀ taskId info, table (ulongOfTaskid taskId) = some info →
        info.threadId = threadId →
          tm.ReadsQueueOf params table threadId taskId info) ∧
      ((∀ id info, table id = some info → info.threadId ≠ threadId) →
        tm.ReadsNothing threadId)) ↔
    (∀ taskId info, table (ulongOfTaskid taskId) = some info →
        info.threadId = threadId → -1 ≤ taskId) ∧
      ((∀ id info, table id = some info → info.threadId ≠ threadId) →
        table (ulongOfTaskid (-1)) = none) := by
  constructor
  · rintro ⟨ofTask, ofStranger⟩
    refine ⟨?_, ?_⟩
    · intro taskId info used own
      exact (tasks.readsQueueOf_iff used own).mp (ofTask taskId info used own)
    · intro stranger
      exact (tasks.readsNothing_iff stranger).mp (ofStranger stranger)
  · rintro ⟨fromMinusOne, noMinusOne⟩
    refine ⟨?_, ?_⟩
    · intro taskId info used own
      exact (tasks.readsQueueOf_iff used own).mpr
        (fromMinusOne taskId info used own)
    · intro stranger
      exact (tasks.readsNothing_iff stranger).mpr (noMinusOne stranger)

/-- A table with one task, whose thread is 10. -/
theorem exists_single_task (taskId : EmTaskid) :
    ∃ tm info, EmTaskmng.Tasks (taskTable 2 200 1000) tm
        (Function.update (fun _ => none) (ulongOfTaskid taskId)
          (some info)) ∧ info.threadId = 10 := by
  have valid : (taskTable 2 200 1000).Valid :=
    ⟨⟨by decide, by decide⟩, by decide, by decide, by decide⟩
  let start := (emTaskmngInit default 2 1 200 default 1000).2
  have holds : start.taskinfoMng.Table (taskTable 2 200 1000)
      (fun _ => none) := valid.created_table ⟨rfl, rfl, rfl⟩ _ _
  obtain ⟨tm, info, _, kept, _, thread, _⟩ :=
    @emTaskCreate_new _ start _ holds ⟨[116], taskId, 2⟩ rfl rfl
      (by decide) 10 default
  have only : ∀ id found,
      Function.update (fun _ => none) (ulongOfTaskid taskId) (some info) id =
        some found → id = ulongOfTaskid taskId := by
    intro id found entry
    by_contra different
    rw [Function.update_of_ne different] at entry
    cases entry
  refine ⟨tm, info, ⟨kept, ?_, ?_⟩, thread⟩
  · intro id found entry
    exact ⟨taskId, only id found entry⟩
  · intro left leftInfo isLeft right rightInfo isRight _
    rw [only left leftInfo isLeft, only right rightInfo isRight]

theorem msg_routing_task_three :
    ∃ tm info,
      EmTaskmng.ReadsQueueOf (taskTable 2 200 1000) tm
        (Function.update (fun _ => none) (ulongOfTaskid 3) (some info)) 10 3
        info := by
  obtain ⟨tm, info, tasks, thread⟩ := exists_single_task 3
  have used : Function.update (fun _ => none) (ulongOfTaskid 3) (some info)
      (ulongOfTaskid 3) = some info := Function.update_self ..
  refine ⟨tm, info, ((msg_routing_iff tasks 10).mpr ⟨?_, ?_⟩).1 3 info used
    thread⟩
  · intro taskId found entry _
    by_contra below
    have same : ulongOfTaskid taskId = ulongOfTaskid 3 := by
      by_contra different
      rw [Function.update_of_ne different] at entry
      cases entry
    rw [ulongOfTaskid_injective same] at below
    exact below (by decide)
  · intro stranger
    exact absurd thread (stranger _ _ used)

/-- The thread of the task -2 does not get at its own queue. -/
theorem msg_routing_task_minus_two :
    ¬ ∀ (params : DatamngParams) (tm : EmTaskmng)
        (table : UInt64 → Option EmTaskinfo), tm.Tasks params table →
      ∀ threadId taskId info, table (ulongOfTaskid taskId) = some info →
        info.threadId = threadId →
          tm.ReadsQueueOf params table threadId taskId info := by
  intro always
  obtain ⟨tm, info, tasks, thread⟩ := exists_single_task (-2)
  have used : Function.update (fun _ => none) (ulongOfTaskid (-2))
      (some info) (ulongOfTaskid (-2)) = some info := Function.update_self ..
  have reads := always _ tm _ tasks 10 (-2) info used thread
  exact absurd ((tasks.readsQueueOf_iff used thread).mp reads) (by decide)

end EmbeddedMiddle
