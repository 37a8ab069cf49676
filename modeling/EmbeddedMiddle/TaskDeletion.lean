import EmbeddedMiddle.TaskStart

/-!
# What a deletion of a task touches

Runs of creations and deletions in which the calls on threads may fail.  A
ledger says which thread and which queue were created for a task and are still
there; a deletion may join and destroy only those.
-/

namespace EmbeddedMiddle

open Foundation

/-! ## Effects and their ledger -/

inductive TaskEffect where
  | join (thread : UInt64)
  | destroy (queue : EmQueue)

def TaskDeletion.effects (deletion : TaskDeletion) : List TaskEffect :=
  [.join deletion.joined, .destroy deletion.destroyed]

/-- For each task the thread created for it and not joined, and the queue
created for it and not destroyed. -/
structure TaskLedger where
  thread : EmTaskid → Option UInt64
  queue : EmTaskid → Option EmQueue

namespace TaskLedger

def empty : TaskLedger := ⟨fun _ => none, fun _ => none⟩

def Owns (ledger : TaskLedger) (taskId : EmTaskid) : TaskEffect → Prop
  | .join thread => ledger.thread taskId = some thread
  | .destroy queue => ledger.queue taskId = some queue

/-- A new thread or a new queue takes the place of an old one. -/
def create (ledger : TaskLedger) (taskId : EmTaskid)
    (thread : Option UInt64) (queue : Option EmQueue) : TaskLedger :=
  { thread := Function.update ledger.thread taskId
      (thread.or (ledger.thread taskId))
    queue := Function.update ledger.queue taskId
      (queue.or (ledger.queue taskId)) }

def delete (ledger : TaskLedger) (taskId : EmTaskid) (joined : UInt64) :
    TaskLedger :=
  { thread := fun other =>
      if other = taskId ∨ ledger.thread other = some joined then none
      else ledger.thread other
    queue := Function.update ledger.queue taskId none }

end TaskLedger

/-! ## Runs -/

/-- The task manager with the ledger of the calls so far. -/
structure TaskAccount where
  tm : EmTaskmng
  ledger : TaskLedger

/-- `created` is what `pthread_create` gives, as in `em_task_start_task`;
`taskinfo` is what the stack of `em_task_delete` holds. -/
inductive TaskCall where
  | create (tasksetting : EmTasksetting) (created : Option UInt64)
      (memory : TaskMemory)
  | delete (taskId : EmTaskid) (taskinfo : EmTaskinfo)

/-- The queue that `em_task_create` has put into the table. -/
def EmTaskmng.queueCreated (before after : EmTaskmng) (taskId : EmTaskid) :
    Option EmQueue :=
  if before.full = true ∨ before.msgdataSize ≤ 0 then none
  else (emIdatamngGetData after.taskinfoMng (ulongOfTaskid taskId)).map
    EmTaskinfo.msgqueue

namespace TaskAccount

/-- A name fits into `task_name`; a new thread has an identifier that no thread
in the ledger has. -/
inductive Step : TaskAccount → TaskCall → TaskAccount → Prop where
  | create {account : TaskAccount} {tasksetting : EmTasksetting}
      {created : Option UInt64} {memory : TaskMemory} {ret : ℤ}
      {tm : EmTaskmng} :
      tasksetting.taskName.length < 32 →
      (∀ thread, created = some thread →
        ∀ taskId, account.ledger.thread taskId ≠ some thread) →
      emTaskCreate account.tm tasksetting created memory = (ret, tm) →
      Step account (.create tasksetting created memory)
        ⟨tm, account.ledger.create tasksetting.taskId
          (if ret = 0 then created else none)
          (account.tm.queueCreated tm tasksetting.taskId)⟩
  | delete {account : TaskAccount} {taskId : EmTaskid}
      {taskinfo : EmTaskinfo} {deletion : TaskDeletion} :
      emTaskDelete account.tm taskId taskinfo = deletion →
      Step account (.delete taskId taskinfo)
        ⟨deletion.tm, account.ledger.delete taskId deletion.joined⟩

/-- A deletion touches what the ledger has for its task, and nothing when the
task is not registered: it is then refused. -/
def Clean (before : TaskAccount) (call : TaskCall) (_after : TaskAccount) :
    Prop :=
  match call with
  | .create _ _ _ => True
  | .delete taskId taskinfo =>
      let deletion := emTaskDelete before.tm taskId taskinfo
      (∀ effect ∈ deletion.effects, before.ledger.Owns taskId effect) ∧
        (emIdatamngGetData before.tm.taskinfoMng (ulongOfTaskid taskId) =
            none →
          deletion.ret ≠ 0 ∧ deletion.effects = [] ∧ deletion.tm = before.tm)

/-- The manager has messages, and a creation of the task has succeeded since
the task was deleted last. -/
def Careful (account : TaskAccount) : TaskCall → Prop
  | .create _ _ _ => True
  | .delete taskId _ =>
      0 < account.tm.msgdataSize ∧ account.ledger.thread taskId ≠ none

end TaskAccount

/-! ## Creations and the table -/

section Calls

variable {params : DatamngParams} {tm : EmTaskmng}
  {table : UInt64 → Option EmTaskinfo}

/-- Where messages are available the task is registered afterwards, and a task
registered before keeps its thread. -/
theorem emTaskCreateMsgqueue_room
    (holds : tm.taskinfoMng.Table params table) (room : tm.full = false)
    (tasksetting : EmTasksetting) (memory : TaskMemory) :
    ∃ dm entry,
      emTaskCreateMsgqueue tm tasksetting memory =
        (0, { tm with taskinfoMng := dm }) ∧
      dm.Table params (Function.update table
        (ulongOfTaskid tasksetting.taskId) entry) ∧
      (0 < tm.msgdataSize → entry ≠ none) ∧
      (entry = none → dm = tm.taskinfoMng) ∧
      (∀ old, table (ulongOfTaskid tasksetting.taskId) = some old →
        ∃ info, entry = some info ∧ info.threadId = old.threadId) := by
  by_cases available : tm.msgdataSize ≤ 0
  · refine ⟨tm.taskinfoMng, table (ulongOfTaskid tasksetting.taskId), ?_, ?_,
      ?_, ?_, ?_⟩
    · rw [emTaskCreateMsgqueue, if_pos available]
    · rw [Function.update_eq_self]
      exact holds
    · intro positive
      omega
    · intro _
      rfl
    · intro old registered
      exact ⟨old, registered, rfl⟩
  · cases entry : table (ulongOfTaskid tasksetting.taskId) with
    | some old =>
        obtain ⟨ptr, pointer, content, written⟩ :=
          holds.getDataPtr_some entry
        rw [emTaskCreateMsgqueue, if_neg available]
        simp only [pointer, content]
        refine ⟨_, _, rfl, written _, by simp, by simp, ?_⟩
        intro other isOld
        cases isOld
        exact ⟨_, rfl, rfl⟩
    | none =>
        have notFull : tm.taskinfoMng.mp.numUsed ≠ tm.taskinfoMng.mp.numMax :=
          by simpa [EmTaskmng.full] using room
        obtain ⟨dm, added, addedHolds, _⟩ := holds.addData_room entry notFull
          { memory.msgqueueInfo with
            msgqueue := emQueueCreate memory.msgqueueInfo.msgqueue
              tm.msgdataSize.toNat tasksetting.mqueueSize memory.blockPtr
              memory.rawdata }
        rw [emTaskCreateMsgqueue, if_neg available]
        simp only [holds.getDataPtr_none entry, added]
        exact ⟨dm, _, rfl, addedHolds, by simp, by simp, by simp⟩

/-- A creation with room in the table: with a new thread it succeeds and the
task has this thread, without one it fails and a registered task keeps its
thread. -/
theorem emTaskCreate_room
    (holds : tm.taskinfoMng.Table params table) (room : tm.full = false)
    (tasksetting : EmTasksetting) (created : Option UInt64)
    (memory : TaskMemory) :
    ∃ ret after entry,
      emTaskCreate tm tasksetting created memory = (ret, after) ∧
      after.msgdataSize = tm.msgdataSize ∧
      after.taskinfoMng.Table params (Function.update table
        (ulongOfTaskid tasksetting.taskId) entry) ∧
      (0 < tm.msgdataSize → entry ≠ none) ∧
      (∀ thread, created = some thread →
        ret = 0 ∧ ∃ info, entry = some info ∧ info.threadId = thread) ∧
      (created = none → ret ≠ 0 ∧
        ∀ old, table (ulongOfTaskid tasksetting.taskId) = some old →
          ∃ info, entry = some info ∧ info.threadId = old.threadId) := by
  obtain ⟨dm, entry, queued, holdsQueued, present, absent, keptThread⟩ :=
    emTaskCreateMsgqueue_room holds room tasksetting memory
  generalize isNext : ({ tm with taskinfoMng := dm } : EmTaskmng) = next
    at queued
  have nextSize : next.msgdataSize = tm.msgdataSize := by rw [← isNext]
  have nextHolds : next.taskinfoMng.Table params (Function.update table
      (ulongOfTaskid tasksetting.taskId) entry) := by
    rw [← isNext]
    exact holdsQueued
  have entered : Function.update table (ulongOfTaskid tasksetting.taskId)
      entry (ulongOfTaskid tasksetting.taskId) = entry :=
    Function.update_self _ _ _
  -- The look-up of the start fails only for a task that is still unknown, and
  -- then the table is as it was.
  have goesOn : emIdatamngGetDataPtr next.taskinfoMng
        (ulongOfTaskid tasksetting.taskId) = none →
      entry = none ∧ next.full = false := by
    intro notFound
    cases isEntry : entry with
    | some info =>
        rw [isEntry] at entered nextHolds
        obtain ⟨ptr, pointer, _⟩ := nextHolds.getDataPtr_some entered
        rw [pointer] at notFound
        cases notFound
    | none =>
        refine ⟨rfl, ?_⟩
        rw [← isNext, absent isEntry]
        exact room
  have passes : ¬ (emIdatamngGetDataPtr next.taskinfoMng
      (ulongOfTaskid tasksetting.taskId) = none ∧ next.full = true) := by
    rintro ⟨notFound, full⟩
    rw [(goesOn notFound).2] at full
    cases full
  have found : ∀ ptr, emIdatamngGetDataPtr next.taskinfoMng
        (ulongOfTaskid tasksetting.taskId) = some ptr →
      emIdatamngGetDataPtr next.taskinfoMng
        (ulongOfTaskid tasksetting.taskId) = some ptr := fun _ isPtr => isPtr
  cases created with
  | none =>
      refine ⟨-1, next, entry, ?_, nextSize, nextHolds, present, by simp, ?_⟩
      · simp [emTaskCreate, room, queued, emTaskStartTask, passes]
      · intro _
        exact ⟨by decide, keptThread⟩
  | some thread =>
      obtain ⟨registered, info, isRegistered, registeredHolds, _, isThread⟩ :=
        emTaskRegister_table nextHolds found
          (fun notFound => by
            rw [entered]
            exact goesOn notFound) thread memory.startInfo
      rw [Function.update_idem] at registeredHolds
      refine ⟨0, { next with
          taskinfoMng := registered, sem := emSemPost next.sem },
        some info, ?_, nextSize, registeredHolds, by simp, ?_, by simp⟩
      · simp [emTaskCreate, room, queued, emTaskStartTask, passes,
          isRegistered]
      · intro other isOther
        cases isOther
        exact ⟨rfl, info, rfl, isThread⟩

theorem emTaskDelete_unused (holds : tm.taskinfoMng.Table params table)
    {taskId : EmTaskid} (unused : table (ulongOfTaskid taskId) = none)
    (taskinfo : EmTaskinfo) :
    emTaskDelete tm taskId taskinfo =
      ⟨taskinfo.threadId, taskinfo.msgqueue, 0, tm⟩ := by
  rw [emTaskDelete, holds.getData_eq, unused, holds.removeData_unused unused]
  rfl

end Calls

/-! ## Table and ledger -/

/-- The ledger has the threads of the table as far as they are known, and all
queues of the table when there are messages. -/
structure TaskAccount.Agrees (params : DatamngParams) (msgdataSize : ℤ)
    (account : TaskAccount) (table : UInt64 → Option EmTaskinfo) : Prop where
  holds : account.tm.taskinfoMng.Table params table
  msgdataSize_eq : account.tm.msgdataSize = msgdataSize
  thread : ∀ taskId thread, account.ledger.thread taskId = some thread →
    ∃ info, table (ulongOfTaskid taskId) = some info ∧
      info.threadId = thread
  queue : ∀ taskId, account.ledger.queue taskId =
    if 0 < msgdataSize then
      (table (ulongOfTaskid taskId)).map EmTaskinfo.msgqueue
    else none
  distinct : ∀ left right thread,
    account.ledger.thread left = some thread →
      account.ledger.thread right = some thread → left = right

namespace TaskAccount.Agrees

variable {params : DatamngParams} {msgdataSize : ℤ} {account : TaskAccount}
  {table : UInt64 → Option EmTaskinfo}

/-- The guard tells exactly which deletions are clean. -/
theorem clean_iff (agrees : account.Agrees params msgdataSize table)
    (taskId : EmTaskid) (taskinfo : EmTaskinfo) (after : TaskAccount) :
    account.Clean (.delete taskId taskinfo) after ↔
      account.Careful (.delete taskId taskinfo) := by
  have isQueue := agrees.queue taskId
  rw [TaskAccount.Clean, TaskAccount.Careful, agrees.holds.getData_eq,
    agrees.msgdataSize_eq]
  cases entry : table (ulongOfTaskid taskId) with
  | none =>
      constructor
      · rintro ⟨_, refused⟩
        have ret := (refused rfl).1
        rw [emTaskDelete_unused agrees.holds entry] at ret
        exact absurd rfl ret
      · rintro ⟨_, created⟩
        obtain ⟨thread, isThread⟩ := Option.ne_none_iff_exists'.mp created
        obtain ⟨info, registered, _⟩ := agrees.thread _ _ isThread
        rw [entry] at registered
        cases registered
  | some info =>
      have joined := (emTaskDelete_used agrees.holds entry taskinfo).1
      have destroyed :
          (emTaskDelete account.tm taskId taskinfo).destroyed =
            info.msgqueue := by
        rw [emTaskDelete, agrees.holds.getData_eq, entry]
        rfl
      rw [entry] at isQueue
      simp only [TaskDeletion.effects, joined, destroyed, List.mem_cons,
        List.not_mem_nil, or_false, forall_eq_or_imp, forall_eq,
        TaskLedger.Owns, isQueue]
      constructor
      · rintro ⟨⟨owned, inLedger⟩, _⟩
        refine ⟨?_, by rw [owned]; simp⟩
        by_contra unavailable
        rw [if_neg unavailable] at inLedger
        cases inLedger
      · rintro ⟨available, created⟩
        obtain ⟨thread, isThread⟩ := Option.ne_none_iff_exists'.mp created
        obtain ⟨found, registered, same⟩ := agrees.thread _ _ isThread
        rw [entry] at registered
        cases registered
        rw [if_pos available, isThread, same]
        simp

theorem delete (agrees : account.Agrees params msgdataSize table)
    {taskId : EmTaskid} {taskinfo : EmTaskinfo}
    (careful : account.Careful (.delete taskId taskinfo)) :
    ∃ next, TaskAccount.Agrees params msgdataSize
      ⟨(emTaskDelete account.tm taskId taskinfo).tm,
        account.ledger.delete taskId
          (emTaskDelete account.tm taskId taskinfo).joined⟩ next := by
  obtain ⟨thread, isThread⟩ := Option.ne_none_iff_exists'.mp careful.2
  obtain ⟨info, entry, sameThread⟩ := agrees.thread _ _ isThread
  obtain ⟨joined, size, holds⟩ :=
    emTaskDelete_used agrees.holds entry taskinfo
  have kept : ∀ other otherThread,
      (account.ledger.delete taskId
        (emTaskDelete account.tm taskId taskinfo).joined).thread other =
          some otherThread →
        other ≠ taskId ∧ account.ledger.thread other = some otherThread := by
    intro other otherThread isOther
    change (if _ then none else _) = _ at isOther
    split_ifs at isOther with removed
    exact ⟨fun same => removed (.inl same), isOther⟩
  refine ⟨_, holds, size.trans agrees.msgdataSize_eq, ?_, ?_, ?_⟩
  · intro other otherThread isOther
    obtain ⟨apart, before⟩ := kept other otherThread isOther
    rw [Function.update_of_ne
      (fun ulongs => apart (ulongOfTaskid_injective ulongs))]
    exact agrees.thread other otherThread before
  · intro other
    change Function.update account.ledger.queue taskId none other = _
    by_cases same : other = taskId
    · subst same
      simp
    · rw [Function.update_of_ne same, Function.update_of_ne
        (fun ulongs => same (ulongOfTaskid_injective ulongs))]
      exact agrees.queue other
  · intro left right shared isLeft isRight
    exact agrees.distinct left right shared (kept _ _ isLeft).2
      (kept _ _ isRight).2

/-- The threads after a creation: a new one of the task, or those that were
there. -/
theorem thread_create {ledger : TaskLedger} {taskId : EmTaskid}
    {new : Option UInt64} {queue : Option EmQueue} {other : EmTaskid}
    {thread : UInt64}
    (isThread : (ledger.create taskId new queue).thread other =
      some thread) :
    (other = taskId ∧ new = some thread) ∨
      ledger.thread other = some thread := by
  change Function.update ledger.thread taskId
    (new.or (ledger.thread taskId)) other = some thread at isThread
  rcases update_eq_cases isThread with ⟨same, isEither⟩ | ⟨_, before⟩
  · rcases Option.or_eq_some_iff.mp isEither with isNew | ⟨_, before⟩
    · exact .inl ⟨same, isNew⟩
    · exact .inr (same ▸ before)
  · exact .inr before

/-- A new thread belongs to its task only. -/
theorem distinct_create {ledger : TaskLedger} {taskId : EmTaskid}
    {new : Option UInt64} {queue : Option EmQueue}
    (distinct : ∀ left right thread, ledger.thread left = some thread →
      ledger.thread right = some thread → left = right)
    (fresh : ∀ thread, new = some thread →
      ∀ other, ledger.thread other ≠ some thread)
    (left right : EmTaskid) (thread : UInt64)
    (isLeft : (ledger.create taskId new queue).thread left = some thread)
    (isRight : (ledger.create taskId new queue).thread right =
      some thread) : left = right := by
  rcases thread_create isLeft with ⟨rfl, newLeft⟩ | oldLeft
  · rcases thread_create isRight with ⟨rfl, _⟩ | oldRight
    · rfl
    · exact absurd oldRight (fresh thread newLeft right)
  · rcases thread_create isRight with ⟨_, newRight⟩ | oldRight
    · exact absurd oldLeft (fresh thread newRight left)
    · exact distinct left right thread oldLeft oldRight

/-- Which thread the table has for the task that a creation has entered. -/
theorem thread_entered (agrees : account.Agrees params msgdataSize table)
    {taskId : EmTaskid} {created : Option UInt64} {ret : ℤ}
    {entry : Option EmTaskinfo} {queue : Option EmQueue}
    (succeeds : ∀ thread, created = some thread →
      ret = 0 ∧ ∃ info, entry = some info ∧ info.threadId = thread)
    (fails : created = none → ret ≠ 0 ∧
      ∀ old, table (ulongOfTaskid taskId) = some old →
        ∃ info, entry = some info ∧ info.threadId = old.threadId)
    {thread : UInt64}
    (isThread : (account.ledger.create taskId
      (if ret = 0 then created else none) queue).thread taskId =
        some thread) :
    ∃ info, entry = some info ∧ info.threadId = thread := by
  cases isCreated : created with
  | some new =>
      obtain ⟨success, info, isInfo, isNew⟩ := succeeds new isCreated
      change Function.update account.ledger.thread taskId _ taskId = _
        at isThread
      rw [Function.update_self, if_pos success, isCreated] at isThread
      cases isThread
      exact ⟨info, isInfo, isNew⟩
  | none =>
      rcases thread_create isThread with ⟨_, isNew⟩ | before
      · rw [isCreated, ite_self] at isNew
        cases isNew
      · obtain ⟨old, registered, isOld⟩ := agrees.thread _ thread before
        obtain ⟨info, isInfo, kept⟩ := (fails isCreated).2 old registered
        exact ⟨info, isInfo, kept.trans isOld⟩

theorem create (agrees : account.Agrees params msgdataSize table)
    {tasksetting : EmTasksetting} {created : Option UInt64}
    {memory : TaskMemory} {ret : ℤ} {tm : EmTaskmng}
    (fresh : ∀ thread, created = some thread →
      ∀ taskId, account.ledger.thread taskId ≠ some thread)
    (called : emTaskCreate account.tm tasksetting created memory =
      (ret, tm)) :
    ∃ next, TaskAccount.Agrees params msgdataSize
      ⟨tm, account.ledger.create tasksetting.taskId
        (if ret = 0 then created else none)
        (account.tm.queueCreated tm tasksetting.taskId)⟩ next := by
  have isFresh : ∀ thread, (if ret = 0 then created else none) =
      some thread → ∀ taskId, account.ledger.thread taskId ≠ some thread := by
    intro thread isNew
    split_ifs at isNew
    exact fresh thread isNew
  cases full : account.tm.full with
  | true =>
      rw [emTaskCreate_full full] at called
      obtain ⟨rfl, rfl⟩ := Prod.mk.inj called
      refine ⟨table, agrees.holds, agrees.msgdataSize_eq, ?_, ?_,
        distinct_create agrees.distinct isFresh⟩
      · intro taskId thread isThread
        rcases thread_create isThread with ⟨_, isNew⟩ | before
        · cases isNew
        · exact agrees.thread taskId thread before
      · intro taskId
        change Function.update account.ledger.queue tasksetting.taskId _
          taskId = _
        simp only [EmTaskmng.queueCreated, full, true_or, if_true,
          Option.none_or, Function.update_eq_self]
        exact agrees.queue taskId
  | false =>
      obtain ⟨code, after, entry, result, size, holds, present, succeeds,
        fails⟩ := emTaskCreate_room agrees.holds full tasksetting created
          memory
      obtain ⟨rfl, rfl⟩ := Prod.mk.inj (called.symm.trans result)
      refine ⟨_, holds, size.trans agrees.msgdataSize_eq, ?_, ?_,
        distinct_create agrees.distinct isFresh⟩
      · intro taskId thread isThread
        by_cases same : taskId = tasksetting.taskId
        · subst same
          rw [Function.update_self]
          exact agrees.thread_entered succeeds fails isThread
        · rcases thread_create isThread with ⟨isTask, _⟩ | before
          · exact absurd isTask same
          · rw [Function.update_of_ne
              (fun ulongs => same (ulongOfTaskid_injective ulongs))]
            exact agrees.thread taskId thread before
      · intro taskId
        change Function.update account.ledger.queue tasksetting.taskId _
          taskId = _
        by_cases same : taskId = tasksetting.taskId
        · subst same
          rw [Function.update_self, Function.update_self,
            EmTaskmng.queueCreated, full, agrees.msgdataSize_eq,
            holds.getData_eq, Function.update_self, agrees.queue]
          by_cases available : 0 < msgdataSize
          · obtain ⟨info, isInfo⟩ := Option.ne_none_iff_exists'.mp
              (present (agrees.msgdataSize_eq ▸ available))
            simp [available, isInfo]
          · simp [available]
        · rw [Function.update_of_ne same, Function.update_of_ne
            (fun ulongs => same (ulongOfTaskid_injective ulongs))]
          exact agrees.queue taskId

end TaskAccount.Agrees

/-! ## Deletions in runs -/

theorem TaskAccount.Agrees.step {params : DatamngParams} {msgdataSize : ℤ}
    {before after : TaskAccount} {table : UInt64 → Option EmTaskinfo}
    {call : TaskCall}
    (agrees : before.Agrees params msgdataSize table)
    (taken : Guarded TaskAccount.Careful TaskAccount.Step before call after) :
    ∃ next, after.Agrees params msgdataSize next := by
  obtain ⟨careful, taken⟩ := taken
  cases taken with
  | create _ fresh called => exact agrees.create fresh called
  | delete called =>
      subst called
      exact agrees.delete careful

/-- The runs in which every deletion touches only what was created for its
task, and refuses unknown tasks, are those in which messages are available and
every deletion follows a successful creation of its task. -/
theorem task_deletion_clean_iff (memory : EmTaskmng) (maxNumTask : ℕ)
    (msgdataSize : ℤ) (sizeofTaskinfo : ℕ) (keymem : Bytes) (rawdata : ℤ)
    (valid : (taskTable maxNumTask sizeofTaskinfo rawdata).Valid)
    (calls : List TaskCall) (account : TaskAccount) :
    Run (Upholding TaskAccount.Clean TaskAccount.Step)
        ⟨(emTaskmngInit memory maxNumTask msgdataSize sizeofTaskinfo keymem
          rawdata).2, .empty⟩ calls account ↔
      Run (Guarded TaskAccount.Careful TaskAccount.Step)
        ⟨(emTaskmngInit memory maxNumTask msgdataSize sizeofTaskinfo keymem
          rawdata).2, .empty⟩ calls account := by
  apply Run.upholding_iff (fun account => ∃ table, account.Agrees
    (taskTable maxNumTask sizeofTaskinfo rawdata) msgdataSize table)
  · refine ⟨fun _ => none, valid.created_table ⟨rfl, rfl, rfl⟩ _ _, rfl, ?_,
      ?_, ?_⟩
    · intro taskId thread isThread
      cases isThread
    · intro taskId
      simp [TaskLedger.empty]
    · intro left right thread isLeft
      cases isLeft
  · rintro before call after ⟨table, agrees⟩ taken
    exact agrees.step taken
  · rintro before call after ⟨table, agrees⟩ taken
    cases taken with
    | create _ _ _ => exact Iff.rfl
    | delete _ => exact agrees.clean_iff _ _ _

theorem task_deletion_clean_two_calls :
    ∃ account, Run (Upholding TaskAccount.Clean TaskAccount.Step)
      ⟨(emTaskmngInit default 2 1 200 default 1000).2, .empty⟩
      [.create ⟨[116], 1, 2⟩ (some 10) default, .delete 1 default]
      account := by
  have created : ∃ account, Run (Guarded TaskAccount.Careful TaskAccount.Step)
      ⟨(emTaskmngInit default 2 1 200 default 1000).2, .empty⟩
      [.create ⟨[116], 1, 2⟩ (some 10) default] account ∧
      account.tm.msgdataSize = 1 ∧
      account.ledger.thread 1 = some 10 := by
    refine ⟨_, .cons ⟨trivial, .create (by decide) ?_ rfl⟩ .nil, rfl, ?_⟩
    · intro thread _ taskId inLedger
      cases inLedger
    · decide +kernel
  obtain ⟨account, run, size, isThread⟩ := created
  have careful : account.Careful (.delete 1 default) := by
    refine ⟨?_, ?_⟩
    · rw [size]
      decide
    · rw [isThread]
      simp
  exact ⟨_, (task_deletion_clean_iff default 2 1 200 default 1000
    ⟨⟨by decide, by decide⟩, by decide, by decide, by decide⟩ _ _).mpr
    (run.snoc ⟨careful, .delete rfl⟩)⟩

/-- The deletion of a task that was never created joins whatever thread the
stack names, and reports success. -/
theorem task_deletion_of_unknown :
    ∃ account, Run TaskAccount.Step
        ⟨(emTaskmngInit default 2 1 200 default 1000).2, .empty⟩ []
        account ∧
      ∃ after, account.Step (.delete 1 ⟨77, default, default⟩)
          after ∧
        ¬ account.Clean (.delete 1 ⟨77, default, default⟩)
          after := by
  refine ⟨_, .nil, _, .delete rfl, ?_⟩
  intro clean
  have ret := (clean.2 rfl).1
  exact ret rfl

end EmbeddedMiddle
