import EmbeddedMiddle.TaskMessages
import EmbeddedMiddle.Foundation.Interleaving

/-!
# The start gate of tasks

`em_task_start_task` in single steps, for any number of callers, interleaved
with the threads it creates.  A new thread waits for the semaphore of the task
manager before it runs its entry function; a call posts the semaphore after it
has written the thread into the table.
-/

namespace EmbeddedMiddle

open Foundation

/-! ## The steps -/

inductive StartParty where
  | caller (number : ℕ)
  | thread (threadId : UInt64)
  deriving DecidableEq

/-- The task manager, and the threads created so far with their tasks. -/
structure StartShared where
  tm : EmTaskmng
  created : UInt64 → Option EmTaskid

/-- Where a caller of `em_task_start_task` is; a created thread is idle before
the gate, running behind it, and ended when its entry function has returned. -/
inductive StartPlace where
  | idle
  | looking (tasksetting : EmTasksetting) (memory : TaskMemory)
  | checking (tasksetting : EmTasksetting) (memory : TaskMemory)
      (taskInfo : Option ℤ)
  | creating (tasksetting : EmTasksetting) (memory : TaskMemory)
      (taskInfo : Option ℤ)
  | registering (tasksetting : EmTasksetting) (memory : TaskMemory)
      (taskInfo : Option ℤ) (threadId : UInt64)
  | posting
  | running
  | ended

inductive StartAction where
  | createMsgqueue (tasksetting : EmTasksetting) (memory : TaskMemory)
  | call (tasksetting : EmTasksetting) (memory : TaskMemory)
  | getDataPtr
  | reject
  | accept
  | createFailed
  | create (threadId : UInt64)
  | register
  | post
  | enter
  | finish

/-- One step of `em_task_start_task`, or of `_em_thread_starter` with a wait
that no signal interrupts.  Between two starts a caller may also create message
queues, as `em_task_create` does before each start.  A new thread gets an
identifier that no created thread has. -/
inductive StartProgram : StartParty → StartShared → StartPlace → StartAction →
    StartShared → StartPlace → Prop where
  | createMsgqueue {number tm created} {tasksetting : EmTasksetting}
      {memory : TaskMemory} :
      StartProgram (.caller number) ⟨tm, created⟩ .idle
        (.createMsgqueue tasksetting memory)
        ⟨(emTaskCreateMsgqueue tm tasksetting memory).2, created⟩ .idle
  | call {number shared tasksetting memory} :
      StartProgram (.caller number) shared .idle (.call tasksetting memory)
        shared (.looking tasksetting memory)
  | getDataPtr {number tm created tasksetting memory} :
      StartProgram (.caller number) ⟨tm, created⟩
        (.looking tasksetting memory) .getDataPtr ⟨tm, created⟩
        (.checking tasksetting memory (emIdatamngGetDataPtr
          tm.taskinfoMng (ulongOfTaskid tasksetting.taskId)))
  | reject {number shared tasksetting memory taskInfo} :
      taskInfo = none ∧ shared.tm.full →
      StartProgram (.caller number) shared
        (.checking tasksetting memory taskInfo) .reject shared .idle
  | accept {number shared tasksetting memory taskInfo} :
      ¬(taskInfo = none ∧ shared.tm.full) →
      StartProgram (.caller number) shared
        (.checking tasksetting memory taskInfo) .accept shared
        (.creating tasksetting memory taskInfo)
  | createFailed {number shared tasksetting memory taskInfo} :
      StartProgram (.caller number) shared
        (.creating tasksetting memory taskInfo) .createFailed shared .idle
  | create {number tm created tasksetting memory taskInfo threadId} :
      created threadId = none →
      StartProgram (.caller number) ⟨tm, created⟩
        (.creating tasksetting memory taskInfo) (.create threadId)
        ⟨tm, Function.update created threadId (some tasksetting.taskId)⟩
        (.registering tasksetting memory taskInfo threadId)
  | register {number tm created tasksetting memory taskInfo threadId} :
      StartProgram (.caller number) ⟨tm, created⟩
        (.registering tasksetting memory taskInfo threadId) .register
        ⟨emTaskRegister tm tasksetting taskInfo threadId memory.startInfo,
          created⟩ .posting
  | post {number tm created} :
      StartProgram (.caller number) ⟨tm, created⟩ .posting .post
        ⟨{ tm with sem := emSemPost tm.sem }, created⟩ .idle
  | enter {threadId tm created taskId sem} :
      created threadId = some taskId →
      emSemWait tm.sem emNoTimeout = some (emSuccess, sem) →
      StartProgram (.thread threadId) ⟨tm, created⟩ .idle .enter
        ⟨{ tm with sem }, created⟩ .running
  | finish {threadId shared} :
      StartProgram (.thread threadId) shared .running .finish shared .ended

abbrev StartState := Threads StartParty StartShared StartPlace

namespace StartState

/-- After `em_taskmng_init`, before the first call. -/
def init (tm : EmTaskmng) : StartState :=
  ⟨⟨tm, fun _ => none⟩, fun _ => .idle⟩

/-- Every thread that runs its entry function is in the table with the task it
was created for, and finds the identifier of this task. -/
def Gated (state : StartState) : Prop :=
  ∀ threadId taskId, state.place (.thread threadId) = .running →
    state.shared.created threadId = some taskId →
      (∃ info,
        emIdatamngGetData state.shared.tm.taskinfoMng
          (ulongOfTaskid taskId) = some info ∧ info.threadId = threadId) ∧
      emGetTaskId state.shared.tm threadId = taskId

/-- Nobody waits at the gate. -/
def GateClear (state : StartState) : Prop :=
  ∀ threadId, state.shared.created threadId ≠ none →
    state.place (.thread threadId) ≠ .idle

/-- No task in the table has this thread. -/
def Unlisted (state : StartState) (threadId : UInt64) : Prop :=
  ∀ id info, emIdatamngGetData state.shared.tm.taskinfoMng id = some info →
    info.threadId ≠ threadId

/-- `pthread_create` is called while nobody waits at the gate, for an
identifier that `em_get_task_id` can return and with a name that fits.  When its
thread is written into the table, a task that was not found there is still
missing and finds room, and no earlier thread of the task runs.  What a message
queue leaves as the thread of its task, from the stack of the call, is not the
identifier of a thread. -/
def Careful (state : StartState) : StartParty × StartAction → Prop
  | (_, .createMsgqueue tasksetting memory) =>
      0 < state.shared.tm.msgdataSize → state.shared.tm.full = false →
        emIdatamngGetData state.shared.tm.taskinfoMng
          (ulongOfTaskid tasksetting.taskId) = none →
        state.shared.created memory.msgqueueInfo.threadId = none
  | (party, .create threadId) =>
      match state.place party with
      | .creating tasksetting _ _ =>
          state.GateClear ∧ state.Unlisted threadId ∧
            -1 ≤ tasksetting.taskId ∧ tasksetting.taskName.length < 32
      | _ => True
  | (party, .register) =>
      match state.place party with
      | .registering tasksetting _ taskInfo _ =>
          (taskInfo = none →
            emIdatamngGetData state.shared.tm.taskinfoMng
                (ulongOfTaskid tasksetting.taskId) = none ∧
              state.shared.tm.full = false) ∧
          ∀ other, state.shared.created other = some tasksetting.taskId →
            state.place (.thread other) ≠ .running
      | _ => True
  | _ => True

section Moves

variable (place : StartParty → StartPlace) (new : StartPlace)

theorem threads_caller (number : ℕ) :
    Function.update place (.caller number) new ∘ .thread =
      place ∘ .thread := by
  apply Function.update_comp_eq_of_forall_ne
  intro threadId same
  cases same

theorem callers_caller (number : ℕ) :
    Function.update place (.caller number) new ∘ .caller =
      Function.update (place ∘ .caller) number new := by
  apply Function.update_comp_eq_of_injective
  intro left right same
  exact StartParty.caller.inj same

theorem threads_thread (threadId : UInt64) :
    Function.update place (.thread threadId) new ∘ .thread =
      Function.update (place ∘ .thread) threadId new := by
  apply Function.update_comp_eq_of_injective
  intro left right same
  exact StartParty.thread.inj same

theorem callers_thread (threadId : UInt64) :
    Function.update place (.thread threadId) new ∘ .caller =
      place ∘ .caller := by
  apply Function.update_comp_eq_of_forall_ne
  intro number same
  cases same

end Moves

end StartState

/-! ## What the calls do to the table -/

section Calls

variable {params : DatamngParams} {tm : EmTaskmng}
  {table : UInt64 → Option EmTaskinfo}

/-- The thread of a known task stays; that of a new one comes from the
stack. -/
theorem emTaskCreateMsgqueue_table
    (holds : tm.taskinfoMng.Table params table) (tasksetting : EmTasksetting)
    (memory : TaskMemory) :
    (emTaskCreateMsgqueue tm tasksetting memory).2 = tm ∨
      ∃ dm info,
        (emTaskCreateMsgqueue tm tasksetting memory).2 =
          { tm with taskinfoMng := dm } ∧
        dm.Table params (Function.update table
          (ulongOfTaskid tasksetting.taskId) (some info)) ∧
        tm.taskinfoMng.PointersStay dm ∧
        ((∃ old, table (ulongOfTaskid tasksetting.taskId) = some old ∧
            info.threadId = old.threadId) ∨
          (0 < tm.msgdataSize ∧ tm.full = false ∧
            table (ulongOfTaskid tasksetting.taskId) = none ∧
            info.threadId = memory.msgqueueInfo.threadId)) := by
  by_cases available : tm.msgdataSize ≤ 0
  · left
    rw [emTaskCreateMsgqueue, if_pos available]
  · cases entry : table (ulongOfTaskid tasksetting.taskId) with
    | some old =>
        obtain ⟨ptr, pointer, content, written⟩ :=
          holds.getDataPtr_some entry
        right
        rw [emTaskCreateMsgqueue, if_neg available]
        simp only [pointer, content]
        exact ⟨_, _, rfl, written _, fun _ _ kept => kept,
          .inl ⟨old, rfl, rfl⟩⟩
    | none =>
        rw [emTaskCreateMsgqueue, if_neg available]
        simp only [holds.getDataPtr_none entry]
        by_cases full : tm.taskinfoMng.mp.numUsed = tm.taskinfoMng.mp.numMax
        · left
          rw [holds.addData_full entry full]
        · right
          obtain ⟨dm, added, addedHolds, stay⟩ := holds.addData_room entry full
            { memory.msgqueueInfo with
              msgqueue := emQueueCreate memory.msgqueueInfo.msgqueue
                tm.msgdataSize.toNat tasksetting.mqueueSize memory.blockPtr
                memory.rawdata }
          rw [added]
          exact ⟨dm, _, rfl, addedHolds, stay, .inr
            ⟨Int.not_le.mp available, by simp [EmTaskmng.full, full],
              trivial, rfl⟩⟩

theorem emTaskRegister_table (holds : tm.taskinfoMng.Table params table)
    {tasksetting : EmTasksetting} {taskInfo : Option ℤ}
    (found : ∀ ptr, taskInfo = some ptr → emIdatamngGetDataPtr tm.taskinfoMng
      (ulongOfTaskid tasksetting.taskId) = some ptr)
    (missing : taskInfo = none →
      table (ulongOfTaskid tasksetting.taskId) = none ∧ tm.full = false)
    (threadId : UInt64) (startInfo : EmTaskinfo) :
    ∃ dm info,
      emTaskRegister tm tasksetting taskInfo threadId startInfo =
        { tm with taskinfoMng := dm } ∧
      dm.Table params (Function.update table
        (ulongOfTaskid tasksetting.taskId) (some info)) ∧
      tm.taskinfoMng.PointersStay dm ∧ info.threadId = threadId := by
  cases taskInfo with
  | none =>
      obtain ⟨unused, room⟩ := missing rfl
      obtain ⟨dm, added, addedHolds, stay⟩ := holds.addData_room unused
        (by simpa [EmTaskmng.full] using room)
        (startInfo.start tasksetting threadId)
      simp only [emTaskRegister, added]
      exact ⟨dm, _, rfl, addedHolds, stay, rfl⟩
  | some ptr =>
      have isFound := found ptr rfl
      cases entry : table (ulongOfTaskid tasksetting.taskId) with
      | none =>
          rw [holds.getDataPtr_none entry] at isFound
          cases isFound
      | some old =>
          obtain ⟨oldPtr, pointer, _, written⟩ :=
            holds.getDataPtr_some entry
          obtain rfl : oldPtr = ptr :=
            Option.some.inj (pointer.symm.trans isFound)
          exact ⟨_, _, rfl, written _, fun _ _ kept => kept, rfl⟩

end Calls

/-! ## Phases

In a careful run at most one thread waits at the gate.  Its start goes through
the phases below, one after the other. -/

inductive StartPhase where
  | quiet
  | registering (number : ℕ) (threadId : UInt64)
  | posting (number : ℕ) (threadId : UInt64)
  | posted (threadId : UInt64)

namespace StartPhase

def caller : StartPhase → Option ℕ
  | .registering number _ => some number
  | .posting number _ => some number
  | _ => none

def waiting : StartPhase → Option UInt64
  | .quiet => none
  | .registering _ threadId => some threadId
  | .posting _ threadId => some threadId
  | .posted threadId => some threadId

def tokens : StartPhase → ℕ
  | .posted _ => 1
  | _ => 0

end StartPhase

namespace StartPlace

/-- A caller between `pthread_create` and `em_sem_post`. -/
def busy : StartPlace → Bool
  | .registering _ _ _ _ => true
  | .posting => true
  | _ => false

/-- The data pointer that a caller has, and its task. -/
def pointer : StartPlace → Option (EmTaskid × ℤ)
  | .checking tasksetting _ taskInfo => taskInfo.map (tasksetting.taskId, ·)
  | .creating tasksetting _ taskInfo => taskInfo.map (tasksetting.taskId, ·)
  | .registering tasksetting _ taskInfo _ =>
      taskInfo.map (tasksetting.taskId, ·)
  | _ => none

end StartPlace

/-- A created thread that is in the table with its task. -/
def Entered (created : UInt64 → Option EmTaskid)
    (table : UInt64 → Option EmTaskinfo) (threadId : UInt64) : Prop :=
  ∃ taskId info, created threadId = some taskId ∧
    table (ulongOfTaskid taskId) = some info ∧ info.threadId = threadId

/-- The entry of a task changes; a thread of the task has to be in the new
entry. -/
theorem Entered.update {created : UInt64 → Option EmTaskid}
    {table : UInt64 → Option EmTaskinfo} {threadId : UInt64}
    (entered : Entered created table threadId) {taskId : EmTaskid}
    {info : EmTaskinfo}
    (kept : created threadId = some taskId → info.threadId = threadId) :
    Entered created
      (Function.update table (ulongOfTaskid taskId) (some info))
      threadId := by
  obtain ⟨ownId, own, isCreated, used, isThread⟩ := entered
  by_cases same : ownId = taskId
  · subst same
    exact ⟨ownId, info, isCreated, Function.update_self _ _ _,
      kept isCreated⟩
  · have apart : ulongOfTaskid ownId ≠ ulongOfTaskid taskId :=
      fun ulongs => same (ulongOfTaskid_injective ulongs)
    exact ⟨ownId, own, isCreated, (Function.update_of_ne apart _ _).trans used,
      isThread⟩

section Phased

variable (params : DatamngParams) (tm : EmTaskmng)
  (created : UInt64 → Option EmTaskid) (threads : UInt64 → StartPlace)
  (callers : ℕ → StartPlace) (table : UInt64 → Option EmTaskinfo)

/-- What the phase says about the thread at the gate. -/
def StartPhase.Current : StartPhase → Prop
  | .quiet => True
  | .registering number threadId =>
      ∃ tasksetting memory taskInfo,
        callers number = .registering tasksetting memory taskInfo threadId ∧
        created threadId = some tasksetting.taskId
  | .posting number threadId =>
      callers number = .posting ∧ Entered created table threadId
  | .posted threadId => Entered created table threadId

structure Phased (phase : StartPhase) : Prop where
  holds : tm.taskinfoMng.Table params table
  entries : ∀ id info taskId, table id = some info →
    created info.threadId = some taskId → id = ulongOfTaskid taskId
  pointers : ∀ number taskId ptr,
    (callers number).pointer = some (taskId, ptr) →
      emIdatamngGetDataPtr tm.taskinfoMng (ulongOfTaskid taskId) = some ptr
  inRange : ∀ threadId taskId, created threadId = some taskId → -1 ≤ taskId
  uncreated : ∀ threadId, created threadId = none → threads threadId = .idle
  entered : ∀ threadId, threads threadId = .running →
    Entered created table threadId
  busy : ∀ number, (callers number).busy = true →
    phase.caller = some number
  arrived : ∀ threadId, created threadId ≠ none → threads threadId = .idle →
    phase.waiting = some threadId
  atGate : ∀ threadId, phase.waiting = some threadId →
    created threadId ≠ none ∧ threads threadId = .idle
  tokens : tm.sem.count = phase.tokens
  current : phase.Current created callers table

end Phased

/-- The one negative identifier that `em_get_task_id` can return. -/
theorem taskid_eq_neg_one {taskId : EmTaskid} (atLeast : -1 ≤ taskId)
    (negative : taskId < 0) : -1 = taskId := by
  have minusOne : (-1 : EmTaskid).toInt = -1 := by decide
  have zero : (0 : EmTaskid).toInt = 0 := by decide
  rw [Int32.le_iff_toInt_le] at atLeast
  rw [Int32.lt_iff_toInt_lt] at negative
  apply Int32.toInt_inj.mp
  omega

namespace Phased

variable {params : DatamngParams} {tm : EmTaskmng}
  {created : UInt64 → Option EmTaskid} {threads : UInt64 → StartPlace}
  {callers : ℕ → StartPlace} {table : UInt64 → Option EmTaskinfo}
  {phase : StartPhase}

/-- The search for a thread in the table finds its task. -/
theorem getTaskId
    (phased : Phased params tm created threads callers table phase)
    {threadId : UInt64} {taskId : EmTaskid}
    (isCreated : created threadId = some taskId)
    (entered : Entered created table threadId) :
    emGetTaskId tm threadId = taskId := by
  obtain ⟨_, own, _, used, isThread⟩ := entered
  rcases phased.holds.getIdByFunc_cases
      (fun info => threadId == info.threadId) with
    ⟨_, misses⟩ | ⟨id, info, found, hits, isId⟩
  · have missed := misses _ own used
    rw [isThread] at missed
    simp at missed
  · rw [beq_iff_eq.mp hits] at isCreated
    obtain rfl := phased.entries id info taskId found isCreated
    have range := phased.inRange info.threadId taskId isCreated
    simp only [emGetTaskId, isId, taskidOfUlong_ulongOfTaskid]
    split_ifs with negative
    · exact taskid_eq_neg_one range negative
    · rfl

theorem gated {place : StartParty → StartPlace}
    (phased : Phased params tm created (place ∘ .thread) (place ∘ .caller)
      table phase) :
    StartState.Gated ⟨⟨tm, created⟩, place⟩ := by
  intro threadId taskId running isCreated
  have entered := phased.entered threadId running
  refine ⟨?_, phased.getTaskId isCreated entered⟩
  obtain ⟨enteredId, info, isEntered, used, isThread⟩ := entered
  obtain rfl : taskId = enteredId :=
    Option.some.inj (isCreated.symm.trans isEntered)
  exact ⟨info, (phased.holds.getData_eq _).trans used, isThread⟩

/-! ## One lemma for each kind of step -/

theorem pointers_move
    (phased : Phased params tm created threads callers table phase)
    {number : ℕ} {new : StartPlace}
    (found : ∀ taskId ptr, new.pointer = some (taskId, ptr) →
      emIdatamngGetDataPtr tm.taskinfoMng (ulongOfTaskid taskId) = some ptr)
    (other : ℕ) (taskId : EmTaskid) (ptr : ℤ)
    (has : (Function.update callers number new other).pointer =
      some (taskId, ptr)) :
    emIdatamngGetDataPtr tm.taskinfoMng (ulongOfTaskid taskId) =
      some ptr := by
  by_cases same : other = number
  · rw [same, Function.update_self] at has
    exact found taskId ptr has
  · rw [Function.update_of_ne same] at has
    exact phased.pointers other taskId ptr has

theorem busy_move
    (phased : Phased params tm created threads callers table phase)
    {number : ℕ} {new : StartPlace} {next : StartPhase}
    (own : new.busy = true → next.caller = some number)
    (others : ∀ other, other ≠ number → phase.caller = some other →
      next.caller = some other)
    (other : ℕ)
    (isBusy : (Function.update callers number new other).busy = true) :
    next.caller = some other := by
  by_cases same : other = number
  · rw [same, Function.update_self] at isBusy
    rw [same]
    exact own isBusy
  · rw [Function.update_of_ne same] at isBusy
    exact others other same (phased.busy other isBusy)

/-- A caller moves between places where it is not busy. -/
theorem caller_moves
    (phased : Phased params tm created threads callers table phase)
    {number : ℕ} {new : StartPlace}
    (wasFree : (callers number).busy = false) (isFree : new.busy = false)
    (found : ∀ taskId ptr, new.pointer = some (taskId, ptr) →
      emIdatamngGetDataPtr tm.taskinfoMng (ulongOfTaskid taskId) =
        some ptr) :
    Phased params tm created threads (Function.update callers number new)
      table phase := by
  have apart : ∀ other, (callers other).busy = true →
      Function.update callers number new other = callers other := by
    intro other isBusy
    apply Function.update_of_ne
    rintro rfl
    rw [wasFree] at isBusy
    cases isBusy
  refine { phased with
    pointers := phased.pointers_move found, busy := ?_, current := ?_ }
  · refine phased.busy_move ?_ (fun _ _ isCaller => isCaller)
    intro isBusy
    rw [isFree] at isBusy
    cases isBusy
  · have current := phased.current
    cases phase with
    | quiet => trivial
    | registering other threadId =>
        obtain ⟨tasksetting, memory, taskInfo, isPlace, rest⟩ := current
        have stays := apart other (by rw [isPlace]; rfl)
        exact ⟨tasksetting, memory, taskInfo, stays.trans isPlace, rest⟩
    | posting other threadId =>
        obtain ⟨isPlace, entered⟩ := current
        have stays := apart other (by rw [isPlace]; rfl)
        exact ⟨stays.trans isPlace, entered⟩
    | posted threadId => exact current

theorem caller_leaves
    (phased : Phased params tm created threads callers table phase)
    {number : ℕ} {new : StartPlace}
    (wasFree : (callers number).busy = false) (isFree : new.busy = false)
    (noPointer : new.pointer = none) :
    Phased params tm created threads (Function.update callers number new)
      table phase := by
  refine phased.caller_moves wasFree isFree ?_
  intro taskId ptr has
  rw [noPointer] at has
  cases has

/-- The entry of a task is added or changed. -/
theorem store
    (phased : Phased params tm created threads callers table phase)
    {dm : EmDatamng EmTaskinfo} {taskId : EmTaskid} {info : EmTaskinfo}
    (holds : dm.Table params
      (Function.update table (ulongOfTaskid taskId) (some info)))
    (stay : tm.taskinfoMng.PointersStay dm)
    (own : ∀ other, created info.threadId = some other → other = taskId)
    (kept : ∀ threadId, Entered created table threadId →
      threads threadId = .idle ∨ threads threadId = .running →
        created threadId = some taskId → info.threadId = threadId) :
    Phased params { tm with taskinfoMng := dm } created threads callers
      (Function.update table (ulongOfTaskid taskId) (some info)) phase := by
  refine { phased with
    holds, entries := ?_, pointers := ?_, entered := ?_, current := ?_ }
  · intro id found otherId used isCreated
    rcases update_eq_cases used with ⟨same, isInfo⟩ | ⟨_, before⟩
    · cases isInfo
      rw [same, own otherId isCreated]
    · exact phased.entries id found otherId before isCreated
  · intro number otherId ptr has
    exact stay _ _ (phased.pointers number otherId ptr has)
  · intro threadId running
    have entered := phased.entered threadId running
    exact entered.update (kept threadId entered (.inr running))
  · have atGate := phased.atGate
    have current := phased.current
    cases phase with
    | quiet => trivial
    | registering number threadId => exact current
    | posting number threadId =>
        have idle := (atGate threadId rfl).2
        obtain ⟨isPlace, entered⟩ := current
        exact ⟨isPlace, entered.update (kept threadId entered (.inl idle))⟩
    | posted threadId =>
        have idle := (atGate threadId rfl).2
        exact current.update (kept threadId current (.inl idle))

theorem createMsgqueue
    (phased : Phased params tm created threads callers table phase)
    {tasksetting : EmTasksetting} {memory : TaskMemory}
    (leftover : 0 < tm.msgdataSize → tm.full = false →
      table (ulongOfTaskid tasksetting.taskId) = none →
        created memory.msgqueueInfo.threadId = none) :
    ∃ next, Phased params (emTaskCreateMsgqueue tm tasksetting memory).2
      created threads callers next phase := by
  rcases emTaskCreateMsgqueue_table phased.holds tasksetting memory with
    unchanged | ⟨dm, info, changed, holds, stay, known | new⟩
  · rw [unchanged]
    exact ⟨table, phased⟩
  · obtain ⟨old, used, isThread⟩ := known
    rw [changed]
    refine ⟨_, phased.store holds stay ?_ ?_⟩
    · intro other isCreated
      rw [isThread] at isCreated
      exact (ulongOfTaskid_injective
        (phased.entries _ old other used isCreated)).symm
    · rintro threadId ⟨ownId, own, isOwn, isUsed, isOwnThread⟩ _ isCreated
      obtain rfl := Option.some.inj (isOwn.symm.trans isCreated)
      rw [isThread, ← isOwnThread,
        Option.some.inj (used.symm.trans isUsed)]
  · obtain ⟨available, room, unused, isThread⟩ := new
    have noThread := leftover available room unused
    rw [changed]
    refine ⟨_, phased.store holds stay ?_ ?_⟩
    · intro other isCreated
      rw [isThread, noThread] at isCreated
      cases isCreated
    · rintro threadId ⟨ownId, own, isOwn, isUsed, _⟩ _ isCreated
      obtain rfl := Option.some.inj (isOwn.symm.trans isCreated)
      rw [unused] at isUsed
      cases isUsed

theorem quiet_of_clear
    (phased : Phased params tm created threads callers table phase)
    (clear : ∀ threadId, created threadId ≠ none →
      threads threadId ≠ .idle) :
    phase = .quiet := by
  have nobody : phase.waiting = none := by
    cases waits : phase.waiting with
    | none => rfl
    | some threadId =>
        obtain ⟨isCreated, isIdle⟩ := phased.atGate threadId waits
        exact absurd isIdle (clear threadId isCreated)
  cases phase with
  | quiet => rfl
  | registering number threadId => cases nobody
  | posting number threadId => cases nobody
  | posted threadId => cases nobody

/-- `pthread_create` while nobody waits at the gate. -/
theorem create
    (phased : Phased params tm created threads callers table phase)
    {number : ℕ} {tasksetting : EmTasksetting} {memory : TaskMemory}
    {taskInfo : Option ℤ} {threadId : UInt64}
    (isCreating : callers number = .creating tasksetting memory taskInfo)
    (fresh : created threadId = none)
    (clear : ∀ threadId, created threadId ≠ none →
      threads threadId ≠ .idle)
    (unlisted : ∀ id info, table id = some info →
      info.threadId ≠ threadId)
    (inRange : -1 ≤ tasksetting.taskId) :
    Phased params tm
      (Function.update created threadId (some tasksetting.taskId)) threads
      (Function.update callers number
        (.registering tasksetting memory taskInfo threadId))
      table (.registering number threadId) := by
  have quiet := phased.quiet_of_clear clear
  subst quiet
  refine ⟨phased.holds, ?_, ?_, ?_, ?_, ?_, ?_, ?_, ?_, phased.tokens, ?_⟩
  · intro id info taskId used isCreated
    rw [Function.update_of_ne (unlisted id info used)] at isCreated
    exact phased.entries id info taskId used isCreated
  · apply phased.pointers_move
    intro taskId ptr has
    apply phased.pointers number taskId ptr
    rw [isCreating]
    exact has
  · intro other taskId isCreated
    rcases update_eq_cases isCreated with ⟨_, isNew⟩ | ⟨_, before⟩
    · cases isNew
      exact inRange
    · exact phased.inRange other taskId before
  · intro other isNew
    rcases update_eq_cases isNew with ⟨_, impossible⟩ | ⟨_, before⟩
    · cases impossible
    · exact phased.uncreated other before
  · intro other running
    obtain ⟨taskId, info, isCreated, rest⟩ := phased.entered other running
    refine ⟨taskId, info, (Function.update_of_ne ?_ _ _).trans isCreated,
      rest⟩
    rintro rfl
    rw [fresh] at isCreated
    cases isCreated
  · refine phased.busy_move (fun _ => rfl) ?_
    intro other _ isCaller
    cases isCaller
  · intro other isCreated isIdle
    by_cases same : other = threadId
    · rw [same]
      rfl
    · rw [Function.update_of_ne same] at isCreated
      exact absurd isIdle (clear other isCreated)
  · intro other waits
    cases waits
    rw [Function.update_self]
    exact ⟨by simp, phased.uncreated threadId fresh⟩
  · exact ⟨tasksetting, memory, taskInfo, Function.update_self _ _ _,
      Function.update_self _ _ _⟩

/-- The new thread is written into the table. -/
theorem register
    (phased : Phased params tm created threads callers table phase)
    {number : ℕ} {tasksetting : EmTasksetting} {memory : TaskMemory}
    {taskInfo : Option ℤ} {threadId : UInt64}
    (isRegistering : callers number =
      .registering tasksetting memory taskInfo threadId)
    (missing : taskInfo = none →
      table (ulongOfTaskid tasksetting.taskId) = none ∧ tm.full = false)
    (alone : ∀ other, created other = some tasksetting.taskId →
      threads other ≠ .running) :
    ∃ next, Phased params
      (emTaskRegister tm tasksetting taskInfo threadId memory.startInfo)
      created threads (Function.update callers number .posting) next
      (.posting number threadId) := by
  have busy := phased.busy number (by rw [isRegistering]; rfl)
  have current := phased.current
  cases phase with
  | quiet => cases busy
  | posted other => cases busy
  | posting other otherThread =>
      cases busy
      obtain ⟨isPlace, _⟩ := current
      rw [isRegistering] at isPlace
      cases isPlace
  | registering other otherThread =>
      cases busy
      obtain ⟨_, _, _, isPlace, isCreated⟩ := current
      rw [isRegistering] at isPlace
      cases isPlace
      have found : ∀ ptr, taskInfo = some ptr →
          emIdatamngGetDataPtr tm.taskinfoMng
            (ulongOfTaskid tasksetting.taskId) = some ptr := by
        rintro ptr rfl
        apply phased.pointers number
        rw [isRegistering]
        rfl
      obtain ⟨dm, info, changed, holds, stay, isThread⟩ :=
        emTaskRegister_table phased.holds found missing threadId
          memory.startInfo
      have stored := phased.store holds stay
        (by
          intro other isOther
          rw [isThread, isCreated] at isOther
          exact (Option.some.inj isOther).symm)
        (by
          intro other _ here isOther
          rcases here with isIdle | running
          · have waits := phased.arrived other (by simp [isOther]) isIdle
            rw [isThread]
            exact Option.some.inj waits
          · exact absurd running (alone other isOther))
      rw [changed]
      refine ⟨_, { stored with
        pointers := ?_, busy := ?_, arrived := ?_, atGate := ?_,
        tokens := ?_, current := ?_ }⟩
      · apply stored.pointers_move
        intro taskId ptr has
        cases has
      · refine stored.busy_move (fun _ => rfl) ?_
        intro other _ isCaller
        exact isCaller
      · exact stored.arrived
      · exact stored.atGate
      · exact stored.tokens
      · exact ⟨Function.update_self _ _ _, tasksetting.taskId, info,
          isCreated, Function.update_self _ _ _, isThread⟩

/-- The semaphore is posted. -/
theorem post
    (phased : Phased params tm created threads callers table phase)
    {number : ℕ} (isPosting : callers number = .posting) :
    ∃ threadId, Phased params { tm with sem := emSemPost tm.sem } created
      threads (Function.update callers number .idle) table
      (.posted threadId) := by
  have busy := phased.busy number (by rw [isPosting]; rfl)
  have current := phased.current
  cases phase with
  | quiet => cases busy
  | posted other => cases busy
  | registering other otherThread =>
      cases busy
      obtain ⟨_, _, _, isPlace, _⟩ := current
      rw [isPosting] at isPlace
      cases isPlace
  | posting other threadId =>
      cases busy
      refine ⟨threadId, { phased with
        pointers := ?_, busy := ?_, arrived := ?_, atGate := ?_,
        tokens := ?_, current := current.2 }⟩
      · apply phased.pointers_move
        intro taskId ptr has
        cases has
      · refine phased.busy_move (fun isBusy => by cases isBusy) ?_
        intro other different isCaller
        cases isCaller
        exact absurd rfl different
      · exact phased.arrived
      · exact phased.atGate
      · rw [emSemPost_count, phased.tokens]
        rfl

/-- A thread takes the token and runs: it is the one that the token was posted
for. -/
theorem enter
    (phased : Phased params tm created threads callers table phase)
    {threadId : UInt64} {taskId : EmTaskid} {sem : EmSem}
    (isCreated : created threadId = some taskId)
    (isIdle : threads threadId = .idle)
    (waited : emSemWait tm.sem emNoTimeout = some (emSuccess, sem)) :
    Phased params { tm with sem } created
      (Function.update threads threadId .running) callers table .quiet := by
  have token := emSemWait_success waited
  have tokens := phased.tokens
  have waits := phased.arrived threadId (by simp [isCreated]) isIdle
  have current := phased.current
  cases phase with
  | quiet => cases waits
  | registering number other =>
      rw [token] at tokens
      cases tokens
  | posting number other =>
      rw [token] at tokens
      cases tokens
  | posted other =>
      cases waits
      refine { phased with
        uncreated := ?_, entered := ?_, busy := ?_, arrived := ?_,
        atGate := ?_, tokens := ?_, current := trivial }
      · intro other isNew
        refine (Function.update_of_ne ?_ _ _).trans
          (phased.uncreated other isNew)
        rintro rfl
        rw [isNew] at isCreated
        cases isCreated
      · intro other running
        rcases update_eq_cases running with ⟨same, _⟩ | ⟨_, before⟩
        · rw [same]
          exact current
        · exact phased.entered other before
      · intro number isBusy
        cases phased.busy number isBusy
      · intro other isOther otherIdle
        rcases update_eq_cases otherIdle with
          ⟨_, impossible⟩ | ⟨different, before⟩
        · cases impossible
        · have alsoWaits := phased.arrived other isOther before
          cases alsoWaits
          exact absurd rfl different
      · intro other waits
        cases waits
      · rw [token] at tokens
        exact Nat.succ.inj tokens

/-- An entry function returns. -/
theorem finish
    (phased : Phased params tm created threads callers table phase)
    {threadId : UInt64} (running : threads threadId = .running) :
    Phased params tm created (Function.update threads threadId .ended)
      callers table phase := by
  have others : ∀ other, threads other = .idle → other ≠ threadId := by
    rintro other isIdle rfl
    rw [running] at isIdle
    cases isIdle
  refine { phased with
    uncreated := ?_, entered := ?_, arrived := ?_, atGate := ?_ }
  · intro other isNew
    have isIdle := phased.uncreated other isNew
    exact (Function.update_of_ne (others other isIdle) _ _).trans isIdle
  · intro other otherRuns
    rcases update_eq_cases otherRuns with ⟨_, impossible⟩ | ⟨_, before⟩
    · cases impossible
    · exact phased.entered other before
  · intro other isCreated isIdle
    rcases update_eq_cases isIdle with ⟨_, impossible⟩ | ⟨_, before⟩
    · cases impossible
    · exact phased.arrived other isCreated before
  · intro other waits
    obtain ⟨isCreated, isIdle⟩ := phased.atGate other waits
    exact ⟨isCreated,
      (Function.update_of_ne (others other isIdle) _ _).trans isIdle⟩

end Phased

/-! ## Every careful run -/

/-- The phase after a step. -/
theorem Phased.step {params : DatamngParams}
    {table : UInt64 → Option EmTaskinfo} {phase : StartPhase}
    {before after : StartState} {label : StartParty × StartAction}
    (phased : Phased params before.shared.tm before.shared.created
      (before.place ∘ .thread) (before.place ∘ .caller) table phase)
    (taken : Guarded StartState.Careful (Threads.Step StartProgram) before
      label after) :
    ∃ nextTable next, Phased params after.shared.tm after.shared.created
      (after.place ∘ .thread) (after.place ∘ .caller) nextTable next := by
  obtain ⟨careful, taken⟩ := taken
  obtain ⟨⟨tm, created⟩, place⟩ := before
  replace phased : Phased params tm created (place ∘ .thread)
    (place ∘ .caller) table phase := phased
  cases taken with
  | @move party action shared new moved =>
      dsimp only at moved
      generalize here : place party = old at moved
      cases party with
      | caller number =>
          simp only [StartState.threads_caller, StartState.callers_caller]
          replace here : (place ∘ .caller) number = old := here
          cases moved with
          | @createMsgqueue _ _ _ tasksetting memory =>
              dsimp only [StartState.Careful] at careful
              rw [phased.holds.getData_eq] at careful
              obtain ⟨next, kept⟩ := phased.createMsgqueue careful
              exact ⟨next, phase,
                kept.caller_leaves (by rw [here]; rfl) rfl rfl⟩
          | call =>
              exact ⟨table, phase,
                phased.caller_leaves (by rw [here]; rfl) rfl rfl⟩
          | getDataPtr =>
              refine ⟨table, phase,
                phased.caller_moves (by rw [here]; rfl) rfl ?_⟩
              intro taskId ptr has
              obtain ⟨_, found, same⟩ := Option.map_eq_some_iff.mp has
              cases same
              exact found
          | reject _ =>
              exact ⟨table, phase,
                phased.caller_leaves (by rw [here]; rfl) rfl rfl⟩
          | accept _ =>
              refine ⟨table, phase,
                phased.caller_moves (by rw [here]; rfl) rfl ?_⟩
              intro taskId ptr has
              apply phased.pointers number taskId ptr
              rw [here]
              exact has
          | createFailed =>
              exact ⟨table, phase,
                phased.caller_leaves (by rw [here]; rfl) rfl rfl⟩
          | create fresh =>
              have isPlace : place (.caller number) = _ := here
              simp only [StartState.Careful, isPlace] at careful
              obtain ⟨clear, unlisted, inRange, _⟩ := careful
              have notListed := fun id info used =>
                unlisted id info ((phased.holds.getData_eq id).trans used)
              exact ⟨table, _,
                phased.create here fresh clear notListed inRange⟩
          | register =>
              have isPlace : place (.caller number) = _ := here
              simp only [StartState.Careful, isPlace] at careful
              rw [phased.holds.getData_eq] at careful
              obtain ⟨missing, alone⟩ := careful
              obtain ⟨next, kept⟩ := phased.register here missing alone
              exact ⟨next, _, kept⟩
          | post =>
              obtain ⟨threadId, kept⟩ := phased.post here
              exact ⟨table, _, kept⟩
      | thread threadId =>
          simp only [StartState.threads_thread, StartState.callers_thread]
          replace here : (place ∘ .thread) threadId = old := here
          cases moved with
          | enter isCreated waited =>
              exact ⟨table, _, phased.enter isCreated here waited⟩
          | finish => exact ⟨table, phase, phased.finish here⟩

/-- In a run where `pthread_create` is called only while nobody waits at the
gate, and where the new thread then finds its place in the table, every thread
that runs its entry function is in the table and finds its own identifier. -/
theorem start_gate_holds (memory : EmTaskmng) (maxNumTask : ℕ)
    (msgdataSize : ℤ) (sizeofTaskinfo : ℕ) (keymem : Bytes) (rawdata : ℤ)
    (valid : (taskTable maxNumTask sizeofTaskinfo rawdata).Valid)
    {labels : List (StartParty × StartAction)} {state : StartState}
    (run : Run (Guarded StartState.Careful (Threads.Step StartProgram))
      (StartState.init (emTaskmngInit memory maxNumTask msgdataSize
        sizeofTaskinfo keymem rawdata).2) labels state) :
    state.Gated := by
  let tm := (emTaskmngInit memory maxNumTask msgdataSize sizeofTaskinfo
    keymem rawdata).2
  have start : Phased (taskTable maxNumTask sizeofTaskinfo rawdata) tm
      (fun _ => none) (fun _ => .idle) (fun _ => .idle) (fun _ => none)
      .quiet := by
    refine ⟨valid.created_table ⟨rfl, rfl, rfl⟩ _ _, ?_, ?_, ?_, fun _ _ => rfl,
      ?_, ?_, ?_, ?_, rfl, trivial⟩
    · intro id info taskId used
      cases used
    · intro number taskId ptr has
      cases has
    · intro threadId taskId isCreated
      cases isCreated
    · intro threadId running
      cases running
    · intro number isBusy
      cases isBusy
    · intro threadId isCreated
      exact absurd rfl isCreated
    · intro threadId waits
      cases waits
  obtain ⟨table, phase, phased⟩ := run.invariant
    (fun state => ∃ table phase,
      Phased (taskTable maxNumTask sizeofTaskinfo rawdata) state.shared.tm
        state.shared.created (state.place ∘ .thread)
        (state.place ∘ .caller) table phase)
    ⟨_, _, start⟩
    (by
      rintro before label after ⟨table, phase, phased⟩ taken
      exact phased.step taken)
  exact phased.gated

theorem start_gate_holds_one_task :
    ∃ state : StartState, state.place (.thread 10) = .running ∧
      state.shared.created 10 = some 1 ∧ state.Gated := by
  have run : ∃ state,
      Run (Guarded StartState.Careful (Threads.Step StartProgram))
        (StartState.init (emTaskmngInit default 2 1 200 default 1000).2)
        [(.caller 0, .call ⟨[116], 1, 2⟩ default), (.caller 0, .getDataPtr),
          (.caller 0, .accept), (.caller 0, .create 10),
          (.caller 0, .register), (.caller 0, .post), (.thread 10, .enter)]
        state ∧
      state.place (.thread 10) = .running ∧
      state.shared.created 10 = some 1 := by
    refine ⟨_, .cons ⟨trivial, .move .call⟩ <|
      .cons ⟨trivial, .move .getDataPtr⟩ <|
      .cons ⟨trivial, .move (.accept ?_)⟩ <|
      .cons ⟨?_, .move (.create rfl)⟩ <| .cons ⟨?_, .move .register⟩ <|
      .cons ⟨trivial, .move .post⟩ <|
      .cons ⟨trivial, .move (.enter rfl rfl)⟩ .nil, rfl, rfl⟩
    · decide +kernel
    · refine ⟨?_, ?_, by decide, by decide⟩
      · intro threadId isCreated
        exact absurd rfl isCreated
      · intro id info used
        cases used
    · refine ⟨fun _ => ⟨rfl, by decide +kernel⟩, ?_⟩
      intro other _ running
      cases running
  obtain ⟨state, run, running, created⟩ := run
  exact ⟨state, running, created, start_gate_holds default 2 1 200 default 1000
    ⟨⟨by decide, by decide⟩, by decide, by decide, by decide⟩ run⟩

/-- The thread of a second start takes the token that was posted for the first,
before it is in the table. -/
theorem start_gate_passed_early :
    ∃ labels, ∃ state : StartState, Run (Threads.Step StartProgram)
        (StartState.init (emTaskmngInit default 2 1 200 default 1000).2)
        labels state ∧ ¬ state.Gated := by
  have run : ∃ state, Run (Threads.Step StartProgram)
      (StartState.init (emTaskmngInit default 2 1 200 default 1000).2)
      [(.caller 0, .call ⟨[116], 1, 2⟩ default), (.caller 0, .getDataPtr),
        (.caller 0, .accept), (.caller 0, .create 10),
        (.caller 0, .register), (.caller 0, .post),
        (.caller 0, .call ⟨[117], 2, 2⟩ default), (.caller 0, .getDataPtr),
        (.caller 0, .accept), (.caller 0, .create 11), (.thread 11, .enter)]
      state ∧
      state.place (.thread 11) = .running ∧
      state.shared.created 11 = some 2 ∧
      emGetTaskId state.shared.tm 11 = -1 := by
    refine ⟨_, .cons (.move .call) <| .cons (.move .getDataPtr) <|
      .cons (.move (.accept ?_)) <| .cons (.move (.create rfl)) <|
      .cons (.move .register) <| .cons (.move .post) <|
      .cons (.move .call) <| .cons (.move .getDataPtr) <|
      .cons (.move (.accept ?_)) <| .cons (.move (.create rfl)) <|
      .cons (.move (.enter rfl rfl)) .nil, rfl, rfl, ?_⟩
    · decide +kernel
    · decide +kernel
    · decide +kernel
  obtain ⟨state, run, running, created, unknown⟩ := run
  refine ⟨_, state, run, ?_⟩
  intro gated
  have known := (gated 11 2 running created).2
  rw [unknown] at known
  cases known

end EmbeddedMiddle
