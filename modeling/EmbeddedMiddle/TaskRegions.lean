import EmbeddedMiddle.RegionsReturned
import EmbeddedMiddle.TaskMessages
import EmbeddedMiddle.Foundation.RegionOwners

/-!
# The regions of tasks

What `em_task.c` requests for a task, uses and releases: the queue of the task,
the argument of its thread, which the thread releases, and the area for the
return value, which the thread requests and `em_task_delete` releases.
-/

namespace EmbeddedMiddle

open Foundation

/-! ## Threads -/

/-- `sizeof(em_thrdarg_t)` where pointers have 8 bytes, and `sizeof(int)`. -/
def sizeofThrdarg : ℕ := 40

def sizeofInt : ℕ := 4

/-- A thread between the statements of `_em_thread_starter`, with its pointers
to `thrdarg` and to the area for the return value. -/
inductive TaskThread where
  | absent
  | created (thrdarg : ℕ)
  | entered (thrdarg : ℕ) (ret : Option ℕ)
  | ended (ret : ℕ)
  deriving DecidableEq

namespace TaskThread

def thrdarg : TaskThread → Option ℕ
  | .created thrdarg => some thrdarg
  | .entered thrdarg _ => some thrdarg
  | _ => none

def ret : TaskThread → Option ℕ
  | .entered _ ret => ret
  | .ended ret => some ret
  | _ => none

end TaskThread

/-! ## Calls -/

/-- The task manager with the pointers in the queue of each task, the threads,
and the heap.  The two functions are those of the manager. -/
structure TaskHeap where
  tm : EmTaskmng
  msgqueue : EmTaskid → BlockRegions
  thread : UInt64 → TaskThread
  heap : RegionHeap

/-- A structure that was not written. -/
def BlockRegions.unset : BlockRegions := ⟨.invalid, none, none⟩

namespace TaskHeap

/-- After `em_taskmng_init`. -/
def start (tm : EmTaskmng) (heap : RegionHeap) : TaskHeap :=
  ⟨tm, fun _ => .unset, fun _ => .absent, heap⟩

section Calls

variable (allocFunc : AllocFunc) (freeFunc : FreeFunc)

def emTaskCreateMsgqueue (held : TaskHeap) (tasksetting : EmTasksetting)
    (memory : TaskMemory) : Option (ℤ × TaskHeap) :=
  if held.tm.msgdataSize ≤ 0 then some (0, held)
  else
    match BlockRegions.emQueueCreate held.tm.msgdataSize
        tasksetting.mqueueSize allocFunc freeFunc held.heap with
    | none => none
    | some (queue, heap) =>
        match EmbeddedMiddle.emTaskCreateMsgqueue held.tm tasksetting
            memory with
        | (ret, tm) =>
            some (ret, { held with
              tm
              heap
              msgqueue :=
                if ret = 0 then
                  Function.update held.msgqueue tasksetting.taskId queue
                else held.msgqueue })

/-- The argument of the thread is written before anything is checked. -/
def emTaskStartTask (held : TaskHeap) (tasksetting : EmTasksetting)
    (created : Option UInt64) (memory : TaskMemory) :
    Option (ℤ × TaskHeap) :=
  match allocFunc.call sizeofThrdarg held.heap with
  | (none, _) => none
  | (some thrdarg, heap) =>
      let held := { held with heap := heap.use (some thrdarg) }
      match EmbeddedMiddle.emTaskStartTask held.tm tasksetting created memory,
          created with
      | (0, tm), some threadId =>
          some (0, { held with
            tm
            thread := Function.update held.thread threadId
              (.created thrdarg) })
      | (ret, tm), _ => some (ret, { held with tm })

def emTaskCreate (held : TaskHeap) (tasksetting : EmTasksetting)
    (created : Option UInt64) (memory : TaskMemory) :
    Option (ℤ × TaskHeap) :=
  if held.tm.full then some (-1, held)
  else
    match held.emTaskCreateMsgqueue allocFunc freeFunc tasksetting memory with
    | none => none
    | some (ret, held) =>
        if ret ≠ 0 then some (-1, held)
        else
          match held.emTaskStartTask allocFunc tasksetting created memory with
          | none => none
          | some (ret, held) => some (if ret ≠ 0 then -1 else 0, held)

/-- The return value is read and released once the thread has ended; for an
unknown task the queue on the stack is not set. -/
def emTaskDelete (held : TaskHeap) (taskId : EmTaskid)
    (taskinfo : EmTaskinfo) : Option TaskHeap :=
  let deletion := EmbeddedMiddle.emTaskDelete held.tm taskId taskinfo
  let queue :=
    match emIdatamngGetData held.tm.taskinfoMng (ulongOfTaskid taskId) with
    | none => BlockRegions.unset
    | some _ => held.msgqueue taskId
  match held.thread deletion.joined with
  | .ended ret => do
      let heap ← freeFunc.call (held.heap.use (some ret)) (some ret)
      let heap ← queue.emQueueDestroy heap
      some { tm := deletion.tm
             msgqueue := Function.update held.msgqueue taskId .unset
             thread := Function.update held.thread deletion.joined .absent
             heap }
  | _ => none

/-- `_em_thread_starter` up to the wait for the semaphore. -/
def enter (held : TaskHeap) (threadId : UInt64) : Option TaskHeap :=
  match held.thread threadId with
  | .created thrdarg =>
      let (ret, heap) := allocFunc.call sizeofInt
        (held.heap.use (some thrdarg))
      some { held with
        thread := Function.update held.thread threadId (.entered thrdarg ret)
        heap }
  | _ => none

/-- The rest of it, where the function of the task returns. -/
def finish (held : TaskHeap) (threadId : UInt64) : Option TaskHeap :=
  match held.thread threadId with
  | .entered thrdarg (some ret) =>
      let heap := (held.heap.use (some thrdarg)).use (some ret)
      (freeFunc.call heap (some thrdarg)).map fun heap =>
        { held with
          thread := Function.update held.thread threadId (.ended ret)
          heap }
  | _ => none

end Calls

end TaskHeap

/-! ## Runs -/

inductive TaskHeapCall where
  | create (tasksetting : EmTasksetting) (created : Option UInt64)
      (memory : TaskMemory)
  | delete (taskId : EmTaskid) (taskinfo : EmTaskinfo)
  | enter (threadId : UInt64)
  | finish (threadId : UInt64)

namespace TaskHeap

/-- A name fits into `task_name`, and a new thread has an identifier that no
other thread has. -/
inductive Step (allocFunc : AllocFunc) (freeFunc : FreeFunc) :
    TaskHeap → TaskHeapCall → TaskHeap → Prop where
  | create {held after : TaskHeap} {tasksetting : EmTasksetting}
      {created : Option UInt64} {memory : TaskMemory} {ret : ℤ} :
      tasksetting.taskName.length < 32 →
      (∀ threadId, created = some threadId →
        held.thread threadId = .absent) →
      held.emTaskCreate allocFunc freeFunc tasksetting created memory =
        some (ret, after) →
      Step allocFunc freeFunc held (.create tasksetting created memory) after
  | delete {held after : TaskHeap} {taskId : EmTaskid}
      {taskinfo : EmTaskinfo} :
      held.emTaskDelete freeFunc taskId taskinfo = some after →
      Step allocFunc freeFunc held (.delete taskId taskinfo) after
  | enter {held after : TaskHeap} {threadId : UInt64} :
      held.enter allocFunc threadId = some after →
      Step allocFunc freeFunc held (.enter threadId) after
  | finish {held after : TaskHeap} {threadId : UInt64} :
      held.finish freeFunc threadId = some after →
      Step allocFunc freeFunc held (.finish threadId) after

/-- A creation is rejected by a full table, or is for a new task and gets a
thread; a deletion is for a registered task. -/
def Careful (held : TaskHeap) : TaskHeapCall → Prop
  | .create tasksetting created _ =>
      held.tm.full = true ∨
        emIdatamngGetData held.tm.taskinfoMng
            (ulongOfTaskid tasksetting.taskId) = none ∧
          created ≠ none
  | .delete taskId _ =>
      emIdatamngGetData held.tm.taskinfoMng (ulongOfTaskid taskId) ≠ none
  | _ => True

/-! ## Who names the regions -/

/-- The pointers of the tasks and, for each region of the rest of the program,
one pointer of that. -/
inductive Pointer where
  | outside (region : ℕ)
  | rawdata (taskId : EmTaskid)
  | blockPtr (taskId : EmTaskid)
  | thrdarg (threadId : UInt64)
  | ret (threadId : UInt64)
  deriving DecidableEq

def names (outer : Finset ℕ) (msgqueue : EmTaskid → BlockRegions)
    (thread : UInt64 → TaskThread) : Pointer → Option ℕ
  | .outside region => if region ∈ outer then some region else none
  | .rawdata taskId => (msgqueue taskId).rawdata
  | .blockPtr taskId => (msgqueue taskId).blockPtr
  | .thrdarg threadId => (thread threadId).thrdarg
  | .ret threadId => (thread threadId).ret

section Names

variable {outer : Finset ℕ} {msgqueue : EmTaskid → BlockRegions}
  {thread : UInt64 → TaskThread} {heap : RegionHeap}

theorem names_msgqueue (taskId : EmTaskid) (queue : BlockRegions) :
    names outer (Function.update msgqueue taskId queue) thread =
      Function.update (Function.update (names outer msgqueue thread)
        (.rawdata taskId) queue.rawdata) (.blockPtr taskId)
          queue.blockPtr := by
  funext pointer
  cases pointer with
  | rawdata other => 
      by_cases same : other = taskId
      · simp [names, same]
      · simp [names, same]
  | blockPtr other =>
      by_cases same : other = taskId
      · simp [names, same]
      · simp [names, same]
  | _ => simp [names]

theorem names_thrdarg {threadId : UInt64} {place : TaskThread}
    (same : (thread threadId).ret = place.ret) :
    names outer msgqueue (Function.update thread threadId place) =
      Function.update (names outer msgqueue thread) (.thrdarg threadId)
        place.thrdarg := by
  funext pointer
  cases pointer with
  | thrdarg other =>
      by_cases isThread : other = threadId
      · simp [names, isThread]
      · simp [names, isThread]
  | ret other =>
      by_cases isThread : other = threadId
      · simp [names, isThread, same]
      · simp [names, isThread]
  | _ => simp [names]

theorem names_ret {threadId : UInt64} {place : TaskThread}
    (same : (thread threadId).thrdarg = place.thrdarg) :
    names outer msgqueue (Function.update thread threadId place) =
      Function.update (names outer msgqueue thread) (.ret threadId)
        place.ret := by
  funext pointer
  cases pointer with
  | thrdarg other =>
      by_cases isThread : other = threadId
      · simp [names, isThread, same]
      · simp [names, isThread]
  | ret other =>
      by_cases isThread : other = threadId
      · simp [names, isThread]
      · simp [names, isThread]
  | _ => simp [names]

variable {allocFunc : AllocFunc} {freeFunc : FreeFunc} {after : RegionHeap}
  {taskId : EmTaskid} {threadId : UInt64} {thrdarg ret : ℕ}

/-- A task without a queue gets one. -/
theorem owned_create_queue
    (owned : Owned heap (names outer msgqueue thread))
    (noRawdata : names outer msgqueue thread (.rawdata taskId) = none)
    (noBlockPtr : names outer msgqueue thread (.blockPtr taskId) = none)
    {blockSize blockNum : ℤ}
    {queue : BlockRegions}
    (created : BlockRegions.emQueueCreate blockSize blockNum allocFunc
      freeFunc heap = some (queue, after)) :
    Owned after
      (names outer (Function.update msgqueue taskId queue) thread) := by
  simp only [BlockRegions.emQueueCreate, BlockRegions.create] at created
  split_ifs at created
  obtain ⟨rfl, rfl⟩ := Prod.mk.inj (Option.some.inj created)
  rw [names_msgqueue]
  apply (owned.call allocFunc _ noRawdata).call
  rw [Function.update_of_ne (by simp)]
  exact noBlockPtr

theorem owned_destroy_queue
    (owned : Owned heap (names outer msgqueue thread))
    (destroyed : (msgqueue taskId).emQueueDestroy heap = some after) :
    Owned after
      (names outer (Function.update msgqueue taskId .unset) thread) := by
  obtain ⟨middle, first, second⟩ := Option.bind_eq_some_iff.mp destroyed
  obtain ⟨_, rfl⟩ := FreeFunc.given_of_call first
  obtain ⟨_, rfl⟩ := FreeFunc.given_of_call second
  have freed := (owned.free (.blockPtr taskId)).free (.rawdata taskId)
  rw [Function.update_of_ne (by simp), Function.update_comm (by simp)]
    at freed
  rw [names_msgqueue]
  exact freed

theorem emQueueDestroy_next {queue : BlockRegions}
    (destroyed : queue.emQueueDestroy heap = some after) :
    after.next = heap.next := by
  obtain ⟨middle, first, second⟩ := Option.bind_eq_some_iff.mp destroyed
  obtain ⟨_, rfl⟩ := FreeFunc.given_of_call first
  obtain ⟨_, rfl⟩ := FreeFunc.given_of_call second
  rw [RegionHeap.free_next, RegionHeap.free_next]

theorem owned_created
    (owned : Owned heap (names outer msgqueue thread))
    (absent : thread threadId = .absent) {size : ℕ}
    (requested : allocFunc.call size heap = (some thrdarg, after)) :
    Owned after (names outer msgqueue
      (Function.update thread threadId (.created thrdarg))) := by
  rw [names_thrdarg (by rw [absent]; rfl)]
  have unset : names outer msgqueue thread (.thrdarg threadId) = none := by
    simp [names, absent, TaskThread.thrdarg]
  have called := owned.call allocFunc size unset
  rw [requested] at called
  exact called

theorem owned_use_thrdarg
    (owned : Owned heap (names outer msgqueue thread))
    (here : (thread threadId).thrdarg = some thrdarg) :
    Owned (heap.use (some thrdarg)) (names outer msgqueue thread) := by
  have used := owned.use (.thrdarg threadId)
  rwa [names, here] at used

theorem owned_use_ret
    (owned : Owned heap (names outer msgqueue thread))
    (here : (thread threadId).ret = some ret) :
    Owned (heap.use (some ret)) (names outer msgqueue thread) := by
  have used := owned.use (.ret threadId)
  rwa [names, here] at used

theorem owned_entered
    (owned : Owned heap (names outer msgqueue thread))
    (here : thread threadId = .created thrdarg) (size : ℕ) :
    Owned (allocFunc.call size heap).2 (names outer msgqueue
      (Function.update thread threadId
        (.entered thrdarg (allocFunc.call size heap).1))) := by
  rw [names_ret (by rw [here]; rfl)]
  apply owned.call
  simp [names, here, TaskThread.ret]

theorem owned_ended
    (owned : Owned heap (names outer msgqueue thread))
    (here : thread threadId = .entered thrdarg (some ret)) :
    Owned (heap.free (some thrdarg)) (names outer msgqueue
      (Function.update thread threadId (.ended ret))) := by
  rw [names_thrdarg (by rw [here]; rfl)]
  have freed := owned.free (.thrdarg threadId)
  simp only [names, here, TaskThread.thrdarg] at freed
  exact freed

theorem owned_joined
    (owned : Owned heap (names outer msgqueue thread))
    (here : thread threadId = .ended ret) :
    Owned (heap.free (some ret)) (names outer msgqueue
      (Function.update thread threadId .absent)) := by
  rw [names_ret (by rw [here]; rfl)]
  have freed := owned.free (.ret threadId)
  simp only [names, here, TaskThread.ret] at freed
  exact freed

end Names

/-! ## The task table and the pointers -/

section Create

variable {allocFunc : AllocFunc} {freeFunc : FreeFunc}
  {held after : TaskHeap} {tasksetting : EmTasksetting}
  {created : Option UInt64} {memory : TaskMemory} {ret : ℤ}

theorem emTaskCreateMsgqueue_tm
    (called : held.emTaskCreateMsgqueue allocFunc freeFunc tasksetting
      memory = some (ret, after)) :
    EmbeddedMiddle.emTaskCreateMsgqueue held.tm tasksetting memory =
      (ret, after.tm) := by
  unfold emTaskCreateMsgqueue at called
  split_ifs at called with unavailable
  · obtain ⟨rfl, rfl⟩ := Prod.mk.inj (Option.some.inj called)
    rw [EmbeddedMiddle.emTaskCreateMsgqueue, if_pos unavailable]
  · split at called
    · cases called
    · obtain ⟨rfl, rfl⟩ := Prod.mk.inj (Option.some.inj called)
      rfl

theorem emTaskStartTask_tm
    (called : held.emTaskStartTask allocFunc tasksetting created memory =
      some (ret, after)) :
    EmbeddedMiddle.emTaskStartTask held.tm tasksetting created memory =
      (ret, after.tm) := by
  unfold emTaskStartTask at called
  split at called
  · cases called
  · dsimp only at called
    split at called
    · rename_i started
      obtain ⟨rfl, rfl⟩ := Prod.mk.inj (Option.some.inj called)
      exact started
    · rename_i started
      obtain ⟨rfl, rfl⟩ := Prod.mk.inj (Option.some.inj called)
      exact started

/-- The table is as it is without the regions. -/
theorem emTaskCreate_tm
    (called : held.emTaskCreate allocFunc freeFunc tasksetting created
      memory = some (ret, after)) :
    EmbeddedMiddle.emTaskCreate held.tm tasksetting created memory =
      (ret, after.tm) := by
  unfold emTaskCreate at called
  split_ifs at called with full
  · obtain ⟨rfl, rfl⟩ := Prod.mk.inj (Option.some.inj called)
    exact emTaskCreate_full full _ _ _
  · rw [EmbeddedMiddle.emTaskCreate, if_neg full]
    split at called
    · cases called
    · rename_i queued middle queueCalled
      simp only [emTaskCreateMsgqueue_tm queueCalled]
      split_ifs at called with refused
      · obtain ⟨rfl, rfl⟩ := Prod.mk.inj (Option.some.inj called)
        rw [if_pos refused]
      · rw [if_neg refused]
        split at called
        · cases called
        · rename_i started final startCalled
          obtain ⟨rfl, rfl⟩ := Prod.mk.inj (Option.some.inj called)
          simp only [emTaskStartTask_tm startCalled]
          split_ifs <;> rfl

theorem emTaskCreateMsgqueue_requests (available : 0 < held.tm.msgdataSize)
    (called : held.emTaskCreateMsgqueue allocFunc freeFunc tasksetting
      memory = some (0, after)) :
    ∃ queue,
      BlockRegions.emQueueCreate held.tm.msgdataSize tasksetting.mqueueSize
        allocFunc freeFunc held.heap = some (queue, after.heap) ∧
      after.msgqueue =
        Function.update held.msgqueue tasksetting.taskId queue ∧
      after.thread = held.thread := by
  rw [emTaskCreateMsgqueue, if_neg (Int.not_le.mpr available)] at called
  cases created : BlockRegions.emQueueCreate held.tm.msgdataSize
      tasksetting.mqueueSize allocFunc freeFunc held.heap with
  | none =>
      rw [created] at called
      cases called
  | some made =>
      obtain ⟨queue, heap⟩ := made
      rw [created] at called
      obtain ⟨isZero, rfl⟩ := Prod.mk.inj (Option.some.inj called)
      exact ⟨queue, rfl, if_pos isZero, rfl⟩

theorem emTaskStartTask_requests {threadId : UInt64}
    (called : held.emTaskStartTask allocFunc tasksetting (some threadId)
      memory = some (0, after)) :
    ∃ thrdarg heap,
      allocFunc.call sizeofThrdarg held.heap = (some thrdarg, heap) ∧
      after.msgqueue = held.msgqueue ∧
      after.thread =
        Function.update held.thread threadId (.created thrdarg) ∧
      after.heap = heap.use (some thrdarg) := by
  unfold emTaskStartTask at called
  split at called
  · cases called
  · rename_i thrdarg heap requested
    dsimp only at called
    split at called
    · rename_i isThread
      cases isThread
      obtain ⟨_, rfl⟩ := Prod.mk.inj (Option.some.inj called)
      exact ⟨thrdarg, heap, requested, rfl, rfl, rfl⟩
    · rename_i impossible
      obtain ⟨rfl, rfl⟩ := Prod.mk.inj (Option.some.inj called)
      exact (impossible threadId rfl rfl).elim

/-- What a creation that succeeds has requested. -/
theorem emTaskCreate_requests {threadId : UInt64}
    (available : 0 < held.tm.msgdataSize)
    (called : held.emTaskCreate allocFunc freeFunc tasksetting
      (some threadId) memory = some (0, after)) :
    ∃ queue queued thrdarg heap,
      BlockRegions.emQueueCreate held.tm.msgdataSize tasksetting.mqueueSize
        allocFunc freeFunc held.heap = some (queue, queued) ∧
      allocFunc.call sizeofThrdarg queued = (some thrdarg, heap) ∧
      after.msgqueue =
        Function.update held.msgqueue tasksetting.taskId queue ∧
      after.thread =
        Function.update held.thread threadId (.created thrdarg) ∧
      after.heap = heap.use (some thrdarg) := by
  unfold emTaskCreate at called
  split_ifs at called with full
  · cases (Prod.mk.inj (Option.some.inj called)).1
  · split at called
    · cases called
    · rename_i queueRet middle queueCalled
      split_ifs at called with refused
      · cases (Prod.mk.inj (Option.some.inj called)).1
      · rw [not_not] at refused
        subst refused
        obtain ⟨queue, isQueue, msgqueue, thread⟩ :=
          emTaskCreateMsgqueue_requests available queueCalled
        split at called
        · cases called
        · rename_i startRet final startCalled
          obtain ⟨isRet, rfl⟩ := Prod.mk.inj (Option.some.inj called)
          have started : startRet = 0 := by
            by_contra failed
            rw [if_pos failed] at isRet
            cases isRet
          subst started
          obtain ⟨thrdarg, heap, requested, sameQueues, threads, isHeap⟩ :=
            emTaskStartTask_requests startCalled
          exact ⟨queue, _, thrdarg, heap, isQueue, requested,
            sameQueues.trans msgqueue, thread ▸ threads, isHeap⟩

end Create

/-- Every thread is that of a task in the table, and the pointers name what is
live. -/
structure Keeps (params : DatamngParams) (outer : Finset ℕ) (first : ℕ)
    (held : TaskHeap) (table : UInt64 → Option EmTaskinfo) : Prop where
  holds : held.tm.taskinfoMng.Table params table
  available : 0 < held.tm.msgdataSize
  owned : Owned held.heap (names outer held.msgqueue held.thread)
  later : first ≤ held.heap.next
  running : ∀ taskId info, table (ulongOfTaskid taskId) = some info →
    held.thread info.threadId ≠ .absent
  listed : ∀ threadId, held.thread threadId ≠ .absent →
    ∃ taskId info, table (ulongOfTaskid taskId) = some info ∧
      info.threadId = threadId
  distinct : ∀ left leftInfo, table (ulongOfTaskid left) = some leftInfo →
    ∀ right rightInfo, table (ulongOfTaskid right) = some rightInfo →
      leftInfo.threadId = rightInfo.threadId → left = right
  unset : ∀ taskId, table (ulongOfTaskid taskId) = none →
    held.msgqueue taskId = .unset

namespace Keeps

variable {params : DatamngParams} {outer : Finset ℕ} {first : ℕ}
  {held after : TaskHeap} {table : UInt64 → Option EmTaskinfo}
  {allocFunc : AllocFunc} {freeFunc : FreeFunc}

theorem start {tm : EmTaskmng} {heap : RegionHeap}
    (holds : tm.taskinfoMng.Table params (fun _ => none))
    (available : 0 < tm.msgdataSize) (sound : heap.Sound outer) :
    (TaskHeap.start tm heap).Keeps params outer heap.next (fun _ => none) := by
  have isOutside : ∀ pointer region, names outer (fun _ => .unset)
      (fun _ => .absent) pointer = some region ↔
        pointer = .outside region ∧ region ∈ outer := by
    intro pointer region
    cases pointer with
    | outside name =>
        simp only [names]
        split_ifs with member
        · constructor
          · intro same
            cases same
            exact ⟨rfl, member⟩
          · rintro ⟨same, _⟩
            cases same
            rfl
        · constructor
          · nofun
          · rintro ⟨same, isMember⟩
            cases same
            exact absurd isMember member
    | _ =>
        simp [names, BlockRegions.unset, TaskThread.thrdarg, TaskThread.ret]
  refine ⟨holds, available, ⟨⟨outer, sound, ?_⟩, ?_⟩, le_refl _, ?_, ?_, ?_,
    ?_⟩
  · intro region
    simp only [TaskHeap.start, isOutside]
    exact ⟨fun member => ⟨_, rfl, member⟩, fun ⟨_, _, member⟩ => member⟩
  · intro left right region isLeft isRight
    exact ((isOutside left region).mp isLeft).1.trans
      ((isOutside right region).mp isRight).1.symm
  · nofun
  · intro threadId running
    exact absurd rfl running
  · nofun
  · intro taskId _
    rfl

theorem update_of_other {taskId other : EmTaskid}
    (different : other ≠ taskId) (value : Option EmTaskinfo) :
    Function.update table (ulongOfTaskid taskId) value
      (ulongOfTaskid other) = table (ulongOfTaskid other) :=
  Function.update_of_ne
    (fun same => different (ulongOfTaskid_injective same)) _ _

/-- What the call of a thread that exists changes. -/
theorem moveThread (keeps : held.Keeps params outer first table)
    {threadId : UInt64} {place : TaskThread} {heap : RegionHeap}
    (here : held.thread threadId ≠ .absent) (still : place ≠ .absent)
    (owned : Owned heap (names outer held.msgqueue
      (Function.update held.thread threadId place)))
    (later : held.heap.next ≤ heap.next) :
    Keeps params outer first { held with
      thread := Function.update held.thread threadId place, heap } table := by
  have moved : ∀ other, Function.update held.thread threadId place other ≠
      .absent ↔ held.thread other ≠ .absent := by
    intro other
    by_cases same : other = threadId
    · subst same
      rw [Function.update_self]
      exact iff_of_true still here
    · rw [Function.update_of_ne same]
  refine ⟨keeps.holds, keeps.available, owned, keeps.later.trans later, ?_, ?_,
    keeps.distinct, keeps.unset⟩
  · intro taskId info entry
    exact (moved _).mpr (keeps.running taskId info entry)
  · intro other running
    exact keeps.listed other ((moved other).mp running)

theorem enter (keeps : held.Keeps params outer first table) {threadId : UInt64}
    (called : held.enter allocFunc threadId = some after) :
    after.Keeps params outer first table := by
  unfold TaskHeap.enter at called
  split at called
  · rename_i thrdarg here
    obtain rfl := Option.some.inj called
    apply keeps.moveThread (by rw [here]; nofun) (by nofun)
    · refine owned_entered ?_ here sizeofInt
      exact owned_use_thrdarg keeps.owned (by rw [here]; rfl)
    · have later : (held.heap.use (some thrdarg)).next ≤ (allocFunc.call
          sizeofInt (held.heap.use (some thrdarg))).2.next :=
        (Obtains.call allocFunc sizeofInt).later
      rw [RegionHeap.use_next] at later
      exact later
  · cases called

theorem finish (keeps : held.Keeps params outer first table) {threadId : UInt64}
    (called : held.finish freeFunc threadId = some after) :
    after.Keeps params outer first table := by
  unfold TaskHeap.finish at called
  split at called
  · rename_i thrdarg ret here
    obtain ⟨heap, freed, rfl⟩ := Option.map_eq_some_iff.mp called
    obtain ⟨_, rfl⟩ := FreeFunc.given_of_call freed
    apply keeps.moveThread (by rw [here]; nofun) (by nofun)
    · refine owned_ended (owned_use_ret ?_ (by rw [here]; rfl)) here
      exact owned_use_thrdarg keeps.owned (by rw [here]; rfl)
    · rw [RegionHeap.free_next, RegionHeap.use_next, RegionHeap.use_next]
  · cases called

theorem create (keeps : held.Keeps params outer first table)
    {tasksetting : EmTasksetting} {created : Option UInt64}
    {memory : TaskMemory} {ret : ℤ}
    (fresh : ∀ threadId, created = some threadId →
      held.thread threadId = .absent)
    (careful : held.Careful (.create tasksetting created memory))
    (called : held.emTaskCreate allocFunc freeFunc tasksetting created
      memory = some (ret, after)) :
    ∃ next, after.Keeps params outer first next := by
  by_cases full : held.tm.full = true
  · rw [emTaskCreate, if_pos full] at called
    obtain ⟨_, rfl⟩ := Prod.mk.inj (Option.some.inj called)
    exact ⟨table, keeps⟩
  · obtain ⟨unused, isThread⟩ := careful.resolve_left full
    obtain ⟨threadId, rfl⟩ := Option.ne_none_iff_exists'.mp isThread
    rw [keeps.holds.getData_eq] at unused
    have absent := fresh threadId rfl
    obtain ⟨tm, info, succeeded, holds, sameSize, hasThread, _⟩ :=
      emTaskCreate_new keeps.holds unused (by simpa using full)
        keeps.available threadId memory
    obtain ⟨rfl, rfl⟩ := Prod.mk.inj
      ((emTaskCreate_tm called).symm.trans succeeded)
    obtain ⟨queue, queued, thrdarg, heap, isQueue, requested, msgqueue,
      thread, isHeap⟩ := emTaskCreate_requests keeps.available called
    have noQueue := keeps.unset tasksetting.taskId unused
    have different : ∀ taskId info, table (ulongOfTaskid taskId) =
        some info → taskId ≠ tasksetting.taskId ∧
          info.threadId ≠ threadId := by
      intro taskId info entry
      constructor
      · rintro rfl
        rw [unused] at entry
        cases entry
      · rintro rfl
        exact keeps.running taskId info entry absent
    refine ⟨_, holds, sameSize ▸ keeps.available, ?_, ?_, ?_, ?_, ?_, ?_⟩
    · rw [msgqueue, thread, isHeap]
      have owned := owned_create_queue keeps.owned
        (congrArg BlockRegions.rawdata noQueue)
        (congrArg BlockRegions.blockPtr noQueue) isQueue
      refine @owned_use_thrdarg _ _ _ _ threadId _
        (owned_created owned absent requested) ?_
      rw [Function.update_self]
      rfl
    · have queueLater := (BlockRegions.create_obtains isQueue).2.later
      have argLater : queued.next ≤
          (allocFunc.call sizeofThrdarg queued).2.next :=
        (Obtains.call allocFunc sizeofThrdarg).later
      rw [requested] at argLater
      rw [isHeap, RegionHeap.use_next]
      exact keeps.later.trans (queueLater.trans argLater)
    · intro taskId entryInfo entry
      rw [thread]
      rcases update_eq_cases entry with ⟨_, isInfo⟩ | ⟨_, old⟩
      · cases isInfo
        rw [hasThread, Function.update_self]
        nofun
      · rw [Function.update_of_ne (different taskId entryInfo old).2]
        exact keeps.running taskId entryInfo old
    · intro other running
      rw [thread] at running
      by_cases isNew : other = threadId
      · subst isNew
        exact ⟨_, info, Function.update_self .., hasThread⟩
      · rw [Function.update_of_ne isNew] at running
        obtain ⟨taskId, old, entry, isOld⟩ := keeps.listed other running
        refine ⟨taskId, old, ?_, isOld⟩
        rw [update_of_other (different taskId old entry).1]
        exact entry
    · intro left leftInfo isLeft right rightInfo isRight same
      rcases update_eq_cases isLeft with ⟨leftNew, isInfo⟩ | ⟨_, leftOld⟩
      · rcases update_eq_cases isRight with ⟨rightNew, _⟩ | ⟨_, rightOld⟩
        · exact ulongOfTaskid_injective (leftNew.trans rightNew.symm)
        · cases isInfo
          exact absurd (same.symm.trans hasThread)
            (different right rightInfo rightOld).2
      · rcases update_eq_cases isRight with ⟨_, isInfo⟩ | ⟨_, rightOld⟩
        · cases isInfo
          exact absurd (same.trans hasThread)
            (different left leftInfo leftOld).2
        · exact keeps.distinct left leftInfo leftOld right rightInfo rightOld
            same
    · intro taskId entry
      rw [msgqueue]
      by_cases isNew : taskId = tasksetting.taskId
      · rw [isNew, Function.update_self] at entry
        cases entry
      · rw [update_of_other isNew] at entry
        exact (Function.update_of_ne isNew _ _).trans
          (keeps.unset taskId entry)

theorem delete (keeps : held.Keeps params outer first table)
    {taskId : EmTaskid} {taskinfo : EmTaskinfo}
    (careful : held.Careful (.delete taskId taskinfo))
    (called : held.emTaskDelete freeFunc taskId taskinfo = some after) :
    ∃ next, after.Keeps params outer first next := by
  have registered : emIdatamngGetData held.tm.taskinfoMng
      (ulongOfTaskid taskId) ≠ none := careful
  rw [keeps.holds.getData_eq] at registered
  obtain ⟨info, entry⟩ := Option.ne_none_iff_exists'.mp registered
  obtain ⟨isJoined, sameSize, holds⟩ :=
    emTaskDelete_used keeps.holds entry taskinfo
  simp only [emTaskDelete, keeps.holds.getData_eq, entry, isJoined] at called
  split at called
  · rename_i ret here
    obtain ⟨joined, first, rest⟩ := Option.bind_eq_some_iff.mp called
    obtain ⟨heap, destroyed, made⟩ := Option.bind_eq_some_iff.mp rest
    obtain ⟨_, rfl⟩ := FreeFunc.given_of_call first
    obtain rfl := Option.some.inj made
    have others : ∀ other otherInfo, table (ulongOfTaskid other) =
        some otherInfo → other ≠ taskId →
          otherInfo.threadId ≠ info.threadId := by
      intro other otherInfo otherEntry different same
      exact different (keeps.distinct other otherInfo otherEntry taskId info
        entry same)
    refine ⟨_, holds, sameSize ▸ keeps.available, ?_, ?_, ?_, ?_, ?_, ?_⟩
    · have used := owned_use_ret keeps.owned
        (show (held.thread info.threadId).ret = some ret by rw [here]; rfl)
      exact owned_destroy_queue (owned_joined used here) destroyed
    · rw [emQueueDestroy_next destroyed, RegionHeap.free_next,
        RegionHeap.use_next]
      exact keeps.later
    · intro other otherInfo otherEntry
      rcases update_eq_cases otherEntry with ⟨_, isNone⟩ | ⟨different, old⟩
      · cases isNone
      · have apart : other ≠ taskId := fun same => different (same ▸ rfl)
        dsimp only
        rw [Function.update_of_ne (others other otherInfo old apart)]
        exact keeps.running other otherInfo old
    · intro threadId running
      dsimp only at running
      by_cases own : threadId = info.threadId
      · rw [own, Function.update_self] at running
        exact absurd rfl running
      · rw [Function.update_of_ne own] at running
        obtain ⟨other, otherInfo, otherEntry, isThread⟩ :=
          keeps.listed threadId running
        have apart : other ≠ taskId := by
          rintro rfl
          rw [entry] at otherEntry
          cases otherEntry
          exact own isThread.symm
        exact ⟨other, otherInfo, (update_of_other apart none).trans otherEntry,
          isThread⟩
    · intro left leftInfo isLeft right rightInfo isRight same
      rcases update_eq_cases isLeft with ⟨_, isNone⟩ | ⟨_, leftOld⟩
      · cases isNone
      · rcases update_eq_cases isRight with ⟨_, isNone⟩ | ⟨_, rightOld⟩
        · cases isNone
        · exact keeps.distinct left leftInfo leftOld right rightInfo rightOld
            same
    · intro other otherEntry
      by_cases isDeleted : other = taskId
      · rw [isDeleted]
        exact Function.update_self ..
      · rw [update_of_other isDeleted] at otherEntry
        exact (Function.update_of_ne isDeleted _ _).trans
          (keeps.unset other otherEntry)
  · cases called

theorem step (keeps : held.Keeps params outer first table) {call : TaskHeapCall}
    (taken : Guarded Careful (Step allocFunc freeFunc) held call after) :
    ∃ next, after.Keeps params outer first next := by
  obtain ⟨careful, taken⟩ := taken
  cases taken with
  | create _ fresh called => exact keeps.create fresh careful called
  | delete called => exact keeps.delete careful called
  | enter called => exact ⟨table, keeps.enter called⟩
  | finish called => exact ⟨table, keeps.finish called⟩

/-- Only the rest of the program has regions when there are no tasks. -/
theorem live_eq_outer_iff (keeps : held.Keeps params outer first table)
    {live : Finset ℕ}
    (named : ∀ region, region ∈ live ↔ ∃ pointer,
      names outer held.msgqueue held.thread pointer = some region) :
    live = outer ↔ ∀ taskId, table (ulongOfTaskid taskId) = none := by
  have isOutside : ∀ region, names outer held.msgqueue held.thread
      (.outside region) = some region ↔ region ∈ outer := by
    intro region
    simp [names]
  constructor
  · rintro rfl taskId
    by_contra registered
    obtain ⟨info, entry⟩ := Option.ne_none_iff_exists'.mp registered
    have running := keeps.running taskId info entry
    -- A thread always has its argument or its return value.
    obtain ⟨pointer, region, isTask, isRegion⟩ : ∃ pointer region,
        (∀ outside, pointer ≠ .outside outside) ∧
          names live held.msgqueue held.thread pointer = some region := by
      cases place : held.thread info.threadId with
      | absent => exact absurd place running
      | created thrdarg =>
          exact ⟨.thrdarg info.threadId, thrdarg, nofun, by
            simp [names, place, TaskThread.thrdarg]⟩
      | entered thrdarg ret =>
          exact ⟨.thrdarg info.threadId, thrdarg, nofun, by
            simp [names, place, TaskThread.thrdarg]⟩
      | ended ret =>
          exact ⟨.ret info.threadId, ret, nofun, by
            simp [names, place, TaskThread.ret]⟩
    have member := (named region).mpr ⟨pointer, isRegion⟩
    exact isTask region (keeps.owned.apart _ _ region isRegion
      ((isOutside region).mpr member))
  · intro noTask
    have absent : ∀ threadId, held.thread threadId = .absent := by
      intro threadId
      by_contra running
      obtain ⟨taskId, info, entry, _⟩ := keeps.listed threadId running
      rw [noTask] at entry
      cases entry
    have unset := fun taskId => keeps.unset taskId (noTask taskId)
    ext region
    rw [named]
    constructor
    · rintro ⟨pointer, isRegion⟩
      cases pointer with
      | outside name =>
          simp only [names] at isRegion
          split_ifs at isRegion with member
          exact Option.some.inj isRegion ▸ member
      | _ =>
          simp [names, unset, absent, BlockRegions.unset, TaskThread.thrdarg,
            TaskThread.ret] at isRegion
    · intro member
      exact ⟨_, (isOutside region).mpr member⟩

end Keeps

theorem keeps_of_run {params : DatamngParams} {outer : Finset ℕ} {first : ℕ}
    {table : UInt64 → Option EmTaskinfo} {held after : TaskHeap}
    {allocFunc : AllocFunc} {freeFunc : FreeFunc} {calls : List TaskHeapCall}
    (keeps : held.Keeps params outer first table)
    (run : Run (Guarded Careful (Step allocFunc freeFunc)) held calls after) :
    ∃ next, after.Keeps params outer first next :=
  run.invariant (fun held => ∃ table, held.Keeps params outer first table)
    ⟨table, keeps⟩ fun _ _ _ ⟨_, keeps⟩ taken => keeps.step taken

/-- In every careful run of the calls and the threads no region is released
twice or used after its release, and all that was requested is given back as
soon as every task has been deleted, and no earlier. -/
theorem task_regions_returned_iff (memory : EmTaskmng) (maxNumTask : ℕ)
    (msgdataSize : ℤ) (sizeofTaskinfo : ℕ) (keymem : Bytes) (rawdata : ℤ)
    (available : 0 < msgdataSize)
    (valid : (taskTable maxNumTask sizeofTaskinfo rawdata).Valid)
    (allocFunc : AllocFunc) (freeFunc : FreeFunc) {outer : Finset ℕ}
    {heap : RegionHeap} (sound : heap.Sound outer)
    {calls : List TaskHeapCall} {held : TaskHeap}
    (run : Run (Guarded Careful (Step allocFunc freeFunc))
      (start (emTaskmngInit memory maxNumTask msgdataSize sizeofTaskinfo keymem
        rawdata).2 heap) calls held) :
    held.heap.Lawful ∧
      (heap.GivesBack held.heap ↔ ∀ taskId,
        emIdatamngGetData held.tm.taskinfoMng (ulongOfTaskid taskId) =
          none) := by
  have started : (start (emTaskmngInit memory maxNumTask msgdataSize
      sizeofTaskinfo keymem rawdata).2 heap).Keeps _ _ _ _ :=
    .start (valid.created_table ⟨rfl, rfl, rfl⟩ _ _) available sound
  obtain ⟨table, keeps⟩ := keeps_of_run started run
  obtain ⟨live, last, named⟩ := keeps.owned.sound
  refine ⟨last.lawful, ?_⟩
  rw [sound.givesBack_iff last keeps.later, keeps.live_eq_outer_iff named]
  refine forall_congr' fun taskId => ?_
  rw [keeps.holds.getData_eq]

/-- A task is created, runs and is deleted. -/
theorem task_regions_returned_one :
    ∃ held : TaskHeap, held.heap.next = 4 ∧ held.heap.Lawful ∧
      (RegionHeap.GivesBack ⟨0, []⟩ held.heap ↔ ∀ taskId,
        emIdatamngGetData held.tm.taskinfoMng (ulongOfTaskid taskId) =
          none) := by
  have run : ∃ held, Run
      (Guarded Careful (Step (fun _ _ => true) .given))
      (start (emTaskmngInit default 2 1 200 default 1000).2 ⟨0, []⟩)
      [.create ⟨[116], 1, 2⟩ (some 10) default, .enter 10, .finish 10,
        .delete 1 default] held ∧ held.heap.next = 4 :=
    ⟨_, .cons ⟨.inr ⟨Option.not_isSome_iff_eq_none.mp (by decide +kernel),
        by decide⟩, .create (by decide) (fun _ _ => rfl) rfl⟩ <|
      .cons ⟨trivial, .enter rfl⟩ <|
      .cons ⟨trivial, .finish rfl⟩ <|
      .cons ⟨Option.ne_none_iff_isSome.mpr (by decide +kernel),
        .delete rfl⟩ .nil, rfl⟩
  obtain ⟨held, run, requested⟩ := run
  exact ⟨held, requested, task_regions_returned_iff default 2 1 200 default
    1000 (by decide) ⟨⟨by decide, by decide⟩, by decide, by decide, by decide⟩
    _ _ .empty run⟩

end TaskHeap

end EmbeddedMiddle
