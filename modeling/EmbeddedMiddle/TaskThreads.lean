import EmbeddedMiddle.TaskRouting
import EmbeddedMiddle.QueueTransfers

/-!
# Messages between threads

Any number of threads call `em_msg_send` and `em_msg_recv` after the tasks have
been created.  Each call works on the queue of one task, so what happens at
this queue is a run of the queue alone, and the messages for a task come to its
thread and to no other.
-/

namespace EmbeddedMiddle

open Foundation

universe u

/-- The task manager and the holders of the mutexes of the queues, by their
pointers. -/
structure MsgShared (Thread : Type u) where
  tm : EmTaskmng
  holder : ℤ → Option Thread

/-- `taskid` and `mqueue` of a call, and where it is in the queue. -/
structure MsgPlace where
  taskid : EmTaskid
  mqueue : ℤ
  queue : QueuePlace

inductive MsgAction where
  | send
  | recv
  | queue (action : QueueAction)

def EmTaskmng.queueAt (tm : EmTaskmng) (mqueue : ℤ) : EmQueue :=
  (tm.taskinfoMng.data mqueue).msgqueue

def EmTaskmng.setQueue (tm : EmTaskmng) (mqueue : ℤ) (queue : EmQueue) :
    EmTaskmng :=
  tm.setTaskinfo mqueue
    { tm.taskinfoMng.data mqueue with msgqueue := queue }

/-- One step of a thread whose `pthread_self()` is `threadId`. -/
inductive MsgProgram {Thread : Type u} (threadId : Thread → UInt64)
    (thread : Thread) : MsgShared Thread → MsgPlace → MsgAction →
      MsgShared Thread → MsgPlace → Prop where
  | send {shared place taskid mqueue} {msgdata : Bytes} {timeoutMs : ℤ} :
      place.queue = .idle →
      emMsgmngGetQueue shared.tm taskid = some mqueue →
      MsgProgram threadId thread shared place .send shared
        ⟨taskid, mqueue, .enqWaiting msgdata timeoutMs⟩
  -- The function returns -1.
  | sendUnknown {shared place taskid} :
      place.queue = .idle →
      emMsgmngGetQueue shared.tm taskid = none →
      MsgProgram threadId thread shared place .send shared place
  | recv {shared place taskid mqueue} {timeoutMs : ℤ} :
      place.queue = .idle →
      emGetTaskId shared.tm (threadId thread) = taskid →
      emMsgmngGetQueue shared.tm taskid = some mqueue →
      MsgProgram threadId thread shared place .recv shared
        ⟨taskid, mqueue, .deqWaiting timeoutMs⟩
  | recvUnknown {shared place taskid} :
      place.queue = .idle →
      emGetTaskId shared.tm (threadId thread) = taskid →
      emMsgmngGetQueue shared.tm taskid = none →
      MsgProgram threadId thread shared place .recv shared place
  | queue {tm holder taskid mqueue old action queue next new} :
      action ≠ .call →
      QueueProgram thread ⟨tm.queueAt mqueue, holder mqueue⟩ old action
        ⟨queue, next⟩ new →
      MsgProgram threadId thread ⟨tm, holder⟩ ⟨taskid, mqueue, old⟩
        (.queue action)
        ⟨tm.setQueue mqueue queue, Function.update holder mqueue next⟩
        ⟨taskid, mqueue, new⟩

/-- What a step shows, and at the queue of which task. -/
def MsgPlace.shows (tm : EmTaskmng) (place : MsgPlace) :
    MsgAction → Option (EmTaskid × QueueEvent)
  | .queue action =>
      (place.queue.shows (tm.queueAt place.mqueue) action).map
        (place.taskid, ·)
  | _ => none

abbrev MsgThreads (Thread : Type u) :=
  Threads Thread (MsgShared Thread) MsgPlace

namespace MsgThreads

variable {Thread : Type u}

def start (tm : EmTaskmng) : MsgThreads Thread :=
  ⟨⟨tm, fun _ => none⟩, fun _ => ⟨-1, 0, .idle⟩⟩

/-- A step with what it shows. -/
abbrev Label (Thread : Type u) :=
  (Thread × MsgAction) × Option (EmTaskid × QueueEvent)

variable [DecidableEq Thread]

def Step (threadId : Thread → UInt64) (before : MsgThreads Thread)
    (label : Label Thread) (after : MsgThreads Thread) : Prop :=
  Threads.Step (MsgProgram threadId) before label.1 after ∧
    label.2 = (before.place label.1.1).shows before.shared.tm label.1.2

/-- What happens at the queue of one task. -/
def eventsAt (taskid : EmTaskid) (label : Label Thread) : List QueueEvent :=
  match label.2 with
  | some (other, event) => if other = taskid then [event] else []
  | none => []

end MsgThreads

/-! ## The table under the queues -/

namespace EmTaskmng

variable (tm : EmTaskmng) (mqueue : ℤ) (queue : EmQueue)

theorem data_setQueue : (tm.setQueue mqueue queue).taskinfoMng.data =
    Function.update tm.taskinfoMng.data mqueue
      { tm.taskinfoMng.data mqueue with msgqueue := queue } := rfl

theorem threadId_setQueue (other : ℤ) :
    ((tm.setQueue mqueue queue).taskinfoMng.data other).threadId =
      (tm.taskinfoMng.data other).threadId := by
  rw [data_setQueue, Function.update_apply]
  split_ifs with same
  · rw [same]
  · rfl

/-- Messages do not change who a thread is. -/
theorem getTaskId_setQueue (threadId : UInt64) :
    emGetTaskId (tm.setQueue mqueue queue) threadId =
      emGetTaskId tm threadId := by
  have search : emGdatamngGetDataIndexByFunc
      (tm.setQueue mqueue queue).taskinfoMng
        (fun info => threadId == info.threadId) =
      emGdatamngGetDataIndexByFunc tm.taskinfoMng
        (fun info => threadId == info.threadId) := by
    simp only [emGdatamngGetDataIndexByFunc, threadId_setQueue]
    rfl
  simp only [emGetTaskId, emIdatamngGetIdByFunc, emGdatamngGetKeyByFunc,
    search]
  rfl

end EmTaskmng

/-! ## The queue of one task -/

namespace QueuePlace

/-- In a call of `em_dequeue`. -/
def receiving : QueuePlace → Bool
  | deqWaiting _ | deqWaited | deqLocked | deqCopying _ | deqCopied
  | deqIncremented | deqUnlocked | deqFatal | deqFatalPosted => true
  | _ => false

end QueuePlace

/-- A step inside a call stays in it. -/
theorem QueueProgram.inside {Thread : Type u} {thread : Thread}
    {shared next : QueueShared Thread} {old new : QueuePlace}
    {action : QueueAction}
    (taken : QueueProgram thread shared old action next new)
    (noCall : action ≠ .call) :
    old ≠ .idle ∧ (new.receiving = true → old.receiving = true) := by
  cases taken with
  | enqCall => exact absurd rfl noCall
  | deqCall => exact absurd rfl noCall
  | _ => exact ⟨by simp, by simp [QueuePlace.receiving]⟩

/-- A receiver is the only one that gets blocks. -/
theorem QueuePlace.receiving_of_received {queue : EmQueue}
    {place : QueuePlace} {action : QueueAction} {block : List UInt8}
    (shown : place.shows queue action = some (.received block)) :
    place.receiving = true := by
  cases place with
  | deqCopying _ => rfl
  | _ => cases action <;> simp [QueuePlace.shows] at shown

def MsgPlace.inQueueOf (taskid : EmTaskid) (place : MsgPlace) : QueuePlace :=
  if place.taskid = taskid then place.queue else .idle

namespace MsgThreads

variable {Thread : Type u}

/-- The queue of a task and the threads that are in calls on it. -/
def inbox (taskid : EmTaskid) (mqueue : ℤ) (state : MsgThreads Thread) :
    QueueThreads Thread :=
  ⟨⟨state.shared.tm.queueAt mqueue, state.shared.holder mqueue⟩,
    MsgPlace.inQueueOf taskid ∘ state.place⟩

/-- The calls in progress have the pointers that the table gives, and only the
thread of a task receives from its queue. -/
structure Routed (threadId : Thread → UInt64) (tm : EmTaskmng)
    (state : MsgThreads Thread) : Prop where
  pointers : ∀ taskid, emMsgmngGetQueue state.shared.tm taskid =
    emMsgmngGetQueue tm taskid
  ids : ∀ id, emGetTaskId state.shared.tm id = emGetTaskId tm id
  calls : ∀ thread, (state.place thread).queue ≠ .idle →
    emMsgmngGetQueue tm (state.place thread).taskid =
      some (state.place thread).mqueue
  receivers : ∀ thread, (state.place thread).queue.receiving = true →
    (state.place thread).taskid = emGetTaskId tm (threadId thread)

variable [DecidableEq Thread] {threadId : Thread → UInt64} {tm : EmTaskmng}
  {before after : MsgThreads Thread} {label : Label Thread}

namespace Routed

theorem move {shared next : MsgShared Thread} {place : Thread → MsgPlace}
    (routed : Routed threadId tm ⟨shared, place⟩) {thread : Thread}
    {new : MsgPlace}
    (pointers : ∀ taskid, emMsgmngGetQueue next.tm taskid =
      emMsgmngGetQueue shared.tm taskid)
    (ids : ∀ id, emGetTaskId next.tm id = emGetTaskId shared.tm id)
    (call : new.queue ≠ .idle →
      emMsgmngGetQueue tm new.taskid = some new.mqueue)
    (receiver : new.queue.receiving = true →
      new.taskid = emGetTaskId tm (threadId thread)) :
    Routed threadId tm ⟨next, Function.update place thread new⟩ := by
  refine ⟨fun taskid => (pointers taskid).trans (routed.pointers taskid),
    fun id => (ids id).trans (routed.ids id), ?_, ?_⟩
  · exact (Function.forall_update_iff place fun _ place =>
      place.queue ≠ .idle →
        emMsgmngGetQueue tm place.taskid = some place.mqueue).mpr
          ⟨call, fun other _ => routed.calls other⟩
  · exact (Function.forall_update_iff place fun thread place =>
      place.queue.receiving = true →
        place.taskid = emGetTaskId tm (threadId thread)).mpr
          ⟨receiver, fun other _ => routed.receivers other⟩

theorem step (routed : Routed threadId tm before)
    (taken : Step threadId before label after) :
    Routed threadId tm after := by
  obtain ⟨⟨thread, action⟩, event⟩ := label
  obtain ⟨moved, _⟩ := taken
  obtain ⟨shared, places⟩ := before
  have pointers := routed.pointers
  have ids := routed.ids
  have call := routed.calls thread
  have receiver := routed.receivers thread
  dsimp only at moved pointers ids call receiver
  cases moved with
  | move moved =>
      dsimp only at moved
      generalize places thread = old at moved call receiver
      cases moved with
      | send _ found =>
          refine routed.move (fun _ => rfl) (fun _ => rfl) ?_ ?_
          · intro _
            rw [← pointers]
            exact found
          · intro impossible
            cases impossible
      | sendUnknown _ _ =>
          exact routed.move (fun _ => rfl) (fun _ => rfl) call receiver
      | recv _ isId found =>
          refine routed.move (fun _ => rfl) (fun _ => rfl) ?_ ?_
          · intro _
            rw [← pointers]
            exact found
          · intro _
            rw [← ids]
            exact isId.symm
      | recvUnknown _ _ _ =>
          exact routed.move (fun _ => rfl) (fun _ => rfl) call receiver
      | queue noCall taken =>
          obtain ⟨wasInside, wasReceiving⟩ := taken.inside noCall
          refine routed.move (fun _ => rfl) ?_ ?_ ?_
          · intro id
            exact EmTaskmng.getTaskId_setQueue _ _ _ id
          · intro _
            exact call wasInside
          · intro receives
            exact receiver (wasReceiving receives)

omit [DecidableEq Thread] in
theorem start (tm : EmTaskmng) :
    Routed threadId tm (MsgThreads.start tm) := by
  refine ⟨fun _ => rfl, fun _ => rfl, ?_, ?_⟩
  · intro thread inside
    exact absurd rfl inside
  · intro thread impossible
    cases impossible

end Routed

/-- A step is one at the queue of this task, or the queue does not take part
in it. -/
def Projects (taskid : EmTaskid) (mqueue : ℤ) (before after : MsgThreads Thread)
    (seen : List QueueEvent) : Prop :=
  (inbox taskid mqueue after = inbox taskid mqueue before ∧ seen = []) ∨
    ∃ queueLabel, QueueThreads.SeenStep (inbox taskid mqueue before)
        queueLabel (inbox taskid mqueue after) ∧
      queueLabel.2.toList = seen

namespace Projects

variable {taskid : EmTaskid} {mqueue : ℤ} {shared next : MsgShared Thread}
  {place : Thread → MsgPlace} {thread : Thread} {new : MsgPlace}

theorem unmoved (queue : next.tm.queueAt mqueue = shared.tm.queueAt mqueue)
    (holder : next.holder mqueue = shared.holder mqueue)
    (stays : new.inQueueOf taskid = (place thread).inQueueOf taskid) :
    Projects taskid mqueue ⟨shared, place⟩
      ⟨next, Function.update place thread new⟩ [] := by
  refine .inl ⟨?_, rfl⟩
  simp only [inbox, queue, holder, Function.comp_update, stays]
  congr 1
  exact Function.update_eq_self thread _

theorem moved {action : QueueAction} {seen : List QueueEvent}
    (step : QueueProgram thread
      ⟨shared.tm.queueAt mqueue, shared.holder mqueue⟩
      ((place thread).inQueueOf taskid) action
      ⟨next.tm.queueAt mqueue, next.holder mqueue⟩ (new.inQueueOf taskid))
    (shown : (((place thread).inQueueOf taskid).shows
      (shared.tm.queueAt mqueue) action).toList = seen) :
    Projects taskid mqueue ⟨shared, place⟩
      ⟨next, Function.update place thread new⟩ seen := by
  refine .inr ⟨((thread, action), _), ⟨?_, rfl⟩, shown⟩
  have image : inbox taskid mqueue
      ⟨next, Function.update place thread new⟩ =
    ⟨⟨next.tm.queueAt mqueue, next.holder mqueue⟩, Function.update
      (inbox taskid mqueue ⟨shared, place⟩).place thread
        (new.inQueueOf taskid)⟩ := by
    simp only [inbox, Function.comp_update]
  rw [image]
  exact .move step

/-- A new call is one for this task or for another one. -/
theorem call (wasIdle : (place thread).queue = .idle)
    (calls : ∀ queue : QueueShared Thread,
      QueueProgram thread queue .idle .call queue new.queue) :
    Projects taskid mqueue ⟨shared, place⟩
      ⟨shared, Function.update place thread new⟩ [] := by
  have idle : (place thread).inQueueOf taskid = .idle := by
    rw [MsgPlace.inQueueOf, wasIdle, ite_self]
  by_cases own : new.taskid = taskid
  · apply moved
    · rw [idle, MsgPlace.inQueueOf, if_pos own]
      exact calls _
    · rw [idle]
      rfl
  · apply unmoved rfl rfl
    rw [idle, MsgPlace.inQueueOf, if_neg own]

end Projects

/-- The messages that the senders have put into the queue of a task. -/
def sent (taskid : EmTaskid) (labels : List (Label Thread)) :
    List (List UInt8) :=
  (labels.flatMap (eventsAt taskid)).filterMap QueueEvent.sent?

/-- The messages that came out of it. -/
def received (taskid : EmTaskid) (labels : List (Label Thread)) :
    List (List UInt8) :=
  (labels.flatMap (eventsAt taskid)).filterMap QueueEvent.received?

/-- Only who has the identifier of a task gets messages of its queue. -/
theorem Routed.receiver (routed : Routed threadId tm before)
    (taken : Step threadId before label after) {taskid : EmTaskid}
    {block : List UInt8} (shown : label.2 = some (taskid, .received block)) :
    taskid = emGetTaskId tm (threadId label.1.1) := by
  obtain ⟨⟨thread, action⟩, event⟩ := label
  obtain ⟨_, isShown⟩ := taken
  dsimp only at shown isShown ⊢
  rw [shown] at isShown
  cases action with
  | send => cases isShown
  | recv => cases isShown
  | queue action =>
      obtain ⟨event, isEvent, same⟩ :=
        Option.map_eq_some_iff.mp isShown.symm
      obtain ⟨rfl, rfl⟩ := Prod.mk.inj same
      exact routed.receivers thread
        (QueuePlace.receiving_of_received isEvent)

end MsgThreads

end EmbeddedMiddle
