import EmbeddedMiddle.QueueFifo
import EmbeddedMiddle.QueueSettling

/-!
# Blocks that threads hand on

Any number of threads call `em_enqueue` and `em_dequeue` on one queue.  A block
is handed over while the mutex is held, so the order of the copies is one order
of all calls, and the receivers get the blocks of the senders in this order.
-/

namespace EmbeddedMiddle

open Foundation

universe u

/-! ## What the callers see -/

/-- A block is copied from the caller or to the caller, or a call returns. -/
inductive QueueEvent where
  | sent (block : List UInt8)
  | received (block : List UInt8)
  | enqueued (ret : ℤ)
  | dequeued (ret : ℤ)
  deriving DecidableEq

namespace QueueEvent

def sent? : QueueEvent → Option (List UInt8)
  | sent block => some block
  | _ => none

def received? : QueueEvent → Option (List UInt8)
  | received block => some block
  | _ => none

end QueueEvent

/-- What the caller of a thread sees of its next step. -/
def QueuePlace.shows (queue : EmQueue) :
    QueuePlace → QueueAction → Option QueueEvent
  | .enqCopying blockData _, .copy =>
      some (.sent (blockData.read 0 queue.blockSize))
  | .deqCopying dataPtr, .copy =>
      some (.received (queue.rawdata.read dataPtr queue.blockSize))
  | .enqWaiting _ _, .timeout => some (.enqueued (-1))
  | .enqUnlocked, .post => some (.enqueued 0)
  | .enqFatalUnlocked, .post => some (.enqueued (-1))
  | .deqWaiting _, .timeout => some (.dequeued emErrTimeout)
  | .deqUnlocked, .post => some (.dequeued 0)
  | .deqFatalPosted, .unlock => some (.dequeued emErrOther)
  | _, _ => none

/-- The events of calls that have returned, one call after the other. -/
inductive QueueCalls : List QueueEvent → Prop where
  | nil : QueueCalls []
  | enqueued {events : List QueueEvent} (block : List UInt8) :
      QueueCalls events →
      QueueCalls (events ++ [.sent block] ++ [.enqueued 0])
  | enqueueFailed {events : List QueueEvent} {ret : ℤ} :
      ret ≠ 0 → QueueCalls events → QueueCalls (events ++ [.enqueued ret])
  | dequeued {events : List QueueEvent} (block : List UInt8) :
      QueueCalls events →
      QueueCalls (events ++ [.received block] ++ [.dequeued 0])
  | dequeueFailed {events : List QueueEvent} {ret : ℤ} :
      ret ≠ 0 → QueueCalls events → QueueCalls (events ++ [.dequeued ret])

/-- Calls that have returned, and what the call in progress has done so far. -/
def QueuePlace.Follows (events : List QueueEvent) : QueuePlace → Prop
  | .enqCopied | .enqIncremented | .enqUnlocked | .enqFatalIncrement =>
      ∃ earlier block, events = earlier ++ [.sent block] ∧ QueueCalls earlier
  | .deqCopied | .deqIncremented | .deqUnlocked =>
      ∃ earlier block,
        events = earlier ++ [.received block] ∧ QueueCalls earlier
  | _ => QueueCalls events

theorem QueuePlace.Follows.unseen {place : QueuePlace}
    {events : List QueueEvent} {event : Option QueueEvent}
    (nothing : event = none) (follows : place.Follows events) :
    place.Follows (events ++ event.toList) := by
  rw [nothing, Option.toList_none, List.append_nil]
  exact follows

namespace QueueThreads

variable {Thread : Type u} [DecidableEq Thread]

/-- A step with what it shows. -/
abbrev Label (Thread : Type u) := (Thread × QueueAction) × Option QueueEvent

def SeenStep (before : QueueThreads Thread) (label : Label Thread)
    (after : QueueThreads Thread) : Prop :=
  Step before label.1 after ∧
    label.2 = (before.place label.1.1).shows before.shared.queue label.1.2

/-- The blocks that the senders have put in, in the order of the copies. -/
def sent (labels : List (Label Thread)) : List (List UInt8) :=
  labels.filterMap fun label => label.2.bind QueueEvent.sent?

/-- The blocks that the receivers have got, in the order of the copies. -/
def received (labels : List (Label Thread)) : List (List UInt8) :=
  labels.filterMap fun label => label.2.bind QueueEvent.received?

/-- What one thread has seen. -/
def seenBy (thread : Thread) (labels : List (Label Thread)) :
    List QueueEvent :=
  labels.filterMap fun label =>
    if label.1.1 = thread then label.2 else none

end QueueThreads

/-! ## One thread -/

namespace QueueThreads

variable {Thread : Type u} [DecidableEq Thread]

omit [DecidableEq Thread] in
/-- Every step goes on with the calls of its thread. -/
theorem follows_step {thread : Thread} {shared next : QueueShared Thread}
    {old new : QueuePlace} {action : QueueAction}
    {events : List QueueEvent}
    (taken : QueueProgram thread shared old action next new)
    (follows : old.Follows events) :
    new.Follows (events ++ (old.shows shared.queue action).toList) := by
  cases taken with
  | enqCopy => exact ⟨events, _, rfl, follows⟩
  | deqCopy => exact ⟨events, _, rfl, follows⟩
  | enqPost =>
      obtain ⟨earlier, block, rfl, calls⟩ := follows
      exact .enqueued block calls
  | deqPost =>
      obtain ⟨earlier, block, rfl, calls⟩ := follows
      exact .dequeued block calls
  | enqTimeout _ => exact .enqueueFailed (by decide) follows
  | deqTimeout _ => exact .dequeueFailed (by decide) follows
  | enqFatalPost => exact .enqueueFailed (by decide) follows
  | deqFatalUnlock => exact .dequeueFailed (by decide) follows
  | _ => exact .unseen rfl follows

theorem seenBy_snoc (thread : Thread) (labels : List (Label Thread))
    (label : Label Thread) :
    seenBy thread (labels ++ [label]) = seenBy thread labels ++
      if label.1.1 = thread then label.2.toList else [] := by
  rw [seenBy, List.filterMap_append]
  congr 1
  split_ifs with own
  · cases event : label.2 <;> simp [own, event]
  · simp [own]

/-- Every thread has seen whole calls, up to the one it is in. -/
theorem follows_run {queue : EmQueue} {labels : List (Label Thread)}
    {state : QueueThreads Thread}
    (run : Run SeenStep (start queue) labels state) (thread : Thread) :
    (state.place thread).Follows (seenBy thread labels) := by
  apply run.history_invariant (fun labels state =>
    (state.place thread).Follows (seenBy thread labels))
  · exact .nil
  · intro labels before label after follows taken
    obtain ⟨⟨mover, action⟩, event⟩ := label
    obtain ⟨step, shown⟩ := taken
    dsimp only at step shown
    subst shown
    rw [seenBy_snoc]
    by_cases own : mover = thread
    · subst own
      rw [if_pos rfl]
      cases step with
      | @move _ _ shared place moved =>
          change QueuePlace.Follows _
            (Function.update before.place mover place mover)
          rw [Function.update_self]
          exact follows_step moved follows
    · rw [if_neg own, List.append_nil, step.place_of_ne (Ne.symm own)]
      exact follows

end QueueThreads

/-! ## The blocks between senders and receivers -/

namespace QueuePlace

/-- A pointer that was taken is still the one at the end of the ring. -/
def Aims (queue : EmQueue) : QueuePlace → Prop
  | enqCopying _ tmp => tmp = queue.blockPtr queue.headPtr
  | deqCopying dataPtr => dataPtr = queue.blockPtr queue.tailPtr
  | _ => True

/-- The blocks sent and not received, when the holder of the mutex is here. -/
def onTheWay (queue : EmQueue) : QueuePlace → List (List UInt8)
  | enqCopied => queue.contents ++ [queue.slot queue.headPtr]
  | deqCopied => queue.contents.tail
  | _ => queue.contents

end QueuePlace

namespace EmQueue.Ring

variable {qu : EmQueue} {blockSize capacity : ℕ}

/-- A block is copied into the slot behind the window. -/
theorem copied (ring : qu.Ring blockSize capacity)
    (room : qu.numUsed < capacity) (data : Bytes) :
    EmQueue.contents { qu with
        rawdata := qu.rawdata.copy (qu.blockPtr qu.headPtr) data
          qu.blockSize } = qu.contents ∧
      EmQueue.slot { qu with
        rawdata := qu.rawdata.copy (qu.blockPtr qu.headPtr) data
          qu.blockSize } qu.headPtr = data.read 0 qu.blockSize := by
  refine ⟨?_, Bytes.read_copy_self ..⟩
  apply window_congr
  intro offset below
  apply Bytes.read_copy_of_disjoint
  have inside : (qu.tailPtr + offset) % capacity < capacity :=
    Nat.mod_lt _ (Nat.zero_lt_of_lt ring.tail_lt)
  rw [ring.numMax_eq, ring.blockPtr_eq _ inside,
    ring.blockPtr_eq _ ring.head_lt, ring.blockSize_eq]
  apply slots_apart
  rw [ring.head_eq]
  exact wrapped_ne below room

theorem incremented (ring : qu.Ring blockSize capacity)
    (room : qu.numUsed < capacity) {after : EmQueue} {ret : ℤ}
    (called : emEnqueueIncrement qu = (ret, after)) :
    after.Ring blockSize capacity ∧
      after.contents = qu.contents ++ [qu.slot qu.headPtr] := by
  have hasRoom : ¬ qu.numMax ≤ qu.numUsed := by
    rw [ring.numMax_eq]
    exact Nat.not_le.mpr room
  rw [emEnqueueIncrement, if_neg hasRoom] at called
  obtain ⟨_, rfl⟩ := Prod.mk.inj called
  constructor
  · refine ⟨ring.numMax_eq, ring.blockSize_eq, ring.blockPtr_eq, room,
      ring.tail_lt, ?_⟩
    simp only
    rw [ring.wrap_succ ring.head_lt, ring.head_eq, Nat.mod_add_mod,
      Nat.add_assoc]
  · have grown := @window_append _ qu.slot qu.slot capacity qu.tailPtr
      qu.numUsed room (fun _ _ _ => rfl)
    rw [← ring.head_eq] at grown
    rw [EmQueue.contents, EmQueue.contents, ring.numMax_eq]
    exact grown

theorem first (ring : qu.Ring blockSize capacity)
    (nonempty : 0 < qu.numUsed) :
    qu.contents = qu.slot qu.tailPtr :: qu.contents.tail := by
  obtain ⟨used, isSucc⟩ := Nat.exists_eq_succ_of_ne_zero nonempty.ne'
  rw [EmQueue.contents, isSucc, window_succ, ring.numMax_eq,
    Nat.mod_eq_of_lt ring.tail_lt, List.tail_cons]

theorem decremented (ring : qu.Ring blockSize capacity)
    (nonempty : 0 < qu.numUsed) {after : EmQueue} {ret : ℤ}
    (called : emDequeueIncrement qu = (ret, after)) :
    after.Ring blockSize capacity ∧ after.contents = qu.contents.tail := by
  obtain ⟨data, reached, returned, kept, shrunk⟩ :=
    ring.dequeue_some nonempty
  have hasData : ¬ qu.numUsed ≤ 0 := Nat.not_le.mpr nonempty
  simp only [emDequeueBody, emDequeueGetDataptr, if_neg hasData, called,
    Prod.mk.injEq] at returned
  obtain ⟨_, rfl⟩ := returned
  exact ⟨kept, by rw [shrunk, List.tail_cons]⟩

end EmQueue.Ring

theorem QueuePlace.aims_of_unlocked {place : QueuePlace}
    (outside : place.locked = false) (queue : EmQueue) :
    place.Aims queue := by
  cases place with
  | enqCopying _ _ => cases outside
  | deqCopying _ => cases outside
  | _ => trivial

namespace QueueThreads

variable {Thread : Type u}

/-- What was sent is what was received and what is on the way. -/
structure Handing (blockSize capacity : ℕ) (sent received : List (List UInt8))
    (state : QueueThreads Thread) : Prop where
  held : Threads.HeldBy QueuePlace.locked state.shared.holder state.place
  ring : state.shared.queue.Ring blockSize capacity
  aims : ∀ thread, (state.place thread).Aims state.shared.queue
  free : state.shared.holder = none →
    sent = received ++ state.shared.queue.contents
  accounted : ∀ thread, state.shared.holder = some thread →
    sent = received ++ (state.place thread).onTheWay state.shared.queue

variable [DecidableEq Thread]

namespace Handing

variable {blockSize capacity : ℕ} {sent received : List (List UInt8)}

section Moves

variable {queue next : EmQueue} {holder : Option Thread}
  {place : Thread → QueuePlace} {thread : Thread} {old new : QueuePlace}

omit [DecidableEq Thread] in
theorem not_holder
    (handing : Handing blockSize capacity sent received
      ⟨⟨queue, holder⟩, place⟩)
    (here : place thread = old) (outside : old.locked = false) :
    holder ≠ some thread := by
  intro isHolder
  have locked : (place thread).locked = true :=
    (handing.held thread).mpr isHolder
  rw [here, outside] at locked
  cases locked

theorem aims_update (moved : new.Aims next)
    (others : ∀ other, other ≠ thread → (place other).locked = false) :
    ∀ other, (Function.update place thread new other).Aims next := by
  intro other
  by_cases mover : other = thread
  · subst mover
    rwa [Function.update_self]
  · rw [Function.update_of_ne mover]
    exact QueuePlace.aims_of_unlocked (others other mover) next

/-- A step without the mutex moves tokens at most. -/
theorem outside
    (handing : Handing blockSize capacity sent received
      ⟨⟨queue, holder⟩, place⟩)
    (here : place thread = old) (wasOutside : old.locked = false)
    (isOutside : new.locked = false) (semIn semOut : EmSem) :
    Handing blockSize capacity sent received
      ⟨⟨{ queue with semIn, semOut }, holder⟩,
        Function.update place thread new⟩ := by
  have notHolder := handing.not_holder here wasOutside
  refine ⟨handing.held.keep here (isOutside.trans wasOutside.symm),
    { handing.ring with }, ?_, handing.free, ?_⟩
  · intro other
    change (Function.update place thread new other).Aims _
    by_cases mover : other = thread
    · subst mover
      rw [Function.update_self]
      exact QueuePlace.aims_of_unlocked isOutside _
    · rw [Function.update_of_ne mover]
      exact handing.aims other
  · intro other isHolder
    have different : other ≠ thread := by
      rintro rfl
      exact notHolder isHolder
    change sent = received ++
      (Function.update place thread new other).onTheWay _
    rw [Function.update_of_ne different]
    exact handing.accounted other isHolder

/-- The holder of the mutex goes on. -/
theorem inside
    (handing : Handing blockSize capacity sent received
      ⟨⟨queue, holder⟩, place⟩)
    (here : place thread = old) (wasInside : old.locked = true)
    (isInside : new.locked = true) {nowSent nowReceived : List (List UInt8)}
    (ring : next.Ring blockSize capacity) (moved : new.Aims next)
    (accounted : nowSent = nowReceived ++ new.onTheWay next) :
    Handing blockSize capacity nowSent nowReceived
      ⟨⟨next, holder⟩, Function.update place thread new⟩ := by
  have isHolder : holder = some thread :=
    handing.held.holder_eq here wasInside
  refine ⟨handing.held.keep here (isInside.trans wasInside.symm), ring, ?_,
    ?_, ?_⟩
  · apply aims_update moved
    intro other different
    apply handing.held.others
    intro alsoHolder
    exact different (Option.some.inj (alsoHolder.symm.trans isHolder))
  · intro isFree
    exact absurd (isHolder.symm.trans isFree) (Option.some_ne_none _)
  · intro other alsoHolder
    have same : other = thread :=
      Option.some.inj (Eq.trans (Eq.symm alsoHolder) isHolder)
    subst same
    change nowSent = nowReceived ++
      (Function.update place other new other).onTheWay next
    rw [Function.update_self]
    exact accounted

theorem lock
    (handing : Handing blockSize capacity sent received
      ⟨⟨queue, none⟩, place⟩)
    (here : place thread = old) (isInside : new.locked = true)
    (moved : new.Aims queue) (nothing : new.onTheWay queue = queue.contents) :
    Handing blockSize capacity sent received
      ⟨⟨queue, some thread⟩, Function.update place thread new⟩ := by
  refine ⟨handing.held.acquire here isInside, handing.ring, ?_, ?_, ?_⟩
  · apply aims_update moved
    intro other _
    exact handing.held.others (by simp)
  · intro isFree
    cases isFree
  · intro other isHolder
    obtain rfl := Option.some.inj isHolder
    change sent = received ++
      (Function.update place thread new thread).onTheWay queue
    rw [Function.update_self, nothing]
    exact handing.free rfl

theorem unlock
    (handing : Handing blockSize capacity sent received
      ⟨⟨queue, holder⟩, place⟩)
    (here : place thread = old) (wasInside : old.locked = true)
    (isOutside : new.locked = false)
    (nothing : old.onTheWay queue = queue.contents) :
    Handing blockSize capacity sent received
      ⟨⟨queue, none⟩, Function.update place thread new⟩ := by
  have isHolder : holder = some thread :=
    handing.held.holder_eq here wasInside
  have accounted := handing.accounted thread isHolder
  refine ⟨handing.held.release here wasInside isOutside, handing.ring, ?_,
    ?_, ?_⟩
  · apply aims_update (QueuePlace.aims_of_unlocked isOutside queue)
    intro other different
    apply handing.held.others
    intro alsoHolder
    exact different (Option.some.inj (alsoHolder.symm.trans isHolder))
  · intro _
    change sent = received ++ (place thread).onTheWay queue at accounted
    rw [here, nothing] at accounted
    exact accounted
  · intro other impossible
    cases impossible

end Moves

omit [DecidableEq Thread] in
/-- A step that copies no block. -/
theorem silent {state : QueueThreads Thread} {event : Option QueueEvent}
    (noneSent : event.bind QueueEvent.sent? = none)
    (noneReceived : event.bind QueueEvent.received? = none)
    (handing : Handing blockSize capacity sent received state) :
    Handing blockSize capacity
      (sent ++ (event.bind QueueEvent.sent?).toList)
      (received ++ (event.bind QueueEvent.received?).toList) state := by
  rw [noneSent, noneReceived, Option.toList_none, List.append_nil,
    List.append_nil]
  exact handing

variable [Fintype Thread]

theorem step {before after : QueueThreads Thread} {label : Label Thread}
    (balanced : before.Balanced capacity)
    (handing : Handing blockSize capacity sent received before)
    (taken : SeenStep before label after) :
    Handing blockSize capacity
      (sent ++ (label.2.bind QueueEvent.sent?).toList)
      (received ++ (label.2.bind QueueEvent.received?).toList) after := by
  obtain ⟨⟨thread, action⟩, event⟩ := label
  obtain ⟨moved, shown⟩ := taken
  dsimp only at moved shown ⊢
  subst shown
  obtain ⟨⟨queue, holder⟩, places⟩ := before
  cases moved with
  | move moved =>
      rename_i shared place
      have room : (places thread).enqueuing = true → _ := balanced.room
      have nonempty : (places thread).dequeuing = true → _ :=
        balanced.nonempty
      have sound := balanced.sound thread
      have aims := handing.aims thread
      have accounted := handing.accounted thread
      have ring := handing.ring
      have numMax : queue.numMax = capacity := ring.numMax_eq
      simp only at moved room nonempty sound aims accounted ring ⊢
      generalize here : places thread = old
        at moved room nonempty sound aims accounted
      cases moved with
      | enqCall => exact silent rfl rfl (handing.outside here rfl rfl _ _)
      | enqWait _ => exact silent rfl rfl (handing.outside here rfl rfl _ _)
      | enqTimeout _ =>
          exact silent rfl rfl (handing.outside here rfl rfl _ _)
      | enqLock =>
          exact silent rfl rfl (handing.lock here rfl trivial rfl)
      | enqGetDataptr got =>
          have isHead := room rfl
          rw [emEnqueueGetDataptr, if_neg (Nat.not_le.mpr isHead)] at got
          obtain rfl := Option.some.inj got
          exact silent rfl rfl (handing.inside here rfl rfl ring rfl
            (accounted (handing.held.holder_eq here rfl)))
      | enqGetNull missing =>
          have hasRoom := room rfl
          rw [emEnqueueGetDataptr, if_neg (Nat.not_le.mpr hasRoom)] at missing
          cases missing
      | @enqCopy _ _ blockData tmp =>
          obtain rfl : tmp = queue.blockPtr queue.headPtr := aims
          obtain ⟨kept, copied⟩ :=
            ring.copied (numMax ▸ room rfl) blockData
          refine handing.inside here rfl rfl { ring with } trivial ?_
          change sent ++ [blockData.read 0 queue.blockSize] =
            received ++ [] ++ (EmQueue.contents _ ++ [EmQueue.slot _ _])
          rw [kept, copied, List.append_nil, ← List.append_assoc,
            accounted (handing.held.holder_eq here rfl)]
          rfl
      | enqIncrement called =>
          obtain ⟨kept, grown⟩ :=
            ring.incremented (numMax ▸ room rfl) called
          refine silent rfl rfl (handing.inside here rfl rfl kept trivial ?_)
          rw [accounted (handing.held.holder_eq here rfl)]
          exact congrArg (received ++ ·) grown.symm
      | enqIncrementFailed called failed =>
          exact absurd (emEnqueueIncrement_room (room rfl) called) failed
      | enqUnlock =>
          exact silent rfl rfl (handing.unlock here rfl rfl rfl)
      | enqUnlockFailed => cases sound
      | enqPost => exact silent rfl rfl (handing.outside here rfl rfl _ _)
      | enqFatalUnlock => cases sound
      | enqFatalPost => cases sound
      | deqCall => exact silent rfl rfl (handing.outside here rfl rfl _ _)
      | deqWait _ => exact silent rfl rfl (handing.outside here rfl rfl _ _)
      | deqTimeout _ =>
          exact silent rfl rfl (handing.outside here rfl rfl _ _)
      | deqLock =>
          exact silent rfl rfl (handing.lock here rfl trivial rfl)
      | deqGetDataptr got =>
          have isTail := nonempty rfl
          rw [emDequeueGetDataptr, if_neg (Nat.not_le.mpr isTail)] at got
          obtain rfl := Option.some.inj got
          exact silent rfl rfl (handing.inside here rfl rfl ring rfl
            (accounted (handing.held.holder_eq here rfl)))
      | deqGetNull missing =>
          have hasBlock := nonempty rfl
          rw [emDequeueGetDataptr, if_neg (Nat.not_le.mpr hasBlock)] at missing
          cases missing
      | @deqCopy _ _ dataPtr =>
          obtain rfl : dataPtr = queue.blockPtr queue.tailPtr := aims
          refine handing.inside here rfl rfl ring trivial ?_
          change sent ++ [] = received ++ [queue.slot queue.tailPtr] ++
            queue.contents.tail
          rw [List.append_nil, List.append_assoc, List.singleton_append,
            ← ring.first (nonempty rfl)]
          exact accounted (handing.held.holder_eq here rfl)
      | deqIncrement called =>
          obtain ⟨kept, shrunk⟩ := ring.decremented (nonempty rfl) called
          refine silent rfl rfl (handing.inside here rfl rfl kept trivial ?_)
          rw [accounted (handing.held.holder_eq here rfl)]
          exact congrArg (received ++ ·) shrunk.symm
      | deqUnlock =>
          exact silent rfl rfl (handing.unlock here rfl rfl rfl)
      | deqPost => exact silent rfl rfl (handing.outside here rfl rfl _ _)
      | deqFatalPost => cases sound
      | deqFatalUnlock => cases sound

omit [Fintype Thread] [DecidableEq Thread] in
theorem start {queue : EmQueue} (ring : queue.Ring blockSize capacity)
    (empty : queue.contents = []) :
    Handing blockSize capacity [] [] (QueueThreads.start queue :
      QueueThreads Thread) := by
  refine ⟨Threads.HeldBy.start rfl, ring, fun _ => trivial, ?_, ?_⟩
  · intro _
    exact empty.symm
  · intro thread impossible
    cases impossible

theorem length_le {state : QueueThreads Thread}
    (balanced : state.Balanced capacity)
    (handing : Handing blockSize capacity sent received state) :
    received <+: sent ∧ sent.length ≤ received.length + capacity := by
  obtain ⟨⟨queue, holder⟩, places⟩ := state
  have waiting : ∃ blocks : List (List UInt8),
      sent = received ++ blocks ∧ blocks.length ≤ capacity := by
    have few : queue.contents.length ≤ capacity :=
      EmQueue.length_contents.trans_le handing.ring.used_le
    cases isHolder : holder with
    | none => exact ⟨_, handing.free isHolder, few⟩
    | some thread =>
        refine ⟨_, handing.accounted thread isHolder, ?_⟩
        have room : (places thread).enqueuing = true →
          queue.numUsed < queue.numMax := balanced.room
        have numMax : queue.numMax = capacity := handing.ring.numMax_eq
        dsimp only
        cases here : places thread with
        | enqCopied =>
            rw [here, numMax] at room
            change (queue.contents ++ [_]).length ≤ capacity
            rw [List.length_append, EmQueue.length_contents]
            exact room rfl
        | deqCopied =>
            exact (List.length_tail ▸ Nat.sub_le _ 1).trans few
        | _ => exact few
  obtain ⟨blocks, split, few⟩ := waiting
  subst split
  refine ⟨List.prefix_append received blocks, ?_⟩
  rw [List.length_append]
  exact Nat.add_le_add_left few _

end Handing

omit [DecidableEq Thread] in
theorem sent_snoc (labels : List (Label Thread)) (label : Label Thread) :
    sent (labels ++ [label]) =
      sent labels ++ (label.2.bind QueueEvent.sent?).toList := by
  rw [sent, List.filterMap_append]
  rfl

omit [DecidableEq Thread] in
theorem received_snoc (labels : List (Label Thread)) (label : Label Thread) :
    received (labels ++ [label]) =
      received labels ++ (label.2.bind QueueEvent.received?).toList := by
  rw [received, List.filterMap_append]
  rfl

/-- What is kept in every run on a new queue. -/
theorem handing_run [Fintype Thread] (memory : EmQueue)
    (blockSize blockNum : ℕ) (blockPtr : ℕ → ℕ) (rawdata : Bytes)
    (positive : 0 < blockNum) (accepted : blockNum ≤ semValueMax)
    {labels : List (Label Thread)} {state : QueueThreads Thread}
    (run : Run SeenStep
      (start
        (emQueueCreateWithMem memory blockSize blockNum blockPtr rawdata))
      labels state) :
    state.Balanced blockNum ∧
      Handing blockSize blockNum (sent labels) (received labels) state := by
  obtain ⟨numMax, semIn, semOut, numUsed⟩ := emQueueCreateWithMem_counters
    memory blockSize blockNum blockPtr rawdata accepted
  obtain ⟨ring, empty⟩ := @EmQueue.created_ring blockSize blockNum memory
    blockPtr rawdata positive
  apply run.history_invariant (fun labels state =>
    state.Balanced blockNum ∧
      Handing blockSize blockNum (sent labels) (received labels) state)
  · exact ⟨start_balanced numMax (congrArg EmSem.count semIn)
      (congrArg EmSem.count semOut) numUsed, Handing.start ring empty⟩
  · intro labels before label after ⟨balanced, handing⟩ taken
    rw [sent_snoc, received_snoc]
    exact ⟨balanced.step taken.1, handing.step balanced taken⟩

end QueueThreads

/-- However threads take turns on a queue whose total size is an `int`, the
blocks that the receivers get are the first ones that the senders have put in,
in this order, and the queue never holds more than it was made for.  What a
thread has seen are whole calls, up to the one it is in: 0 stands for exactly
one block handed over, and any other code for none. -/
theorem queue_hands_on {Thread : Type u} [DecidableEq Thread]
    [Fintype Thread] (memory : EmQueue) (blockSize blockNum : ℕ)
    (blockPtr : ℕ → ℕ) (rawdata : Bytes) (positive : 0 < blockNum)
    (accepted : blockNum ≤ semValueMax)
    (_total : blockSize * blockNum ≤ intMax)
    {labels : List (QueueThreads.Label Thread)} {state : QueueThreads Thread}
    (run : Run QueueThreads.SeenStep
      (QueueThreads.start
        (emQueueCreateWithMem memory blockSize blockNum blockPtr rawdata))
      labels state) :
    QueueThreads.received labels <+: QueueThreads.sent labels ∧
      (QueueThreads.sent labels).length ≤
        (QueueThreads.received labels).length + blockNum ∧
      ∀ thread,
        (state.place thread).Follows (QueueThreads.seenBy thread labels) := by
  obtain ⟨balanced, handing⟩ := QueueThreads.handing_run memory blockSize
    blockNum blockPtr rawdata positive accepted run
  obtain ⟨inOrder, bounded⟩ := handing.length_le balanced
  exact ⟨inOrder, bounded, QueueThreads.follows_run run⟩

/-- The receiver has begun its call before the block is put in. -/
theorem queue_hands_on_one :
    ∃ (labels : List (QueueThreads.Label (Fin 2)))
      (state : QueueThreads (Fin 2)),
      Run QueueThreads.SeenStep
          (QueueThreads.start
            (emQueueCreateWithMem default 1 1 default default))
          labels state ∧
        QueueThreads.received labels = [[7]] ∧
        QueueThreads.received labels <+: QueueThreads.sent labels := by
  have run : ∃ state : QueueThreads (Fin 2), Run QueueThreads.SeenStep
      (QueueThreads.start (emQueueCreateWithMem default 1 1 default default))
      [((1, .call), none), ((0, .call), none), ((0, .wait), none),
        ((0, .lock), none), ((0, .getDataptr), none),
        ((0, .copy), some (.sent [7])), ((0, .increment), none),
        ((0, .unlock), none), ((0, .post), some (.enqueued 0)),
        ((1, .wait), none), ((1, .lock), none), ((1, .getDataptr), none),
        ((1, .copy), some (.received [7]))] state :=
    ⟨_, .cons ⟨.move (@QueueProgram.deqCall _ _ _ emNoTimeout), rfl⟩
      (.cons ⟨.move (@QueueProgram.enqCall _ _ _ (fun _ => 7) emNoTimeout),
        rfl⟩
      (.cons ⟨.move (@QueueProgram.enqWait _ _ _ _ _ _ ⟨0⟩ rfl), rfl⟩
      (.cons ⟨.move .enqLock, rfl⟩
      (.cons ⟨.move (@QueueProgram.enqGetDataptr _ _ _ _ _ 0 rfl), rfl⟩
      (.cons ⟨.move .enqCopy, rfl⟩
      (.cons ⟨.move (.enqIncrement rfl), rfl⟩
      (.cons ⟨.move .enqUnlock, rfl⟩
      (.cons ⟨.move .enqPost, rfl⟩
      (.cons ⟨.move (@QueueProgram.deqWait _ _ _ _ _ ⟨0⟩ rfl), rfl⟩
      (.cons ⟨.move .deqLock, rfl⟩
      (.cons ⟨.move (@QueueProgram.deqGetDataptr _ _ _ _ 0 rfl), rfl⟩
      (.cons ⟨.move .deqCopy, rfl⟩ .nil))))))))))))⟩
  obtain ⟨state, run⟩ := run
  exact ⟨_, state, run, rfl,
    (queue_hands_on default 1 1 default default (by decide) (by decide)
      (by decide) run).1⟩

end EmbeddedMiddle
