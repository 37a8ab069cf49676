import EmbeddedMiddle.Queue
import EmbeddedMiddle.Foundation.Interleaving

/-!
# Threads on one message queue

`em_enqueue` and `em_dequeue` as programs of any number of threads: the two
semaphores, the mutex and the critical sections in single steps.
-/

namespace EmbeddedMiddle

open Foundation

universe u

/-- The queue and the holder of its mutex. -/
structure QueueShared (Thread : Type u) where
  queue : EmQueue
  holder : Option Thread

/-- Where a thread is.  The fatal places belong to the branches that the source
calls fatal. -/
inductive QueuePlace where
  | idle
  | enqWaiting (blockData : Bytes) (timeoutMs : ℤ)
  | enqWaited (blockData : Bytes)
  | enqLocked (blockData : Bytes)
  | enqCopying (blockData : Bytes) (tmp : ℕ)
  | enqCopied
  | enqIncremented
  | enqUnlocked
  | enqFatal
  | enqFatalUnlocked
  | enqFatalIncrement
  | deqWaiting (timeoutMs : ℤ)
  | deqWaited
  | deqLocked
  | deqCopying (dataPtr : ℕ)
  | deqCopied
  | deqIncremented
  | deqUnlocked
  | deqFatal
  | deqFatalPosted

inductive QueueAction where
  | call
  | wait
  | timeout
  | lock
  | getDataptr
  | copy
  | increment
  | unlock
  | post

/-- One step of a thread inside `em_enqueue` or `em_dequeue`. -/
inductive QueueProgram {Thread : Type u} (thread : Thread) :
    QueueShared Thread → QueuePlace → QueueAction →
      QueueShared Thread → QueuePlace → Prop where
  | enqCall {shared} {blockData : Bytes} {timeoutMs : ℤ} :
      QueueProgram thread shared .idle .call shared
        (.enqWaiting blockData timeoutMs)
  | enqWait {queue holder blockData timeoutMs sem} :
      emSemWait queue.semIn timeoutMs = some (emSuccess, sem) →
      QueueProgram thread ⟨queue, holder⟩ (.enqWaiting blockData timeoutMs)
        .wait ⟨{ queue with semIn := sem }, holder⟩ (.enqWaited blockData)
  | enqTimeout {shared blockData timeoutMs} :
      timeoutMs ≠ emNoTimeout →
      QueueProgram thread shared (.enqWaiting blockData timeoutMs)
        .timeout shared .idle
  | enqLock {queue blockData} :
      QueueProgram thread ⟨queue, none⟩ (.enqWaited blockData)
        .lock ⟨queue, some thread⟩ (.enqLocked blockData)
  | enqGetDataptr {queue holder blockData tmp} :
      emEnqueueGetDataptr queue = some tmp →
      QueueProgram thread ⟨queue, holder⟩ (.enqLocked blockData)
        .getDataptr ⟨queue, holder⟩ (.enqCopying blockData tmp)
  | enqGetNull {queue holder blockData} :
      emEnqueueGetDataptr queue = none →
      QueueProgram thread ⟨queue, holder⟩ (.enqLocked blockData)
        .getDataptr ⟨queue, holder⟩ .enqFatal
  | enqCopy {queue holder blockData tmp} :
      QueueProgram thread ⟨queue, holder⟩ (.enqCopying blockData tmp) .copy
        ⟨{ queue with
            rawdata := queue.rawdata.copy tmp blockData queue.blockSize },
          holder⟩ .enqCopied
  | enqIncrement {queue holder after} :
      emEnqueueIncrement queue = (0, after) →
      QueueProgram thread ⟨queue, holder⟩ .enqCopied
        .increment ⟨after, holder⟩ .enqIncremented
  | enqIncrementFailed {queue holder ret after} :
      emEnqueueIncrement queue = (ret, after) → ret ≠ 0 →
      QueueProgram thread ⟨queue, holder⟩ .enqCopied
        .increment ⟨after, holder⟩ .enqFatalIncrement
  | enqUnlock {queue holder} :
      QueueProgram thread ⟨queue, holder⟩ .enqIncremented
        .unlock ⟨queue, none⟩ .enqUnlocked
  -- After the message about the increment the function goes on.
  | enqUnlockFailed {queue holder} :
      QueueProgram thread ⟨queue, holder⟩ .enqFatalIncrement
        .unlock ⟨queue, none⟩ .enqUnlocked
  | enqPost {queue holder} :
      QueueProgram thread ⟨queue, holder⟩ .enqUnlocked .post
        ⟨{ queue with semOut := emSemPost queue.semOut }, holder⟩ .idle
  | enqFatalUnlock {queue holder} :
      QueueProgram thread ⟨queue, holder⟩ .enqFatal
        .unlock ⟨queue, none⟩ .enqFatalUnlocked
  | enqFatalPost {queue holder} :
      QueueProgram thread ⟨queue, holder⟩ .enqFatalUnlocked .post
        ⟨{ queue with semIn := emSemPost queue.semIn }, holder⟩ .idle
  | deqCall {shared} {timeoutMs : ℤ} :
      QueueProgram thread shared .idle .call shared (.deqWaiting timeoutMs)
  | deqWait {queue holder timeoutMs sem} :
      emSemWait queue.semOut timeoutMs = some (emSuccess, sem) →
      QueueProgram thread ⟨queue, holder⟩ (.deqWaiting timeoutMs)
        .wait ⟨{ queue with semOut := sem }, holder⟩ .deqWaited
  | deqTimeout {shared timeoutMs} :
      timeoutMs ≠ emNoTimeout →
      QueueProgram thread shared (.deqWaiting timeoutMs) .timeout shared .idle
  | deqLock {queue} :
      QueueProgram thread ⟨queue, none⟩ .deqWaited
        .lock ⟨queue, some thread⟩ .deqLocked
  | deqGetDataptr {queue holder dataPtr} :
      emDequeueGetDataptr queue = some dataPtr →
      QueueProgram thread ⟨queue, holder⟩ .deqLocked
        .getDataptr ⟨queue, holder⟩ (.deqCopying dataPtr)
  | deqGetNull {queue holder} :
      emDequeueGetDataptr queue = none →
      QueueProgram thread ⟨queue, holder⟩ .deqLocked
        .getDataptr ⟨queue, holder⟩ .deqFatal
  | deqCopy {queue holder dataPtr} :
      QueueProgram thread ⟨queue, holder⟩ (.deqCopying dataPtr)
        .copy ⟨queue, holder⟩ .deqCopied
  -- The return value is not looked at.
  | deqIncrement {queue holder ret after} :
      emDequeueIncrement queue = (ret, after) →
      QueueProgram thread ⟨queue, holder⟩ .deqCopied
        .increment ⟨after, holder⟩ .deqIncremented
  | deqUnlock {queue holder} :
      QueueProgram thread ⟨queue, holder⟩ .deqIncremented
        .unlock ⟨queue, none⟩ .deqUnlocked
  | deqPost {queue holder} :
      QueueProgram thread ⟨queue, holder⟩ .deqUnlocked .post
        ⟨{ queue with semIn := emSemPost queue.semIn }, holder⟩ .idle
  | deqFatalPost {queue holder} :
      QueueProgram thread ⟨queue, holder⟩ .deqFatal .post
        ⟨{ queue with semOut := emSemPost queue.semOut }, holder⟩
        .deqFatalPosted
  | deqFatalUnlock {queue holder} :
      QueueProgram thread ⟨queue, holder⟩ .deqFatalPosted
        .unlock ⟨queue, none⟩ .idle

namespace QueuePlace

/-- Enqueuers past their wait but before the increment. -/
def enqueuing : QueuePlace → Bool
  | enqWaited _ | enqLocked _ | enqCopying _ _ | enqCopied
  | enqFatal | enqFatalUnlocked => true
  | _ => false

/-- Enqueuers past the increment but before their post. -/
def enqueued : QueuePlace → Bool
  | enqIncremented | enqUnlocked | enqFatalIncrement => true
  | _ => false

/-- Dequeuers past their wait but before the decrement. -/
def dequeuing : QueuePlace → Bool
  | deqWaited | deqLocked | deqCopying _ | deqCopied | deqFatal => true
  | _ => false

/-- Dequeuers past the decrement but before their post. -/
def dequeued : QueuePlace → Bool
  | deqIncremented | deqUnlocked => true
  | _ => false

def fatal : QueuePlace → Bool
  | enqFatal | enqFatalUnlocked | enqFatalIncrement
  | deqFatal | deqFatalPosted => true
  | _ => false

end QueuePlace

abbrev QueueThreads (Thread : Type u) :=
  Threads Thread (QueueShared Thread) QueuePlace

namespace QueueThreads

variable {Thread : Type u}

/-- Nobody has called yet. -/
def start (queue : EmQueue) : QueueThreads Thread :=
  ⟨⟨queue, none⟩, fun _ => .idle⟩

variable [Fintype Thread]

/-- No token of the two semaphores is lost or gained. -/
structure Balanced (state : QueueThreads Thread) (capacity : ℕ) : Prop where
  numMax_eq : state.shared.queue.numMax = capacity
  spaces : state.shared.queue.semIn.count + state.shared.queue.numUsed +
    Threads.count QueuePlace.enqueuing state.place +
      Threads.count QueuePlace.dequeued state.place = capacity
  blocks : state.shared.queue.semOut.count +
    Threads.count QueuePlace.enqueued state.place +
      Threads.count QueuePlace.dequeuing state.place =
        state.shared.queue.numUsed
  sound : ∀ thread, (state.place thread).fatal = false

theorem start_balanced {queue : EmQueue} {capacity : ℕ}
    (numMax : queue.numMax = capacity) (semIn : queue.semIn.count = capacity)
    (semOut : queue.semOut.count = 0) (numUsed : queue.numUsed = 0) :
    Balanced (start queue : QueueThreads Thread) capacity where
  numMax_eq := numMax
  spaces := by
    simp only [start]
    rw [Threads.count_const rfl, Threads.count_const rfl, semIn, numUsed]
    rfl
  blocks := by
    simp only [start]
    rw [Threads.count_const rfl, Threads.count_const rfl, semOut, numUsed]
  sound := fun _ => rfl

variable [DecidableEq Thread]

abbrev Step : QueueThreads Thread → Thread × QueueAction →
    QueueThreads Thread → Prop :=
  Threads.Step QueueProgram

namespace Balanced

variable {state before after : QueueThreads Thread} {capacity : ℕ}

/-- An enqueuer past its wait finds room. -/
theorem room (balanced : state.Balanced capacity) {thread : Thread}
    (there : (state.place thread).enqueuing = true) :
    state.shared.queue.numUsed < state.shared.queue.numMax := by
  have spaces := balanced.spaces
  have counted :=
    Threads.count_eq QueuePlace.enqueuing state.place thread
  rw [there, Bool.toNat_true] at counted
  rw [balanced.numMax_eq]
  omega

/-- A dequeuer past its wait finds a block. -/
theorem nonempty (balanced : state.Balanced capacity) {thread : Thread}
    (there : (state.place thread).dequeuing = true) :
    0 < state.shared.queue.numUsed := by
  have blocks := balanced.blocks
  have counted :=
    Threads.count_eq QueuePlace.dequeuing state.place thread
  rw [there, Bool.toNat_true] at counted
  omega

/-- A step that moves tokens only between the semaphores, `num_used` and its
own place keeps the balance. -/
theorem move (balanced : state.Balanced capacity) {thread : Thread}
    {shared : QueueShared Thread} {old new : QueuePlace}
    (here : state.place thread = old)
    (numMax : shared.queue.numMax = state.shared.queue.numMax)
    (spaces : shared.queue.semIn.count + shared.queue.numUsed +
        new.enqueuing.toNat + new.dequeued.toNat =
      state.shared.queue.semIn.count + state.shared.queue.numUsed +
        old.enqueuing.toNat + old.dequeued.toNat)
    (blocks : shared.queue.semOut.count + new.enqueued.toNat +
        new.dequeuing.toNat + state.shared.queue.numUsed =
      state.shared.queue.semOut.count + old.enqueued.toNat +
        old.dequeuing.toNat + shared.queue.numUsed)
    (sound : new.fatal = false) :
    Balanced ⟨shared, Function.update state.place thread new⟩ capacity := by
  subst here
  have oldSpaces := balanced.spaces
  have oldBlocks := balanced.blocks
  rw [Threads.count_eq _ state.place thread,
    Threads.count_eq QueuePlace.dequeued state.place thread] at oldSpaces
  rw [Threads.count_eq _ state.place thread,
    Threads.count_eq QueuePlace.dequeuing state.place thread] at oldBlocks
  constructor
  · exact numMax.trans balanced.numMax_eq
  · rw [Threads.count_update, Threads.count_update]
    simp only
    omega
  · rw [Threads.count_update, Threads.count_update]
    simp only
    omega
  · exact (Function.forall_update_iff state.place
      fun _ place => place.fatal = false).mpr
        ⟨sound, fun other _ => balanced.sound other⟩

theorem step (balanced : before.Balanced capacity)
    {label : Thread × QueueAction} (taken : before.Step label after) :
    after.Balanced capacity := by
  cases taken with
  | move taken =>
      rename_i thread action shared place
      obtain ⟨start, places⟩ := before
      have room : (places thread).enqueuing = true → _ := balanced.room
      have nonempty : (places thread).dequeuing = true → _ :=
        balanced.nonempty
      have sound := balanced.sound thread
      simp only at taken room nonempty sound
      generalize here : places thread = old at taken room nonempty sound
      cases taken with
      | enqCall => exact balanced.move here rfl rfl rfl rfl
      | enqWait waited =>
          have token := emSemWait_success waited
          refine balanced.move here rfl ?_ rfl rfl
          simp only [QueuePlace.enqueuing, QueuePlace.dequeued, Bool.toNat_true,
            Bool.toNat_false]
          omega
      | enqTimeout limited => exact balanced.move here rfl rfl rfl rfl
      | enqLock => exact balanced.move here rfl rfl rfl rfl
      | enqGetDataptr got => exact balanced.move here rfl rfl rfl rfl
      | enqGetNull missing =>
          have hasRoom := room rfl
          rw [emEnqueueGetDataptr, if_neg (Nat.not_le.mpr hasRoom)] at missing
          cases missing
      | enqCopy => exact balanced.move here rfl rfl rfl rfl
      | enqIncrement called =>
          obtain ⟨used, numMax, semIn, semOut⟩ :=
            emEnqueueIncrement_success called
          refine balanced.move here numMax ?_ ?_ rfl
          · simp only [QueuePlace.enqueuing, QueuePlace.dequeued,
              Bool.toNat_true, Bool.toNat_false, used, semIn]
            omega
          · simp only [QueuePlace.enqueued, QueuePlace.dequeuing,
              Bool.toNat_true, Bool.toNat_false, used, semOut]
            omega
      | enqIncrementFailed called failed =>
          exact absurd (emEnqueueIncrement_room (room rfl) called) failed
      | enqUnlock => exact balanced.move here rfl rfl rfl rfl
      | enqUnlockFailed => cases sound
      | enqPost =>
          refine balanced.move here rfl rfl ?_ rfl
          simp only [QueuePlace.enqueued, QueuePlace.dequeuing, emSemPost,
            Bool.toNat_true, Bool.toNat_false]
      | enqFatalUnlock => cases sound
      | enqFatalPost => cases sound
      | deqCall => exact balanced.move here rfl rfl rfl rfl
      | deqWait waited =>
          have token := emSemWait_success waited
          refine balanced.move here rfl rfl ?_ rfl
          simp only [QueuePlace.enqueued, QueuePlace.dequeuing,
            Bool.toNat_true, Bool.toNat_false]
          omega
      | deqTimeout limited => exact balanced.move here rfl rfl rfl rfl
      | deqLock => exact balanced.move here rfl rfl rfl rfl
      | deqGetDataptr got => exact balanced.move here rfl rfl rfl rfl
      | deqGetNull missing =>
          have hasBlock := nonempty rfl
          rw [emDequeueGetDataptr, if_neg (Nat.not_le.mpr hasBlock)] at missing
          cases missing
      | deqCopy => exact balanced.move here rfl rfl rfl rfl
      | deqIncrement called =>
          obtain ⟨used, numMax, semIn, semOut⟩ :=
            emDequeueIncrement_nonempty (nonempty rfl) called
          simp only at used
          refine balanced.move here numMax ?_ ?_ rfl
          · simp only [QueuePlace.enqueuing, QueuePlace.dequeued,
              Bool.toNat_true, Bool.toNat_false, semIn]
            omega
          · simp only [QueuePlace.enqueued, QueuePlace.dequeuing,
              Bool.toNat_true, Bool.toNat_false, semOut]
            omega
      | deqUnlock => exact balanced.move here rfl rfl rfl rfl
      | deqPost =>
          refine balanced.move here rfl ?_ rfl rfl
          simp only [QueuePlace.enqueuing, QueuePlace.dequeued, emSemPost,
            Bool.toNat_true, Bool.toNat_false]
          omega
      | deqFatalPost => cases sound
      | deqFatalUnlock => cases sound

end Balanced

end QueueThreads

/-- Beginning a call and giving up waiting touch nothing that is shared. -/
theorem QueueThreads.shared_unchanged {Thread : Type u} [DecidableEq Thread]
    {before after : QueueThreads Thread} {thread : Thread}
    {action : QueueAction}
    (outside : action = .call ∨ action = .timeout)
    (taken : before.Step (thread, action) after) :
    after.shared = before.shared ∧
      ∀ other, other ≠ thread → after.place other = before.place other := by
  refine ⟨?_, fun other different => taken.place_of_ne different⟩
  cases taken with
  | move taken =>
      obtain ⟨start, places⟩ := before
      simp only at taken
      generalize places thread = old at taken
      rcases outside with rfl | rfl
      · cases taken <;> rfl
      · cases taken <;> rfl

/-- In every state that threads can reach the tokens of both semaphores are
accounted for; so the fatal branches are never taken, and a call that times out
leaves the queue as it was. -/
theorem queue_tokens_balanced {Thread : Type u} [DecidableEq Thread]
    [Fintype Thread] (memory : EmQueue) (blockSize blockNum : ℕ)
    (blockPtr : ℕ → ℕ) (rawdata : Bytes) (accepted : blockNum ≤ semValueMax)
    {labels : List (Thread × QueueAction)} {state : QueueThreads Thread}
    (run : Run QueueThreads.Step
      (QueueThreads.start
        (emQueueCreateWithMem memory blockSize blockNum blockPtr rawdata))
      labels state) :
    state.shared.queue.numMax = blockNum ∧
      state.shared.queue.semIn.count + state.shared.queue.numUsed +
        Threads.count QueuePlace.enqueuing state.place +
          Threads.count QueuePlace.dequeued state.place =
            state.shared.queue.numMax ∧
      state.shared.queue.semOut.count +
        Threads.count QueuePlace.enqueued state.place +
          Threads.count QueuePlace.dequeuing state.place =
            state.shared.queue.numUsed ∧
      (∀ thread, (state.place thread).fatal = false) ∧
      ∀ thread action after, action = .call ∨ action = .timeout →
        QueueThreads.Step state (thread, action) after →
          after.shared = state.shared ∧
            ∀ other, other ≠ thread →
              after.place other = state.place other := by
  obtain ⟨numMax, semIn, semOut, numUsed⟩ := emQueueCreateWithMem_counters
    memory blockSize blockNum blockPtr rawdata accepted
  have balanced := run.invariant (fun state => state.Balanced blockNum)
    (QueueThreads.start_balanced numMax (congrArg EmSem.count semIn)
      (congrArg EmSem.count semOut) numUsed)
    (fun _ _ _ balanced taken => QueueThreads.Balanced.step balanced taken)
  refine ⟨balanced.numMax_eq, ?_, balanced.blocks, balanced.sound, ?_⟩
  · rw [balanced.numMax_eq]
    exact balanced.spaces
  · intro thread action after outside taken
    exact QueueThreads.shared_unchanged outside taken

/-- One of two threads is past its wait. -/
theorem queue_tokens_balanced_two :
    ∃ state : QueueThreads (Fin 2), Run QueueThreads.Step
        (QueueThreads.start (emQueueCreateWithMem default 1 2 default default))
        [(0, .call), (0, .wait)] state ∧
      state.shared.queue.semIn.count + state.shared.queue.numUsed +
        Threads.count QueuePlace.enqueuing state.place +
          Threads.count QueuePlace.dequeued state.place = 2 := by
  have run : ∃ state : QueueThreads (Fin 2), Run QueueThreads.Step
      (QueueThreads.start (emQueueCreateWithMem default 1 2 default default))
      [(0, .call), (0, .wait)] state :=
    ⟨_, .cons (.move (@QueueProgram.enqCall _ _ _ default emNoTimeout))
      (.cons (.move (@QueueProgram.enqWait _ _ _ _ _ _ ⟨1⟩ rfl)) .nil)⟩
  obtain ⟨state, run⟩ := run
  obtain ⟨numMax, tokens, -⟩ := queue_tokens_balanced default 1 2 default
    default (by decide) run
  exact ⟨state, run, tokens.trans numMax⟩

end EmbeddedMiddle
