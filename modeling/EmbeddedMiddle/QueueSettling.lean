import EmbeddedMiddle.QueueThreads
import EmbeddedMiddle.Foundation.LockOwners
import EmbeddedMiddle.Foundation.Settling

/-!
# Calls on a queue come to an end

A call of `em_enqueue` or `em_dequeue` has seven steps at most, and whoever
has passed its semaphore gets to the end.  When nobody can go on, the only
calls that have not returned wait at a queue that is full, or at one that is
empty: no wake-up is lost.
-/

namespace EmbeddedMiddle

open Foundation

universe u

namespace QueuePlace

/-- The steps to the end of a call. -/
def rank : QueuePlace → ℕ
  | idle => 0
  | enqWaiting _ _ | deqWaiting _ => 7
  | enqWaited _ | deqWaited => 6
  | enqLocked _ | deqLocked => 5
  | enqCopying _ _ | deqCopying _ => 4
  | enqCopied | deqCopied => 3
  | enqIncremented | deqIncremented => 2
  | enqFatal | enqFatalIncrement | deqFatal => 2
  | enqUnlocked | deqUnlocked => 1
  | enqFatalUnlocked | deqFatalPosted => 1

/-- A call has not returned. -/
def active : QueuePlace → Bool
  | idle => false
  | _ => true

/-- In no call, or at the semaphore of one. -/
def resting : QueuePlace → Bool
  | idle | enqWaiting _ _ | deqWaiting _ => true
  | _ => false

/-- The mutex is held. -/
def locked : QueuePlace → Bool
  | enqLocked _ | enqCopying _ _ | enqCopied | enqIncremented
  | enqFatal | enqFatalIncrement | deqLocked | deqCopying _ | deqCopied
  | deqIncremented | deqFatal | deqFatalPosted => true
  | _ => false

/-- The thread is in no call, or in one that waits for the others. -/
def Settled (queue : EmQueue) : QueuePlace → Prop
  | idle => True
  | enqWaiting _ _ => queue.numUsed = queue.numMax
  | deqWaiting _ => queue.numUsed = 0
  | _ => False

/-- Who rests has no token. -/
theorem no_token {place : QueuePlace} (rests : place.resting = true) :
    (place.enqueuing = false ∧ place.dequeued = false) ∧
      place.enqueued = false ∧ place.dequeuing = false := by
  cases place with
  | idle => decide
  | enqWaiting _ _ => exact ⟨⟨rfl, rfl⟩, rfl, rfl⟩
  | deqWaiting _ => exact ⟨⟨rfl, rfl⟩, rfl, rfl⟩
  | _ => cases rests

theorem rank_le (place : QueuePlace) : place.rank ≤ 7 := by
  cases place <;> simp [rank]

theorem rank_of_idle {place : QueuePlace} (returned : place.active = false) :
    place.rank = 0 := by
  cases place with
  | idle => rfl
  | _ => cases returned

end QueuePlace

namespace QueueThreads

variable {Thread : Type u}

/-- Every step inside a call brings it nearer to its end. -/
theorem lowers (thread : Thread) (shared : QueueShared Thread)
    (old : QueuePlace) (action : QueueAction) (next : QueueShared Thread)
    (new : QueuePlace)
    (taken : QueueProgram thread shared old action next new)
    (inside : action ≠ .call) : new.rank < old.rank := by
  cases taken with
  | enqCall => exact absurd rfl inside
  | deqCall => exact absurd rfl inside
  | _ => simp [QueuePlace.rank]

/-! ## Who can go on -/

/-- The holder of the mutex can always go on. -/
theorem inside_moves (thread : Thread) (shared : QueueShared Thread)
    {place : QueuePlace} (inside : place.locked = true) :
    ∃ action next new, (action ≠ .call ∧ action ≠ .timeout) ∧
      QueueProgram thread shared place action next new := by
  obtain ⟨queue, holder⟩ := shared
  cases place with
  | enqLocked blockData =>
      cases got : emEnqueueGetDataptr queue with
      | none => exact ⟨_, _, _, by simp, .enqGetNull got⟩
      | some tmp => exact ⟨_, _, _, by simp, .enqGetDataptr got⟩
  | enqCopying blockData tmp => exact ⟨_, _, _, by simp, .enqCopy⟩
  | enqCopied =>
      by_cases success : (emEnqueueIncrement queue).1 = 0
      · exact ⟨_, _, _, by simp, .enqIncrement (Prod.ext success rfl)⟩
      · exact ⟨_, _, _, by simp, .enqIncrementFailed rfl success⟩
  | enqIncremented => exact ⟨_, _, _, by simp, .enqUnlock⟩
  | enqFatal => exact ⟨_, _, _, by simp, .enqFatalUnlock⟩
  | enqFatalIncrement => exact ⟨_, _, _, by simp, .enqUnlockFailed⟩
  | deqLocked =>
      cases got : emDequeueGetDataptr queue with
      | none => exact ⟨_, _, _, by simp, .deqGetNull got⟩
      | some dataPtr => exact ⟨_, _, _, by simp, .deqGetDataptr got⟩
  | deqCopying dataPtr => exact ⟨_, _, _, by simp, .deqCopy⟩
  | deqCopied => exact ⟨_, _, _, by simp, .deqIncrement rfl⟩
  | deqIncremented => exact ⟨_, _, _, by simp, .deqUnlock⟩
  | deqFatal => exact ⟨_, _, _, by simp, .deqFatalPost⟩
  | deqFatalPosted => exact ⟨_, _, _, by simp, .deqFatalUnlock⟩
  | _ => cases inside

/-- With the mutex free only callers at a semaphore can be held up. -/
theorem outside_moves (thread : Thread) (queue : EmQueue)
    {place : QueuePlace} (outside : place.locked = false)
    (called : place.resting = false) :
    ∃ action next new, (action ≠ .call ∧ action ≠ .timeout) ∧
      QueueProgram thread ⟨queue, none⟩ place action next new := by
  cases place with
  | enqWaited blockData => exact ⟨_, _, _, by simp, .enqLock⟩
  | enqUnlocked => exact ⟨_, _, _, by simp, .enqPost⟩
  | enqFatalUnlocked => exact ⟨_, _, _, by simp, .enqFatalPost⟩
  | deqWaited => exact ⟨_, _, _, by simp, .deqLock⟩
  | deqUnlocked => exact ⟨_, _, _, by simp, .deqPost⟩
  | idle => cases called
  | enqWaiting _ _ => cases called
  | deqWaiting _ => cases called
  | _ => cases outside

/-- A token lets a caller pass the semaphore. -/
theorem waited_of_count {sem : EmSem} (token : 0 < sem.count)
    (timeoutMs : ℤ) :
    emSemWait sem timeoutMs = some (emSuccess, ⟨sem.count - 1⟩) := by
  rw [emSemWait, if_pos token]

/-- Nobody can go on but by a new call or by giving up. -/
abbrev Stuck (state : QueueThreads Thread) : Prop :=
  Threads.Stuck QueueProgram
    (fun action => action ≠ .call ∧ action ≠ .timeout) state

/-- The mutex is free, and all calls that have not returned wait with
reason. -/
def Settled (state : QueueThreads Thread) : Prop :=
  state.shared.holder = none ∧
    ∀ thread, (state.place thread).Settled state.shared.queue

theorem Stuck.resting {state : QueueThreads Thread} (stuck : state.Stuck)
    (held : Threads.HeldBy QueuePlace.locked state.shared.holder
      state.place) :
    state.shared.holder = none ∧
      ∀ thread, (state.place thread).resting = true := by
  apply Threads.Stuck.resting stuck held
  · intro thread inside
    exact inside_moves thread state.shared inside
  · intro free thread outside called
    obtain ⟨action, next, new, counted, moved⟩ :=
      outside_moves thread state.shared.queue outside called
    rw [← free] at moved
    exact ⟨action, next, new, counted, moved⟩

variable [Fintype Thread]

theorem Balanced.settled {state : QueueThreads Thread} {capacity : ℕ}
    (balanced : state.Balanced capacity)
    (held : Threads.HeldBy QueuePlace.locked state.shared.holder state.place)
    (stuck : state.Stuck) : Settled state := by
  obtain ⟨free, resting⟩ := stuck.resting held
  have nobody : ∀ kind : QueuePlace → Bool,
      (∀ place, place.resting = true → kind place = false) →
        Threads.count kind state.place = 0 :=
    fun _ outside => Threads.count_eq_zero
      fun thread => outside _ (resting thread)
  -- All tokens are in the semaphores or in the queue.
  have spaces := balanced.spaces
  have blocks := balanced.blocks
  have numMax := balanced.numMax_eq
  rw [nobody _ (fun _ rests => (QueuePlace.no_token rests).1.1),
    nobody _ (fun _ rests => (QueuePlace.no_token rests).1.2)] at spaces
  rw [nobody _ (fun _ rests => (QueuePlace.no_token rests).2.1),
    nobody _ (fun _ rests => (QueuePlace.no_token rests).2.2)] at blocks
  refine ⟨free, ?_⟩
  intro thread
  have here := resting thread
  obtain ⟨⟨queue, holder⟩, places⟩ := state
  have cannot : ∀ next new,
      ¬ QueueProgram thread ⟨queue, holder⟩ (places thread) .wait next new :=
    fun next new => stuck thread .wait next new (by simp)
  dsimp only at spaces blocks numMax here ⊢
  cases isAt : places thread with
  | idle => trivial
  | enqWaiting blockData timeoutMs =>
      have noToken : ¬ 0 < queue.semIn.count := by
        intro token
        rw [isAt] at cannot
        exact cannot _ _ (.enqWait (waited_of_count token timeoutMs))
      change queue.numUsed = queue.numMax
      omega
  | deqWaiting timeoutMs =>
      have noToken : ¬ 0 < queue.semOut.count := by
        intro token
        rw [isAt] at cannot
        exact cannot _ _ (.deqWait (waited_of_count token timeoutMs))
      change queue.numUsed = 0
      omega
  | _ =>
      rw [isAt] at here
      cases here

variable [DecidableEq Thread]

omit [Fintype Thread] in
theorem held_step {before after : QueueThreads Thread}
    {label : Thread × QueueAction}
    (held : Threads.HeldBy QueuePlace.locked before.shared.holder before.place)
    (taken : before.Step label after) :
    Threads.HeldBy QueuePlace.locked after.shared.holder after.place := by
  obtain ⟨⟨queue, holder⟩, places⟩ := before
  cases taken with
  | move taken =>
      rename_i thread action shared place
      dsimp only at held taken
      generalize here : places thread = old at taken
      cases taken with
      | enqLock => exact held.acquire here rfl
      | deqLock => exact held.acquire here rfl
      | enqUnlock => exact held.release here rfl rfl
      | enqUnlockFailed => exact held.release here rfl rfl
      | enqFatalUnlock => exact held.release here rfl rfl
      | deqUnlock => exact held.release here rfl rfl
      | deqFatalUnlock => exact held.release here rfl rfl
      | _ => exact held.keep here rfl

end QueueThreads

/-- From every state that threads can reach, the calls in progress take seven
steps each at most.  When nobody can go on, all of them have returned but
those of `em_enqueue` that wait at a full queue and those of `em_dequeue` that
wait at an empty one; and such a state can be reached without a timeout. -/
theorem queue_calls_settle {Thread : Type u} [DecidableEq Thread]
    [Fintype Thread] (memory : EmQueue) (blockSize blockNum : ℕ)
    (blockPtr : ℕ → ℕ) (rawdata : Bytes) (accepted : blockNum ≤ semValueMax)
    {labels : List (Thread × QueueAction)} {state : QueueThreads Thread}
    (run : Run QueueThreads.Step
      (QueueThreads.start
        (emQueueCreateWithMem memory blockSize blockNum blockPtr rawdata))
      labels state) :
    (∀ further last, Run QueueThreads.Step state further last →
      (∀ label ∈ further, label.2 ≠ .call) →
        further.length ≤ 7 * Threads.count QueuePlace.active state.place) ∧
      (state.Stuck → QueueThreads.Settled state) ∧
      ∃ further last, Run QueueThreads.Step state further last ∧
        (∀ label ∈ further, label.2 ≠ .call ∧ label.2 ≠ .timeout) ∧
          QueueThreads.Settled last := by
  obtain ⟨numMax, semIn, semOut, numUsed⟩ := emQueueCreateWithMem_counters
    memory blockSize blockNum blockPtr rawdata accepted
  have initially : QueueThreads.Balanced
      (QueueThreads.start (emQueueCreateWithMem memory blockSize blockNum
        blockPtr rawdata) : QueueThreads Thread) blockNum :=
    QueueThreads.start_balanced numMax (congrArg EmSem.count semIn)
      (congrArg EmSem.count semOut) numUsed
  have kept : ∀ (before : QueueThreads Thread) label after,
      (before.Balanced blockNum ∧ Threads.HeldBy QueuePlace.locked
        before.shared.holder before.place) → before.Step label after →
      (after.Balanced blockNum ∧ Threads.HeldBy QueuePlace.locked
        after.shared.holder after.place) := by
    intro before label after ⟨balanced, held⟩ taken
    exact ⟨balanced.step taken, QueueThreads.held_step held taken⟩
  have reached := run.invariant _ ⟨initially, Threads.HeldBy.start rfl⟩ kept
  refine Threads.come_to_rest ?_ QueueThreads.lowers QueuePlace.rank_le
    (fun _ => QueuePlace.rank_of_idle) kept ?_ reached
  · intro action own
    exact own.1
  · intro last ⟨balanced, held⟩ stuck
    exact balanced.settled held stuck

/-- Two receivers wait, a sender has passed its semaphore. -/
theorem queue_calls_settle_three :
    ∃ state : QueueThreads (Fin 3), Run QueueThreads.Step
        (QueueThreads.start (emQueueCreateWithMem default 1 2 default default))
        [(0, .call), (1, .call), (2, .call), (2, .wait)] state ∧
      ∃ further last, Run QueueThreads.Step state further last ∧
        (∀ label ∈ further, label.2 ≠ .call ∧ label.2 ≠ .timeout) ∧
          QueueThreads.Settled last := by
  have run : ∃ state : QueueThreads (Fin 3), Run QueueThreads.Step
      (QueueThreads.start (emQueueCreateWithMem default 1 2 default default))
      [(0, .call), (1, .call), (2, .call), (2, .wait)] state :=
    ⟨_, .cons (.move (@QueueProgram.deqCall _ _ _ emNoTimeout))
      (.cons (.move (@QueueProgram.deqCall _ _ _ 10))
      (.cons (.move (@QueueProgram.enqCall _ _ _ default emNoTimeout))
      (.cons (.move (@QueueProgram.enqWait _ _ _ _ _ _ ⟨1⟩ rfl)) .nil)))⟩
  obtain ⟨state, run⟩ := run
  exact ⟨state, run,
    (queue_calls_settle default 1 2 default default (by decide) run).2.2⟩

end EmbeddedMiddle
