import EmbeddedMiddle.EventFlag
import EmbeddedMiddle.Foundation.Settling

/-!
# Event flags on a condition variable

The functions of the event flags with their mutex and their condition variable
in single steps: a waiting thread gives the mutex back and falls asleep at
once, a broadcast wakes all sleepers, and who wakes up takes the mutex again
before it looks at the flags.
-/

namespace EmbeddedMiddle

open Foundation

universe u

/-- The flags, the holder of the mutex and who sleeps at the condition
variable. -/
structure FlagShared (Thread : Type u) where
  ef : EmEventflg
  holder : Option Thread
  asleep : Thread → Bool

/-- Where a thread is; outside it has the return value of its last call. -/
inductive FlagPlace where
  | outside (ret : ℤ)
  | waitCalled (wait : EventWait)
  | waitTesting (wait : EventWait)
  | waitAsleep (wait : EventWait)
  | waitTimedOut (wait : EventWait)
  | waitEnding (wait : EventWait) (ret : ℤ)
  | resetCalled (flags : BitVec 32)
  | resetLocked (flags : BitVec 32)
  | resetEnding
  | setCalled (flags : BitVec 32)
  | setLocked (flags : BitVec 32)
  | setStored
  | setEnding
  | clearCalled
  | clearLocked
  | clearEnding

inductive FlagAction where
  | wait (wait : EventWait)
  | set (flags : BitVec 32)
  | clear
  | lock
  | leave
  | sleep
  | fail
  | wake
  | timeout
  | store
  | broadcast
  | unlock

section Program

variable {Thread : Type u} [DecidableEq Thread]

/-- One step of a thread inside a function of the event flags. -/
inductive FlagProgram (thread : Thread) :
    FlagShared Thread → FlagPlace → FlagAction →
      FlagShared Thread → FlagPlace → Prop where
  | wait {shared ret wait} :
      FlagProgram thread shared (.outside ret) (.wait wait)
        shared (.waitCalled wait)
  | waitLock {ef asleep wait} :
      FlagProgram thread ⟨ef, none, asleep⟩ (.waitCalled wait) .lock
        ⟨ef, some thread, asleep⟩ (.waitTesting wait)
  | waitLeave {ef holder asleep wait} :
      emEventflagReady ef wait.flags = true →
      FlagProgram thread ⟨ef, holder, asleep⟩ (.waitTesting wait) .leave
        ⟨ef, holder, asleep⟩ (.waitEnding wait emSuccess)
  | waitSleep {ef holder asleep wait} :
      emEventflagReady ef wait.flags = false →
      FlagProgram thread ⟨ef, holder, asleep⟩ (.waitTesting wait) .sleep
        ⟨ef, none, Function.update asleep thread true⟩ (.waitAsleep wait)
  -- `pthread_cond_wait` or `pthread_cond_timedwait` returns an error at once.
  | waitFail {ef holder asleep wait} :
      emEventflagReady ef wait.flags = false →
      FlagProgram thread ⟨ef, holder, asleep⟩ (.waitTesting wait) .fail
        ⟨ef, holder, asleep⟩ (.waitEnding wait emError)
  -- A wake-up without a broadcast.
  | waitWake {ef holder asleep wait} :
      FlagProgram thread ⟨ef, holder, asleep⟩ (.waitAsleep wait) .wake
        ⟨ef, holder, Function.update asleep thread false⟩ (.waitAsleep wait)
  | waitRelock {ef asleep wait} :
      asleep thread = false →
      FlagProgram thread ⟨ef, none, asleep⟩ (.waitAsleep wait) .lock
        ⟨ef, some thread, asleep⟩ (.waitTesting wait)
  | waitTimeout {ef holder asleep wait} :
      wait.timeoutMs ≠ emNoTimeout → asleep thread = true →
      FlagProgram thread ⟨ef, holder, asleep⟩ (.waitAsleep wait) .timeout
        ⟨ef, holder, Function.update asleep thread false⟩
        (.waitTimedOut wait)
  | waitTimedOut {ef asleep wait} :
      FlagProgram thread ⟨ef, none, asleep⟩ (.waitTimedOut wait) .lock
        ⟨ef, some thread, asleep⟩ (.waitEnding wait emErrTimeout)
  | waitUnlock {ef holder asleep wait ret} :
      FlagProgram thread ⟨ef, holder, asleep⟩ (.waitEnding wait ret) .unlock
        ⟨ef, none, asleep⟩
        (if ret = emSuccess ∧ wait.resetFlag = true then
          .resetCalled wait.flags else .outside ret)
  | resetLock {ef asleep flags} :
      FlagProgram thread ⟨ef, none, asleep⟩ (.resetCalled flags) .lock
        ⟨ef, some thread, asleep⟩ (.resetLocked flags)
  | resetStore {ef holder asleep flags} :
      FlagProgram thread ⟨ef, holder, asleep⟩ (.resetLocked flags) .store
        ⟨emEventflagReset ef flags, holder, asleep⟩ .resetEnding
  | resetUnlock {ef holder asleep} :
      FlagProgram thread ⟨ef, holder, asleep⟩ .resetEnding .unlock
        ⟨ef, none, asleep⟩ (.outside emSuccess)
  | set {shared ret flags} :
      FlagProgram thread shared (.outside ret) (.set flags)
        shared (.setCalled flags)
  | setLock {ef asleep flags} :
      FlagProgram thread ⟨ef, none, asleep⟩ (.setCalled flags) .lock
        ⟨ef, some thread, asleep⟩ (.setLocked flags)
  | setStore {ef holder asleep flags} :
      FlagProgram thread ⟨ef, holder, asleep⟩ (.setLocked flags) .store
        ⟨emEventflagSet ef flags, holder, asleep⟩ .setStored
  | setBroadcast {ef holder asleep} :
      FlagProgram thread ⟨ef, holder, asleep⟩ .setStored .broadcast
        ⟨ef, holder, fun _ => false⟩ .setEnding
  | setUnlock {ef holder asleep} :
      FlagProgram thread ⟨ef, holder, asleep⟩ .setEnding .unlock
        ⟨ef, none, asleep⟩ (.outside emSuccess)
  | clear {shared ret} :
      FlagProgram thread shared (.outside ret) .clear shared .clearCalled
  | clearLock {ef asleep} :
      FlagProgram thread ⟨ef, none, asleep⟩ .clearCalled .lock
        ⟨ef, some thread, asleep⟩ .clearLocked
  | clearStore {ef holder asleep} :
      FlagProgram thread ⟨ef, holder, asleep⟩ .clearLocked .store
        ⟨emEventflagClear ef, holder, asleep⟩ .clearEnding
  | clearUnlock {ef holder asleep} :
      FlagProgram thread ⟨ef, holder, asleep⟩ .clearEnding .unlock
        ⟨ef, none, asleep⟩ (.outside emSuccess)

end Program

/-- The steps that a thread takes by itself: no new calls, no failures, no
timeouts, and no wake-ups without a broadcast. -/
def FlagAction.own : FlagAction → Bool
  | lock | leave | sleep | store | broadcast | unlock => true
  | _ => false

namespace FlagPlace

/-- The mutex is held. -/
def locked : FlagPlace → Bool
  | waitTesting _ | waitEnding _ _ | resetLocked _ | resetEnding
  | setLocked _ | setStored | setEnding | clearLocked | clearEnding => true
  | _ => false

/-- A call has not returned. -/
def active : FlagPlace → Bool
  | outside _ => false
  | _ => true

/-- In no call, or in the wait for the condition variable. -/
def resting : FlagPlace → Bool
  | outside _ | waitAsleep _ => true
  | _ => false

end FlagPlace

abbrev FlagThreads (Thread : Type u) :=
  Threads Thread (FlagShared Thread) FlagPlace

namespace FlagThreads

variable {Thread : Type u}

/-- Nobody has called yet. -/
def start : FlagThreads Thread :=
  ⟨⟨emEventflagInit, none, fun _ => false⟩, fun _ => .outside emSuccess⟩

/-- A sleeper waits for bits that are not set, unless the thread that has set
them is about to broadcast. -/
structure Watched (state : FlagThreads Thread) : Prop where
  held : Threads.HeldBy FlagPlace.locked state.shared.holder state.place
  sleepers : ∀ thread, state.shared.asleep thread = true →
    ∃ wait, state.place thread = .waitAsleep wait ∧
      (emEventflagReady state.shared.ef wait.flags = false ∨
        ∃ setter, state.place setter = .setStored)

theorem start_watched : Watched (start : FlagThreads Thread) := by
  refine ⟨Threads.HeldBy.start rfl, ?_⟩
  intro thread impossible
  cases impossible

variable [DecidableEq Thread]

abbrev Step : FlagThreads Thread → Thread × FlagAction →
    FlagThreads Thread → Prop :=
  Threads.Step FlagProgram

/-! ## What one step keeps -/

/-- Bits that are taken away do not make a condition true. -/
theorem reset_not_ready {ef : EmEventflg} {flags : BitVec 32}
    (notReady : emEventflagReady ef flags = false) (taken : BitVec 32) :
    emEventflagReady (emEventflagReset ef taken) flags = false := by
  simp only [emEventflagReady, emEventflagReset, bne_eq_false_iff_eq]
    at notReady ⊢
  rw [BitVec.and_assoc, BitVec.and_comm (~~~taken), ← BitVec.and_assoc,
    notReady, BitVec.zero_and]

theorem clear_not_ready (ef : EmEventflg) (flags : BitVec 32) :
    emEventflagReady (emEventflagClear ef) flags = false := by
  simp [emEventflagReady, emEventflagClear]

namespace Watched

variable {shared next : FlagShared Thread} {place : Thread → FlagPlace}
  {thread : Thread} {old new : FlagPlace} {ef : EmEventflg}
  {holder after : Option Thread} {asleep : Thread → Bool}

omit [DecidableEq Thread] in
theorem awake (watched : Watched ⟨shared, place⟩) (here : place thread = old)
    (notAsleep : ∀ wait, old ≠ .waitAsleep wait) :
    shared.asleep thread = false := by
  cases isAsleep : shared.asleep thread with
  | false => rfl
  | true =>
      obtain ⟨wait, atWait, _⟩ := watched.sleepers thread isAsleep
      exact absurd (here.symm.trans atWait) (notAsleep wait)

/-- A step of one thread that is no broadcast. -/
theorem move (watched : Watched ⟨shared, place⟩) (here : place thread = old)
    (noBroadcast : old ≠ .setStored)
    (held : Threads.HeldBy FlagPlace.locked next.holder
      (Function.update place thread new))
    (others : ∀ other, other ≠ thread →
      next.asleep other = shared.asleep other)
    (own : next.asleep thread = true → ∃ wait, new = .waitAsleep wait ∧
      (emEventflagReady next.ef wait.flags = false ∨
        ∃ setter, place setter = .setStored))
    (flags : ∀ flags, emEventflagReady shared.ef flags = false →
      emEventflagReady next.ef flags = false ∨ new = .setStored) :
    Watched ⟨next, Function.update place thread new⟩ := by
  have setters : (∃ setter, place setter = .setStored) →
      ∃ setter, Function.update place thread new setter = .setStored := by
    intro ⟨setter, isStored⟩
    have different : setter ≠ thread := by
      rintro rfl
      exact noBroadcast (here.symm.trans isStored)
    exact ⟨setter, (Function.update_of_ne different _ _).trans isStored⟩
  refine ⟨held, ?_⟩
  intro other isAsleep
  dsimp only at isAsleep ⊢
  by_cases mover : other = thread
  · subst mover
    obtain ⟨wait, isWait, reason⟩ := own isAsleep
    rw [Function.update_self]
    exact ⟨wait, isWait, reason.imp id setters⟩
  · rw [others other mover] at isAsleep
    obtain ⟨wait, isWait, reason⟩ := watched.sleepers other isAsleep
    refine ⟨wait, (Function.update_of_ne mover _ _).trans isWait, ?_⟩
    rcases reason with notReady | pending
    · refine (flags wait.flags notReady).imp id ?_
      intro isStored
      exact ⟨thread, (Function.update_self thread new place).trans isStored⟩
    · exact .inr (setters pending)

/-- A step of a thread that is awake and stays so. -/
theorem store {stored : EmEventflg}
    (watched : Watched ⟨⟨ef, holder, asleep⟩, place⟩)
    (here : place thread = old) (noBroadcast : old ≠ .setStored)
    (notAsleep : asleep thread = false)
    (held : Threads.HeldBy FlagPlace.locked after
      (Function.update place thread new))
    (flags : ∀ flags, emEventflagReady ef flags = false →
      emEventflagReady stored flags = false ∨ new = .setStored) :
    Watched ⟨⟨stored, after, asleep⟩, Function.update place thread new⟩ := by
  refine watched.move here noBroadcast held (fun _ _ => rfl) ?_ flags
  intro isAsleep
  exact absurd (notAsleep.symm.trans isAsleep) Bool.false_ne_true

theorem stay (watched : Watched ⟨⟨ef, holder, asleep⟩, place⟩)
    (here : place thread = old) (noBroadcast : old ≠ .setStored)
    (notAsleep : asleep thread = false)
    (held : Threads.HeldBy FlagPlace.locked after
      (Function.update place thread new)) :
    Watched ⟨⟨ef, after, asleep⟩, Function.update place thread new⟩ :=
  watched.store here noBroadcast notAsleep held
    (fun _ notReady => .inl notReady)

/-- A step of a thread that wakes up by itself. -/
theorem wake (watched : Watched ⟨⟨ef, holder, asleep⟩, place⟩)
    (here : place thread = old) (noBroadcast : old ≠ .setStored)
    (held : Threads.HeldBy FlagPlace.locked holder
      (Function.update place thread new)) :
    Watched ⟨⟨ef, holder, Function.update asleep thread false⟩,
      Function.update place thread new⟩ := by
  refine watched.move here noBroadcast held ?_ ?_ ?_
  · intro other different
    exact Function.update_of_ne different _ _
  · intro isAsleep
    simp at isAsleep
  · intro flags notReady
    exact .inl notReady

end Watched

theorem watched_step {before after : FlagThreads Thread}
    {label : Thread × FlagAction} (watched : Watched before)
    (taken : before.Step label after) : Watched after := by
  obtain ⟨⟨ef, holder, asleep⟩, places⟩ := before
  cases taken with
  | move taken =>
      rename_i thread action next new
      have held := watched.held
      dsimp only at taken held
      generalize here : places thread = old at taken
      cases taken with
      | wait =>
          exact watched.stay here (by simp) (watched.awake here (by simp))
            (held.keep here rfl)
      | waitLock =>
          exact watched.stay here (by simp) (watched.awake here (by simp))
            (held.acquire here rfl)
      | waitLeave _ =>
          exact watched.stay here (by simp) (watched.awake here (by simp))
            (held.keep here rfl)
      | waitSleep notReady =>
          refine watched.move here (by simp) (held.release here rfl rfl)
            ?_ ?_ ?_
          · intro other different
            exact Function.update_of_ne different _ _
          · intro _
            exact ⟨_, rfl, .inl notReady⟩
          · intro flags stays
            exact .inl stays
      | waitFail _ =>
          exact watched.stay here (by simp) (watched.awake here (by simp))
            (held.keep here rfl)
      | waitWake =>
          exact watched.wake here (by simp) (held.keep here rfl)
      | waitRelock awake =>
          exact watched.stay here (by simp) awake (held.acquire here rfl)
      | waitTimeout _ _ =>
          exact watched.wake here (by simp) (held.keep here rfl)
      | waitTimedOut =>
          exact watched.stay here (by simp) (watched.awake here (by simp))
            (held.acquire here rfl)
      | waitUnlock =>
          apply watched.stay here (by simp) (watched.awake here (by simp))
          apply held.release here rfl
          split_ifs <;> rfl
      | resetLock =>
          exact watched.stay here (by simp) (watched.awake here (by simp))
            (held.acquire here rfl)
      | resetStore =>
          exact watched.store here (by simp) (watched.awake here (by simp))
            (held.keep here rfl) (fun _ notReady =>
              .inl (reset_not_ready notReady _))
      | resetUnlock =>
          exact watched.stay here (by simp) (watched.awake here (by simp))
            (held.release here rfl rfl)
      | set =>
          exact watched.stay here (by simp) (watched.awake here (by simp))
            (held.keep here rfl)
      | setLock =>
          exact watched.stay here (by simp) (watched.awake here (by simp))
            (held.acquire here rfl)
      | setStore =>
          exact watched.store here (by simp) (watched.awake here (by simp))
            (held.keep here rfl) (fun _ _ => .inr rfl)
      | setBroadcast =>
          refine ⟨held.keep here rfl, ?_⟩
          intro other impossible
          cases impossible
      | setUnlock =>
          exact watched.stay here (by simp) (watched.awake here (by simp))
            (held.release here rfl rfl)
      | clear =>
          exact watched.stay here (by simp) (watched.awake here (by simp))
            (held.keep here rfl)
      | clearLock =>
          exact watched.stay here (by simp) (watched.awake here (by simp))
            (held.acquire here rfl)
      | clearStore =>
          exact watched.store here (by simp) (watched.awake here (by simp))
            (held.keep here rfl) (fun flags _ =>
              .inl (clear_not_ready _ flags))
      | clearUnlock =>
          exact watched.stay here (by simp) (watched.awake here (by simp))
            (held.release here rfl rfl)

/-! ## Who can go on -/

/-- The holder of the mutex can always go on. -/
theorem inside_moves (thread : Thread) (shared : FlagShared Thread)
    {place : FlagPlace} (inside : place.locked = true) :
    ∃ action next new, action.own = true ∧
      FlagProgram thread shared place action next new := by
  obtain ⟨ef, holder, asleep⟩ := shared
  cases place with
  | waitTesting wait =>
      cases ready : emEventflagReady ef wait.flags with
      | true => exact ⟨_, _, _, rfl, .waitLeave ready⟩
      | false => exact ⟨_, _, _, rfl, .waitSleep ready⟩
  | waitEnding wait ret => exact ⟨.unlock, _, _, rfl, .waitUnlock⟩
  | resetLocked flags => exact ⟨.store, _, _, rfl, .resetStore⟩
  | resetEnding => exact ⟨.unlock, _, _, rfl, .resetUnlock⟩
  | setLocked flags => exact ⟨.store, _, _, rfl, .setStore⟩
  | setStored => exact ⟨.broadcast, _, _, rfl, .setBroadcast⟩
  | setEnding => exact ⟨.unlock, _, _, rfl, .setUnlock⟩
  | clearLocked => exact ⟨.store, _, _, rfl, .clearStore⟩
  | clearEnding => exact ⟨.unlock, _, _, rfl, .clearUnlock⟩
  | _ => cases inside

/-- With the mutex free only sleepers can be held up. -/
theorem outside_moves (thread : Thread) (ef : EmEventflg)
    (asleep : Thread → Bool) {place : FlagPlace}
    (outside : place.locked = false) (called : place.resting = false) :
    ∃ action next new, action.own = true ∧
      FlagProgram thread ⟨ef, none, asleep⟩ place action next new := by
  cases place with
  | waitCalled wait => exact ⟨.lock, _, _, rfl, .waitLock⟩
  | waitTimedOut wait => exact ⟨.lock, _, _, rfl, .waitTimedOut⟩
  | resetCalled flags => exact ⟨.lock, _, _, rfl, .resetLock⟩
  | setCalled flags => exact ⟨.lock, _, _, rfl, .setLock⟩
  | clearCalled => exact ⟨.lock, _, _, rfl, .clearLock⟩
  | outside ret => cases called
  | waitAsleep wait => cases called
  | _ => cases outside

/-- Nobody can go on but by a new call, a failure, a timeout or a wake-up
without a broadcast. -/
abbrev Stuck (state : FlagThreads Thread) : Prop :=
  Threads.Stuck FlagProgram (fun action => action.own = true) state

/-- The mutex is free, and all calls that have not returned sleep and wait for
bits that are not set. -/
def Settled (state : FlagThreads Thread) : Prop :=
  state.shared.holder = none ∧ ∀ thread,
    match state.place thread with
    | .outside _ => True
    | .waitAsleep wait => state.shared.asleep thread = true ∧
        emEventflagReady state.shared.ef wait.flags = false
    | _ => False

theorem Watched.settled {state : FlagThreads Thread}
    (watched : Watched state) (stuck : Stuck state) : Settled state := by
  obtain ⟨⟨ef, holder, asleep⟩, places⟩ := state
  have resting : holder = none ∧
      ∀ thread, (places thread).resting = true := by
    apply Threads.Stuck.resting stuck watched.held
    · intro thread inside
      exact inside_moves thread _ inside
    · intro free thread outside called
      subst free
      exact outside_moves thread ef asleep outside called
  obtain ⟨free, rests⟩ := resting
  subst free
  refine ⟨rfl, ?_⟩
  intro thread
  dsimp only
  have here := rests thread
  have cannot : ∀ next new, ¬ FlagProgram thread ⟨ef, none, asleep⟩
      (places thread) .lock next new :=
    fun next new => stuck thread .lock next new rfl
  cases isAt : places thread with
  | outside ret => trivial
  | waitAsleep wait =>
      rw [isAt] at cannot
      have isAsleep : asleep thread = true := by
        by_contra awake
        exact cannot _ _ (.waitRelock (Bool.eq_false_of_not_eq_true awake))
      refine ⟨isAsleep, ?_⟩
      obtain ⟨sleeper, atWait, reason⟩ := watched.sleepers thread isAsleep
      dsimp only at atWait reason
      rw [isAt] at atWait
      cases atWait
      rcases reason with notReady | ⟨setter, isStored⟩
      · exact notReady
      · have setterRests := rests setter
        rw [isStored] at setterRests
        cases setterRests
  | _ =>
      rw [isAt] at here
      cases here

/-! ## How long it takes -/

/-- The steps to the end of a call of a thread that sleeps or does not; a
broadcast may wake all threads. -/
def rank (threads : ℕ) : FlagPlace × Bool → ℕ
  | (.outside _, _) => 0
  | (.waitAsleep _, true) => 0
  | (.waitAsleep _, false) | (.waitCalled _, _) => 6
  | (.waitTesting _, _) | (.waitTimedOut _, _) => 5
  | (.waitEnding _ _, _) => 4
  | (.resetCalled _, _) | (.clearCalled, _) => 3
  | (.resetLocked _, _) | (.clearLocked, _) => 2
  | (.resetEnding, _) | (.setEnding, _) | (.clearEnding, _) => 1
  | (.setCalled _, _) => 6 * threads + 4
  | (.setLocked _, _) => 6 * threads + 3
  | (.setStored, _) => 6 * threads + 2

theorem rank_awake (threads : ℕ) (place : FlagPlace) (asleep : Bool) :
    rank threads (place, false) ≤ rank threads (place, asleep) + 6 := by
  cases place with
  | waitAsleep wait => cases asleep <;> simp [rank]
  | _ => simp [rank]

theorem rank_le (threads : ℕ) (place : FlagPlace) (asleep : Bool) :
    rank threads (place, asleep) ≤ 6 * threads + 6 := by
  cases place with
  | waitAsleep wait => cases asleep <;> simp [rank]
  | _ => simp only [rank]; omega

variable [Fintype Thread]

/-- What all threads together still have to do. -/
def work (state : FlagThreads Thread) : ℕ :=
  Threads.remaining (rank (Fintype.card Thread))
    (Threads.beds state.place state.shared.asleep)

theorem work_lowers (before : FlagThreads Thread)
    (label : Thread × FlagAction) (after : FlagThreads Thread)
    (taken : before.Step label after) (own : label.2.own = true) :
    work after < work before := by
  obtain ⟨⟨ef, holder, asleep⟩, places⟩ := before
  cases taken with
  | move taken =>
      rename_i thread action next new
      dsimp only at taken own
      generalize here : places thread = old at taken
      cases taken with
      | wait => cases own
      | set => cases own
      | clear => cases own
      | waitFail _ => cases own
      | waitWake => cases own
      | waitTimeout _ _ => cases own
      | setBroadcast =>
          refine Threads.remaining_broadcast here (rank_awake _) ?_
          simp only [rank]
          omega
      | waitSleep _ =>
          apply Threads.remaining_move here
          · intro other different
            exact Function.update_of_ne different _ _
          · simp [rank]
      | waitRelock awake =>
          apply Threads.remaining_move here (fun _ _ => rfl)
          simp [rank, awake]
      | waitUnlock =>
          apply Threads.remaining_move here (fun _ _ => rfl)
          split_ifs <;> simp [rank]
      | _ =>
          exact Threads.remaining_move here (fun _ _ => rfl) (by simp [rank])

omit [DecidableEq Thread] in
theorem work_le (state : FlagThreads Thread) :
    work state ≤ (6 * Fintype.card Thread + 6) *
      Threads.count FlagPlace.active state.place := by
  apply Threads.remaining_beds_le (rank_le _)
  intro place asleep returned
  cases place with
  | outside ret => rfl
  | _ => cases returned

end FlagThreads

/-- In every state that threads can reach with the event flags, the calls in
progress come to an end or fall asleep after a bounded number of steps.  When
nobody can go on, the only calls that have not returned sleep and wait for bits
of which none is set: no wake-up is lost between a look at the flags and the
sleep.  Such a state can be reached without timeouts and without wake-ups that
nobody caused. -/
theorem flags_settle {Thread : Type u} [DecidableEq Thread] [Fintype Thread]
    {labels : List (Thread × FlagAction)} {state : FlagThreads Thread}
    (run : Run FlagThreads.Step FlagThreads.start labels state) :
    (∀ further last, Run FlagThreads.Step state further last →
      (∀ label ∈ further, label.2.own = true) →
        further.length ≤ (6 * Fintype.card Thread + 6) *
          Threads.count FlagPlace.active state.place) ∧
      (FlagThreads.Stuck state → FlagThreads.Settled state) ∧
      ∃ further last, Run FlagThreads.Step state further last ∧
        (∀ label ∈ further, label.2.own = true) ∧
          FlagThreads.Settled last := by
  have kept : ∀ before (label : Thread × FlagAction) after,
      FlagThreads.Watched before → FlagThreads.Step before label after →
        FlagThreads.Watched after :=
    fun _ _ _ watched taken => FlagThreads.watched_step watched taken
  have watched := run.invariant _ FlagThreads.start_watched kept
  refine ⟨?_, watched.settled, ?_⟩
  · intro further last goesOn all
    have bounded := goesOn.length_le FlagThreads.work_lowers all
    have few := FlagThreads.work_le state
    omega
  · obtain ⟨further, last, goesOn, all, noMore⟩ :=
      Run.exists_last FlagThreads.work_lowers state
    have stuck : FlagThreads.Stuck last := Threads.stuck_of_last noMore
    exact ⟨further, last, goesOn, all,
      (goesOn.invariant _ watched kept).settled stuck⟩

/-- A waiting thread has fallen asleep, and another one has set its bit but not
broadcast yet. -/
theorem flags_settle_two :
    ∃ state : FlagThreads (Fin 2), Run FlagThreads.Step FlagThreads.start
        [(0, .wait ⟨1#32, emNoTimeout, true⟩), (0, .lock), (0, .sleep),
          (1, .set 1#32), (1, .lock), (1, .store)] state ∧
      ∃ further last, Run FlagThreads.Step state further last ∧
        (∀ label ∈ further, label.2.own = true) ∧
          FlagThreads.Settled last := by
  have run : ∃ state : FlagThreads (Fin 2),
      Run FlagThreads.Step FlagThreads.start
        [(0, .wait ⟨1#32, emNoTimeout, true⟩), (0, .lock), (0, .sleep),
          (1, .set 1#32), (1, .lock), (1, .store)] state :=
    ⟨_, .cons (.move .wait) (.cons (.move .waitLock)
      (.cons (.move (.waitSleep (by decide))) (.cons (.move .set)
      (.cons (.move .setLock) (.cons (.move .setStore) .nil)))))⟩
  obtain ⟨state, run⟩ := run
  exact ⟨state, run, (flags_settle run).2.2⟩

end EmbeddedMiddle
