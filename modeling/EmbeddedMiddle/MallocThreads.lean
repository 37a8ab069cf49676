import EmbeddedMiddle.Malloc
import EmbeddedMiddle.Foundation.LockOwners

/-!
# Threads on one allocator

`em_malloc`, `em_trymalloc` and `em_free` as programs of any number of
threads.  A caller of `em_trymalloc` whose attempt fails takes `cond_mutex`
before it gives `mutex` back, and gives `cond_mutex` back only by joining the
waiters of `cond`; `em_free` takes both in the same order for its broadcast.
-/

namespace EmbeddedMiddle

open Foundation

universe u

inductive MallocLock where
  | mutex
  | condMutex
  deriving DecidableEq

/-- The arguments and the local `ret` of `em_trymalloc`. -/
structure Trymalloc where
  size : ℕ
  timeoutMs : ℤ
  ret : Option ℤ

/-- Where a thread is.  A thread that is outside remembers the pointer its last
call returned; `sleeping` is the inside of `pthread_cond_timedwait`. -/
inductive MallocPlace where
  | outside (ret : Option ℤ)
  | mallocCalled (size : ℕ)
  | mallocLocked (size : ℕ)
  | tryCalled (frame : Trymalloc)
  | tryLocked (frame : Trymalloc)
  | leaving (ret : Option ℤ)
  | failed (frame : Trymalloc)
  | condLocked (frame : Trymalloc)
  | mutexUnlocked (frame : Trymalloc)
  | sleeping (frame : Trymalloc)
  | woken (frame : Trymalloc)
  | checking (frame : Trymalloc)
  | freeCalled (addr : ℤ)
  | freeLocked (addr : ℤ)
  | freed
  | freeCondLocked
  | broadcasted
  | freeCondUnlocked

inductive MallocAction where
  | call
  | lock (taken : MallocLock)
  | unlock (given : MallocLock)
  | attempt
  | wait
  | timeout
  | wake
  | check (passedMs : ℤ)
  | free
  | broadcast

/-- The manager, the owners of its two mutexes and the threads that wait for
`cond`.  For the record, `freed` holds the threads since whose last failed
attempt an `em_free` has put a block back. -/
structure MallocShared (Thread : Type u) where
  mm : EmMemmng
  owner : MallocLock → Option Thread
  waiting : Thread → Bool
  freed : Thread → Bool

section Program

variable {Thread : Type u} [DecidableEq Thread]

/-- One step of a thread inside one of the three functions.  The wait gives
`cond_mutex` back and joins the waiters in one step, or fails at once with
`cond_mutex` kept; a waiter leaves by a broadcast or, at any time, by itself. -/
inductive MallocProgram (thread : Thread) :
    MallocShared Thread → MallocPlace → MallocAction →
      MallocShared Thread → MallocPlace → Prop where
  | mallocCall {shared ret size} :
      MallocProgram thread shared (.outside ret) .call
        shared (.mallocCalled size)
  | mallocLock {mm owner waiting freed size} :
      owner .mutex = none →
      MallocProgram thread ⟨mm, owner, waiting, freed⟩ (.mallocCalled size)
        (.lock .mutex)
        ⟨mm, Function.update owner .mutex (some thread), waiting, freed⟩
        (.mallocLocked size)
  | mallocAttempt {mm owner waiting freed size} :
      MallocProgram thread ⟨mm, owner, waiting, freed⟩ (.mallocLocked size)
        .attempt ⟨(emMalloc mm size).2, owner, waiting, freed⟩
        (.leaving (emMalloc mm size).1)
  | tryCall {shared ret frame} :
      MallocProgram thread shared (.outside ret) .call
        shared (.tryCalled frame)
  | tryLock {mm owner waiting freed frame} :
      owner .mutex = none →
      MallocProgram thread ⟨mm, owner, waiting, freed⟩ (.tryCalled frame)
        (.lock .mutex)
        ⟨mm, Function.update owner .mutex (some thread), waiting, freed⟩
        (.tryLocked frame)
  | trySucceed {mm owner waiting freed frame ret after} :
      emMallocUnlocked mm frame.size = (emSuccess, ret, after) →
      MallocProgram thread ⟨mm, owner, waiting, freed⟩ (.tryLocked frame)
        .attempt ⟨after, owner, waiting, freed⟩ (.leaving ret)
  | tryNoWait {mm owner waiting freed frame mallocRet ret after} :
      emMallocUnlocked mm frame.size = (mallocRet, ret, after) →
      mallocRet ≠ emSuccess →
      frame.timeoutMs = emNoWait →
      MallocProgram thread ⟨mm, owner, waiting, freed⟩ (.tryLocked frame)
        .attempt ⟨after, owner, waiting, freed⟩ (.leaving ret)
  | tryFail {mm owner waiting freed frame mallocRet ret after} :
      emMallocUnlocked mm frame.size = (mallocRet, ret, after) →
      mallocRet ≠ emSuccess →
      frame.timeoutMs ≠ emNoWait →
      MallocProgram thread ⟨mm, owner, waiting, freed⟩ (.tryLocked frame)
        .attempt ⟨after, owner, waiting, Function.update freed thread false⟩
        (.failed { frame with ret })
  | leave {mm owner waiting freed ret} :
      MallocProgram thread ⟨mm, owner, waiting, freed⟩ (.leaving ret)
        (.unlock .mutex)
        ⟨mm, Function.update owner .mutex none, waiting, freed⟩
        (.outside ret)
  | condLock {mm owner waiting freed frame} :
      owner .condMutex = none →
      MallocProgram thread ⟨mm, owner, waiting, freed⟩ (.failed frame)
        (.lock .condMutex)
        ⟨mm, Function.update owner .condMutex (some thread), waiting, freed⟩
        (.condLocked frame)
  | mutexUnlock {mm owner waiting freed frame} :
      MallocProgram thread ⟨mm, owner, waiting, freed⟩ (.condLocked frame)
        (.unlock .mutex)
        ⟨mm, Function.update owner .mutex none, waiting, freed⟩
        (.mutexUnlocked frame)
  | wait {mm owner waiting freed frame} :
      MallocProgram thread ⟨mm, owner, waiting, freed⟩ (.mutexUnlocked frame)
        .wait
        ⟨mm, Function.update owner .condMutex none,
          Function.update waiting thread true, freed⟩
        (.sleeping frame)
  | waitFailed {shared frame} :
      MallocProgram thread shared (.mutexUnlocked frame) .wait
        shared (.woken frame)
  | timeout {mm owner waiting freed frame} :
      waiting thread = true →
      MallocProgram thread ⟨mm, owner, waiting, freed⟩ (.sleeping frame)
        .timeout ⟨mm, owner, Function.update waiting thread false, freed⟩
        (.sleeping frame)
  | wake {mm owner waiting freed frame} :
      waiting thread = false →
      owner .condMutex = none →
      MallocProgram thread ⟨mm, owner, waiting, freed⟩ (.sleeping frame)
        .wake
        ⟨mm, Function.update owner .condMutex (some thread), waiting, freed⟩
        (.woken frame)
  | condUnlock {mm owner waiting freed frame} :
      MallocProgram thread ⟨mm, owner, waiting, freed⟩ (.woken frame)
        (.unlock .condMutex)
        ⟨mm, Function.update owner .condMutex none, waiting, freed⟩
        (.checking frame)
  | giveUp {shared frame passedMs} :
      frame.timeoutMs ≤ passedMs →
      MallocProgram thread shared (.checking frame) (.check passedMs)
        shared (.outside frame.ret)
  | retry {shared frame passedMs} :
      passedMs < frame.timeoutMs →
      MallocProgram thread shared (.checking frame) (.check passedMs)
        shared (.tryCalled frame)
  | freeCall {shared ret addr} :
      MallocProgram thread shared (.outside ret) .call
        shared (.freeCalled addr)
  | freeLock {mm owner waiting freed addr} :
      owner .mutex = none →
      MallocProgram thread ⟨mm, owner, waiting, freed⟩ (.freeCalled addr)
        (.lock .mutex)
        ⟨mm, Function.update owner .mutex (some thread), waiting, freed⟩
        (.freeLocked addr)
  | free {mm owner waiting freed addr} :
      MallocProgram thread ⟨mm, owner, waiting, freed⟩ (.freeLocked addr)
        .free ⟨emFree mm addr, owner, waiting, fun _ => true⟩ .freed
  | freeCondLock {mm owner waiting freed} :
      owner .condMutex = none →
      MallocProgram thread ⟨mm, owner, waiting, freed⟩ .freed
        (.lock .condMutex)
        ⟨mm, Function.update owner .condMutex (some thread), waiting, freed⟩
        .freeCondLocked
  | broadcast {mm owner waiting freed} :
      MallocProgram thread ⟨mm, owner, waiting, freed⟩ .freeCondLocked
        .broadcast ⟨mm, owner, fun _ => false, freed⟩ .broadcasted
  | freeCondUnlock {mm owner waiting freed} :
      MallocProgram thread ⟨mm, owner, waiting, freed⟩ .broadcasted
        (.unlock .condMutex)
        ⟨mm, Function.update owner .condMutex none, waiting, freed⟩
        .freeCondUnlocked
  | freeUnlock {mm owner waiting freed} :
      MallocProgram thread ⟨mm, owner, waiting, freed⟩ .freeCondUnlocked
        (.unlock .mutex)
        ⟨mm, Function.update owner .mutex none, waiting, freed⟩
        (.outside none)

end Program

namespace MallocPlace

/-- The mutexes that a thread has locked and not yet unlocked. -/
def holds : MallocPlace → MallocLock → Bool
  | mallocLocked _, .mutex | tryLocked _, .mutex | leaving _, .mutex
  | failed _, .mutex | condLocked _, .mutex | freeLocked _, .mutex
  | freed, .mutex | freeCondLocked, .mutex | broadcasted, .mutex
  | freeCondUnlocked, .mutex => true
  | condLocked _, .condMutex | mutexUnlocked _, .condMutex
  | woken _, .condMutex | freeCondLocked, .condMutex
  | broadcasted, .condMutex => true
  | _, _ => false

/-- After a failed attempt, but not yet among the waiters. -/
def unheard : MallocPlace → Bool
  | failed _ | condLocked _ | mutexUnlocked _ => true
  | _ => false

/-- A block is back, but the waiters do not know. -/
def announcing : MallocPlace → Bool
  | freed | freeCondLocked => true
  | _ => false

end MallocPlace

abbrev MallocThreads (Thread : Type u) :=
  Threads Thread (MallocShared Thread) MallocPlace

namespace MallocThreads

variable {Thread : Type u}

/-- Nobody has called yet. -/
def start (mm : EmMemmng) : MallocThreads Thread :=
  ⟨⟨mm, fun _ => none, fun _ => false, fun _ => false⟩,
    fun _ => .outside none⟩

/-- The mutex a thread needs for its next step, if any. -/
def awaits (state : MallocThreads Thread) (thread : Thread) :
    Option MallocLock :=
  match state.place thread with
  | .mallocCalled _ | .tryCalled _ | .freeCalled _ => some .mutex
  | .failed _ | .freed => some .condMutex
  | .sleeping _ =>
      if state.shared.waiting thread then none else some .condMutex
  | _ => none

/-- The owners of the two mutexes wait for each other. -/
def Deadlocked (state : MallocThreads Thread) : Prop :=
  ∃ one other, state.shared.owner .mutex = some one ∧
    state.awaits one = some .condMutex ∧
    state.shared.owner .condMutex = some other ∧
    state.awaits other = some .mutex

/-- The thread relies on a broadcast: it has failed and goes to sleep, or
sleeps. -/
def Relying (state : MallocThreads Thread) (thread : Thread) : Prop :=
  (state.place thread).unheard = true ∨ state.shared.waiting thread = true

/-- The mutexes belong to the threads whose places say so, the waiters sleep,
and a block that somebody relying has missed is being announced. -/
structure Synchronised (state : MallocThreads Thread) : Prop where
  owned : Threads.Owned MallocPlace.holds state.shared.owner state.place
  asleep : ∀ thread, state.shared.waiting thread = true →
    ∃ frame, state.place thread = .sleeping frame
  announced : ∀ thread, state.shared.freed thread = true →
    state.Relying thread → ∃ other, (state.place other).announcing = true

variable [DecidableEq Thread]

abbrev Step : MallocThreads Thread → Thread × MallocAction →
    MallocThreads Thread → Prop :=
  Threads.Step MallocProgram

namespace Synchronised

section Moves

variable {mm next : EmMemmng} {owner owned : MallocLock → Option Thread}
  {waiting nowWaiting freed nowFreed : Thread → Bool}
  {place : Thread → MallocPlace} {thread : Thread} {old new : MallocPlace}

omit [DecidableEq Thread] in
theorem start : (start mm : MallocThreads Thread).Synchronised := by
  constructor
  · exact Threads.Owned.start (fun lock => by cases lock <;> rfl)
  · intro thread waits
    cases waits
  · intro thread isFreed
    cases isFreed

omit [DecidableEq Thread] in
theorem awake
    (sync : Synchronised ⟨⟨mm, owner, waiting, freed⟩, place⟩)
    (here : place thread = old)
    (elsewhere : ∀ frame, old ≠ .sleeping frame) :
    waiting thread = false := by
  cases waits : waiting thread with
  | false => rfl
  | true =>
      obtain ⟨frame, there⟩ := sync.asleep thread waits
      exact absurd (here.symm.trans there) (elsewhere frame)

/-- A step that changes the waiters and the record for its own thread at
most, and does not withdraw an announcement. -/
theorem move
    (sync : Synchronised ⟨⟨mm, owner, waiting, freed⟩, place⟩)
    (here : place thread = old)
    (locks : Threads.Owned MallocPlace.holds owned
      (Function.update place thread new))
    (waiters : ∀ other, other ≠ thread → nowWaiting other = waiting other)
    (record : ∀ other, other ≠ thread → nowFreed other = freed other)
    (asleep : nowWaiting thread = true → ∃ frame, new = .sleeping frame)
    (relied : nowFreed thread = true →
      new.unheard = true ∨ nowWaiting thread = true →
        freed thread = true ∧
          (old.unheard = true ∨ waiting thread = true))
    (announcing : old.announcing = true → new.announcing = true) :
    Synchronised ⟨⟨next, owned, nowWaiting, nowFreed⟩,
      Function.update place thread new⟩ := by
  refine ⟨locks, ?_, ?_⟩
  · intro other waits
    change nowWaiting other = true at waits
    change ∃ frame, Function.update place thread new other = _
    by_cases mover : other = thread
    · subst mover
      rw [Function.update_self]
      exact asleep waits
    · rw [Function.update_of_ne mover]
      rw [waiters other mover] at waits
      exact sync.asleep other waits
  · intro other isFreed relying
    change nowFreed other = true at isFreed
    change (Function.update place thread new other).unheard = true ∨
      nowWaiting other = true at relying
    have before : ∃ announcer, (place announcer).announcing = true := by
      by_cases mover : other = thread
      · subst mover
        rw [Function.update_self] at relying
        obtain ⟨wasFreed, relied⟩ := relied isFreed relying
        rw [← here] at relied
        exact sync.announced other wasFreed relied
      · rw [Function.update_of_ne mover, waiters other mover] at relying
        rw [record other mover] at isFreed
        exact sync.announced other isFreed relying
    obtain ⟨announcer, announces⟩ := before
    refine ⟨announcer, ?_⟩
    change (Function.update place thread new announcer).announcing = true
    by_cases mover : announcer = thread
    · subst mover
      rw [Function.update_self]
      rw [here] at announces
      exact announcing announces
    · rw [Function.update_of_ne mover]
      exact announces

/-- A step of a thread that is no waiter. -/
theorem quiet
    (sync : Synchronised ⟨⟨mm, owner, waiting, freed⟩, place⟩)
    (here : place thread = old)
    (locks : Threads.Owned MallocPlace.holds owned
      (Function.update place thread new))
    (awake : waiting thread = false)
    (unheard : new.unheard = true → old.unheard = true)
    (announcing : old.announcing = true → new.announcing = true) :
    Synchronised ⟨⟨next, owned, waiting, freed⟩,
      Function.update place thread new⟩ := by
  apply sync.move here locks (fun _ _ => rfl) (fun _ _ => rfl)
  · intro waits
    cases awake.symm.trans waits
  · intro isFreed relying
    refine ⟨isFreed, ?_⟩
    rcases relying with isUnheard | waits
    · exact Or.inl (unheard isUnheard)
    · exact Or.inr waits
  · exact announcing

end Moves

variable {before after : MallocThreads Thread}
  {label : Thread × MallocAction}

omit [DecidableEq Thread] in
/-- Whoever broadcasts holds both mutexes, so nobody is between a failed
attempt and the waiters. -/
theorem heard (sync : before.Synchronised) {thread : Thread}
    (here : before.place thread = .freeCondLocked) (other : Thread) :
    (before.place other).unheard = false := by
  cases unheard : (before.place other).unheard with
  | false => rfl
  | true =>
      exfalso
      have isThread : other = thread := by
        have both : ∀ lock,
            (before.place thread).holds lock = true := by
          intro lock
          rw [here]
          cases lock <;> rfl
        have held : ∃ lock, (before.place other).holds lock = true := by
          cases there : before.place other with
          | failed frame => exact ⟨.mutex, rfl⟩
          | condLocked frame => exact ⟨.mutex, rfl⟩
          | mutexUnlocked frame => exact ⟨.condMutex, rfl⟩
          | _ =>
              rw [there] at unheard
              cases unheard
        obtain ⟨lock, holds⟩ := held
        exact sync.owned.exclusive (both lock) holds
      rw [isThread, here] at unheard
      cases unheard

theorem step (sync : before.Synchronised)
    (taken : MallocThreads.Step before label after) :
    after.Synchronised := by
  obtain ⟨⟨mm, owner, waiting, freed⟩, place⟩ := before
  have owned := sync.owned
  have heard := @heard _ _ sync
  dsimp only at owned heard
  cases taken with
  | @move thread action shared target moved =>
      dsimp only at moved
      generalize here : place thread = old at moved
      cases moved with
      | mallocCall | mallocAttempt | tryCall | trySucceed _
      | tryNoWait _ _ _ | waitFailed | giveUp _ | retry _ | freeCall =>
          exact sync.quiet here
            (owned.keep here fun lock => by cases lock <;> rfl)
            (sync.awake here (by simp)) nofun nofun
      | mallocLock free | tryLock free | freeLock free =>
          exact sync.quiet here
            (owned.acquire here free fun lock => by cases lock <;> rfl)
            (sync.awake here (by simp)) nofun nofun
      | tryFail _ _ _ =>
          have awake := sync.awake here (by simp)
          apply sync.move here
            (owned.keep here fun lock => by cases lock <;> rfl)
            (fun _ _ => rfl)
          · intro other different
            exact Function.update_of_ne different _ _
          · intro waits
            cases awake.symm.trans waits
          · intro isFreed
            rw [Function.update_self] at isFreed
            cases isFreed
          · nofun
      | leave | condUnlock | freeCondUnlock | freeUnlock =>
          exact sync.quiet here
            (owned.release here rfl fun lock => by cases lock <;> rfl)
            (sync.awake here (by simp)) nofun nofun
      | condLock free =>
          exact sync.quiet here
            (owned.acquire here free fun lock => by cases lock <;> rfl)
            (sync.awake here (by simp)) (fun _ => rfl) nofun
      | mutexUnlock =>
          exact sync.quiet here
            (owned.release here rfl fun lock => by cases lock <;> rfl)
            (sync.awake here (by simp)) (fun _ => rfl) nofun
      | @wait _ _ _ _ frame =>
          apply sync.move here
            (owned.release here rfl fun lock => by cases lock <;> rfl)
          · intro other different
            exact Function.update_of_ne different _ _
          · exact fun _ _ => rfl
          · intro _
            exact ⟨frame, rfl⟩
          · intro isFreed _
            exact ⟨isFreed, Or.inl rfl⟩
          · nofun
      | @timeout _ _ _ _ frame _ =>
          apply sync.move here
            (owned.keep here fun lock => by cases lock <;> rfl)
          · intro other different
            exact Function.update_of_ne different _ _
          · exact fun _ _ => rfl
          · intro _
            exact ⟨frame, rfl⟩
          · intro _ relying
            rw [Function.update_self] at relying
            rcases relying with impossible | impossible <;> cases impossible
          · nofun
      | wake awake free =>
          exact sync.quiet here
            (owned.acquire here free fun lock => by cases lock <;> rfl)
            awake nofun nofun
      | free =>
          have quiet : Synchronised ⟨⟨mm, owner, waiting, freed⟩,
              Function.update place thread .freed⟩ :=
            sync.quiet here
              (owned.keep here fun lock => by cases lock <;> rfl)
              (sync.awake here (by simp)) nofun nofun
          refine ⟨quiet.owned, quiet.asleep, ?_⟩
          intro _ _ _
          refine ⟨thread, ?_⟩
          change (Function.update place thread _ thread).announcing = true
          rw [Function.update_self]
          rfl
      | freeCondLock free =>
          exact sync.quiet here
            (owned.acquire here free fun lock => by cases lock <;> rfl)
            (sync.awake here (by simp)) nofun (fun _ => rfl)
      | broadcast =>
          refine ⟨owned.keep here fun lock => by cases lock <;> rfl,
            nofun, ?_⟩
          intro other _ relying
          rcases relying with unheard | waits
          · change (Function.update place thread _ other).unheard = true
              at unheard
            by_cases mover : other = thread
            · subst mover
              rw [Function.update_self] at unheard
              cases unheard
            · rw [Function.update_of_ne mover, heard here other] at unheard
              cases unheard
          · cases waits

theorem of_run {mm : EmMemmng} {labels : List (Thread × MallocAction)}
    {state : MallocThreads Thread}
    (run : Run MallocThreads.Step (MallocThreads.start mm) labels state) :
    state.Synchronised := by
  apply run.invariant Synchronised
  · exact start
  · intro before label after sync taken
    exact sync.step taken

omit [DecidableEq Thread] in
/-- A thread that waits for `mutex` holds nothing. -/
theorem not_deadlocked (sync : before.Synchronised) :
    ¬ before.Deadlocked := by
  rintro ⟨one, other, _, _, owns, waits⟩
  have holds := (sync.owned other .condMutex).mpr owns
  unfold awaits at waits
  cases there : before.place other with
  | condLocked _ | mutexUnlocked _ | woken _ | freeCondLocked
  | broadcasted =>
      rw [there] at waits
      cases waits
  | _ =>
      rw [there] at holds
      cases holds

end Synchronised

/-! ## Every run -/

/-- At a broadcast every thread with a failed attempt is among the waiters,
and none of them stays there; who relies on a broadcast while a block has been
put back will get one; and the mutexes are never waited for in a circle. -/
theorem trymalloc_free_synchronised {mm : EmMemmng}
    {labels : List (Thread × MallocAction)} {state : MallocThreads Thread}
    (run : Run Step (start mm) labels state) :
    (∀ thread after, Step state (thread, .broadcast) after →
      (∀ other, (state.place other).unheard = false) ∧
        ∀ other, after.shared.waiting other = false) ∧
      (∀ thread, state.shared.freed thread = true → state.Relying thread →
        ∃ other, (state.place other).announcing = true) ∧
      ¬ state.Deadlocked := by
  have sync := Synchronised.of_run run
  refine ⟨?_, sync.announced, sync.not_deadlocked⟩
  intro thread after taken
  have heard := @Synchronised.heard _ _ sync thread
  obtain ⟨shared, place⟩ := state
  cases taken with
  | move moved =>
      dsimp only at moved
      generalize here : place thread = old at moved
      cases moved with
      | broadcast => exact ⟨heard here, fun _ => rfl⟩

/-- A caller whose request fails goes to sleep just before another thread
announces a freed block. -/
theorem trymalloc_free_synchronised_two_threads :
    ∃ state : MallocThreads (Fin 2), state.Relying 0 ∧
      state.shared.freed 0 = true ∧
      (∀ thread after, Step state (thread, .broadcast) after →
        (∀ other, (state.place other).unheard = false) ∧
          ∀ other, after.shared.waiting other = false) ∧
        (∀ thread, state.shared.freed thread = true →
          state.Relying thread →
            ∃ other, (state.place other).announcing = true) ∧
        ¬ state.Deadlocked := by
  have failing : emMallocUnlocked default 0 = (emErrParam, none, default) :=
    rfl
  have run : ∃ state : MallocThreads (Fin 2), Run Step (start default)
      [(0, .call), (0, .lock .mutex), (0, .attempt), (0, .lock .condMutex),
        (0, .unlock .mutex), (1, .call), (1, .lock .mutex), (1, .free),
        (0, .wait), (1, .lock .condMutex)] state ∧
      state.Relying 0 ∧ state.shared.freed 0 = true := by
    refine ⟨_, .cons (.move (@MallocProgram.tryCall _ _ _ _ _ ⟨0, 100, none⟩))
      <| .cons (.move (.tryLock rfl)) <|
      .cons (.move (.tryFail failing (by decide) (by decide))) <|
      .cons (.move (.condLock rfl)) <| .cons (.move .mutexUnlock) <|
      .cons (.move (@MallocProgram.freeCall _ _ _ _ _ 0)) <|
      .cons (.move (.freeLock rfl)) <| .cons (.move .free) <|
      .cons (.move .wait) <| .cons (.move (.freeCondLock rfl)) .nil, ?_⟩
    exact ⟨Or.inr rfl, rfl⟩
  obtain ⟨state, run, relying, isFreed⟩ := run
  exact ⟨state, relying, isFreed, trymalloc_free_synchronised run⟩

end MallocThreads

end EmbeddedMiddle
