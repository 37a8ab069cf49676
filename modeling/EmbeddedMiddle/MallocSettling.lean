import EmbeddedMiddle.Foundation.Settling
import EmbeddedMiddle.MallocSharing

/-!
# The end of the calls of the allocator

Without new calls, timeouts and failing waits the threads in `em_malloc`,
`em_trymalloc` and `em_free` come to a state in which nobody can go on.  Who
has not returned then sleeps in `em_trymalloc`, and the heap could not serve it.
-/

namespace EmbeddedMiddle

open Foundation EmMemmng

universe u

namespace MallocPlace

/-- A call has not returned. -/
def active : MallocPlace → Bool
  | outside _ => false
  | _ => true

end MallocPlace

/-- Steps that are left to the threads themselves. -/
def MallocAction.own : MallocAction → Bool
  | call | timeout => false
  | _ => true

namespace MallocThreads

variable {Thread : Type u} [DecidableEq Thread]

/-- The threads go on with their calls; no wait fails. -/
def OwnStep (before : MallocThreads Thread) (label : Thread × MallocAction)
    (after : MallocThreads Thread) : Prop :=
  Step before label after ∧ label.2.own = true ∧
    ∀ frame, after.place label.1 = .woken frame →
      ∃ frame, before.place label.1 = .sleeping frame

/-- Nobody can go on but by a new call, a timeout or a wake-up without a
broadcast. -/
abbrev Stuck (state : MallocThreads Thread) : Prop :=
  Threads.Stuck MallocProgram (fun action => action.own = true) state

/-- Both mutexes are free, and all calls that have not returned sleep; since
their last attempts nothing has been given back. -/
def Settled (state : MallocThreads Thread) : Prop :=
  (∀ lock, state.shared.owner lock = none) ∧ ∀ thread,
    match state.place thread with
    | .outside _ => True
    | .sleeping _ => state.shared.waiting thread = true ∧
        state.shared.freed thread = false
    | _ => False

/-! ## Who can go on -/

section Moves

variable (thread : Thread) (shared : MallocShared Thread) {place : MallocPlace}

/-- The owner of `cond_mutex` waits for nobody. -/
theorem condMutex_moves (holds : place.holds .condMutex = true) :
    ∃ action next new, action.own = true ∧
      MallocProgram thread shared place action next new := by
  cases place with
  | condLocked frame => exact ⟨.unlock .mutex, _, _, rfl, .mutexUnlock⟩
  | mutexUnlocked frame => exact ⟨.wait, _, _, rfl, .wait⟩
  | woken frame => exact ⟨.unlock .condMutex, _, _, rfl, .condUnlock⟩
  | freeCondLocked => exact ⟨.broadcast, _, _, rfl, .broadcast⟩
  | broadcasted => exact ⟨.unlock .condMutex, _, _, rfl, .freeCondUnlock⟩
  | _ => cases holds

/-- The owner of `mutex` waits for `cond_mutex` at most. -/
theorem mutex_moves (free : shared.owner .condMutex = none)
    (holds : place.holds .mutex = true) :
    ∃ action next new, action.own = true ∧
      MallocProgram thread shared place action next new := by
  cases place with
  | mallocLocked size => exact ⟨.attempt, _, _, rfl, .mallocAttempt⟩
  | tryLocked frame =>
      rcases result : emMallocUnlocked shared.mm frame.size with
        ⟨mallocRet, ret, after⟩
      by_cases succeeds : mallocRet = emSuccess
      · rw [succeeds] at result
        exact ⟨.attempt, _, _, rfl, .trySucceed result⟩
      · by_cases noWait : frame.timeoutMs = emNoWait
        · exact ⟨.attempt, _, _, rfl, .tryNoWait result succeeds noWait⟩
        · exact ⟨.attempt, _, _, rfl, .tryFail result succeeds noWait⟩
  | leaving ret => exact ⟨.unlock .mutex, _, _, rfl, .leave⟩
  | failed frame => exact ⟨.lock .condMutex, _, _, rfl, .condLock free⟩
  | condLocked frame => exact ⟨.unlock .mutex, _, _, rfl, .mutexUnlock⟩
  | freeLocked addr => exact ⟨.free, _, _, rfl, .free⟩
  | freed => exact ⟨.lock .condMutex, _, _, rfl, .freeCondLock free⟩
  | freeCondLocked => exact ⟨.broadcast, _, _, rfl, .broadcast⟩
  | broadcasted => exact ⟨.unlock .condMutex, _, _, rfl, .freeCondUnlock⟩
  | freeCondUnlocked => exact ⟨.unlock .mutex, _, _, rfl, .freeUnlock⟩
  | _ => cases holds

/-- With both mutexes free only waiters of `cond` cannot go on. -/
theorem free_moves (free : ∀ lock, shared.owner lock = none)
    (lockless : ∀ lock, place.holds lock = false)
    (inside : ∀ ret, place ≠ .outside ret)
    (awake : ∀ frame, place = .sleeping frame →
      shared.waiting thread = false) :
    ∃ action next new, action.own = true ∧
      MallocProgram thread shared place action next new := by
  cases place with
  | outside ret => exact absurd rfl (inside ret)
  | mallocCalled size =>
      exact ⟨.lock .mutex, _, _, rfl, .mallocLock (free .mutex)⟩
  | tryCalled frame => exact ⟨.lock .mutex, _, _, rfl, .tryLock (free .mutex)⟩
  | freeCalled addr => exact ⟨.lock .mutex, _, _, rfl, .freeLock (free .mutex)⟩
  | sleeping frame =>
      exact ⟨.wake, _, _, rfl, .wake (awake frame rfl) (free .condMutex)⟩
  | checking frame => exact ⟨.check _, _, _, rfl, .giveUp (Int.le_refl _)⟩
  | mutexUnlocked _ | woken _ => cases lockless .condMutex
  | _ => cases lockless .mutex

end Moves

theorem Synchronised.settled {state : MallocThreads Thread}
    (sync : state.Synchronised) (stuck : Stuck state) : Settled state := by
  have condMutex : state.shared.owner .condMutex = none := by
    apply stuck.free sync.owned
    intro thread holds
    exact condMutex_moves thread state.shared holds
  have mutex : state.shared.owner .mutex = none := by
    apply stuck.free sync.owned
    intro thread holds
    exact mutex_moves thread state.shared condMutex holds
  have free : ∀ lock, state.shared.owner lock = none := by
    intro lock
    cases lock with
    | mutex => exact mutex
    | condMutex => exact condMutex
  have lockless : ∀ thread lock, (state.place thread).holds lock = false := by
    intro thread lock
    by_contra holds
    have owns :=
      (sync.owned thread lock).mp (Bool.eq_true_of_not_eq_false holds)
    rw [free lock] at owns
    cases owns
  have cannot : ∀ thread, ¬ ∃ action next new, action.own = true ∧
      MallocProgram thread state.shared (state.place thread) action next
        new := by
    rintro thread ⟨action, next, new, isOwn, moved⟩
    exact stuck thread action next new isOwn moved
  have rests : ∀ thread, (∃ ret, state.place thread = .outside ret) ∨
      ∃ frame, state.place thread = .sleeping frame ∧
        state.shared.waiting thread = true := by
    intro thread
    by_contra elsewhere
    push Not at elsewhere
    apply cannot thread
    refine free_moves thread state.shared free (lockless thread) elsewhere.1 ?_
    intro frame here
    exact Bool.eq_false_of_not_eq_true (elsewhere.2 frame here)
  refine ⟨free, ?_⟩
  intro thread
  rcases rests thread with ⟨ret, here⟩ | ⟨frame, here, waits⟩
  · rw [here]
    trivial
  · rw [here]
    refine ⟨waits, Bool.eq_false_of_not_eq_true ?_⟩
    intro isFreed
    obtain ⟨other, announces⟩ :=
      sync.announced thread isFreed (.inr waits)
    rcases rests other with ⟨ret, there⟩ | ⟨frame, there, _⟩ <;>
    · rw [there] at announces
      cases announces

/-! ## How long it takes -/

/-- The steps to the end of a call of a thread that waits for `cond` or does
not; a broadcast may wake all threads, and each tries once more. -/
def rank (threads : ℕ) : MallocPlace × Bool → ℕ
  | (.outside _, _) | (.sleeping _, true) => 0
  | (.mutexUnlocked _, _) | (.leaving _, _) | (.freeCondUnlocked, _) => 1
  | (.condLocked _, _) | (.mallocLocked _, _) | (.broadcasted, _) => 2
  | (.failed _, _) | (.mallocCalled _, _) => 3
  | (.tryLocked _, _) => 4
  | (.tryCalled _, _) => 5
  | (.checking _, _) => 6
  | (.woken _, _) => 7
  | (.sleeping _, false) => 8
  | (.freeCondLocked, _) => 8 * threads + 3
  | (.freed, _) => 8 * threads + 4
  | (.freeLocked _, _) => 8 * threads + 5
  | (.freeCalled _, _) => 8 * threads + 6

theorem rank_awake (threads : ℕ) (place : MallocPlace) (waiting : Bool) :
    rank threads (place, false) ≤ rank threads (place, waiting) + 8 := by
  cases place with
  | sleeping frame => cases waiting <;> simp [rank]
  | _ => simp [rank]

theorem rank_le (threads : ℕ) (place : MallocPlace) (waiting : Bool) :
    rank threads (place, waiting) ≤ 8 * threads + 8 := by
  cases place with
  | sleeping frame => cases waiting <;> simp [rank]
  | _ => simp only [rank]; omega

variable [Fintype Thread]

/-- What all threads together still have to do. -/
def work (state : MallocThreads Thread) : ℕ :=
  Threads.remaining (rank (Fintype.card Thread))
    (Threads.beds state.place state.shared.waiting)

theorem work_lowers (before : MallocThreads Thread)
    (label : Thread × MallocAction) (after : MallocThreads Thread)
    (taken : OwnStep before label after) : work after < work before := by
  obtain ⟨⟨mm, owner, waiting, freed⟩, places⟩ := before
  obtain ⟨taken, own, noFailure⟩ := taken
  cases taken with
  | @move thread action shared place moved =>
      dsimp only at moved own noFailure
      rw [Function.update_self] at noFailure
      generalize here : places thread = old at moved noFailure
      cases moved with
      | mallocCall | tryCall | freeCall | timeout _ => cases own
      | waitFailed =>
          obtain ⟨frame, impossible⟩ := noFailure _ rfl
          cases impossible
      | broadcast =>
          refine Threads.remaining_broadcast here (rank_awake _) ?_
          simp only [rank]
          omega
      | wait =>
          apply Threads.remaining_move here
          · intro other different
            exact Function.update_of_ne different _ _
          · simp [rank]
      | wake awake _ =>
          apply Threads.remaining_move here (fun _ _ => rfl)
          simp [rank, awake]
      | _ =>
          exact Threads.remaining_move here (fun _ _ => rfl) (by simp [rank])

omit [DecidableEq Thread] in
theorem work_le (state : MallocThreads Thread) :
    work state ≤ (8 * Fintype.card Thread + 8) *
      Threads.count MallocPlace.active state.place := by
  apply Threads.remaining_beds_le (rank_le _)
  intro place asleep returned
  cases place with
  | outside ret => rfl
  | _ => cases returned

end MallocThreads

namespace MallocThreads

variable {Thread : Type u} [DecidableEq Thread]

/-- Who could go on by a failing wait could wait as well. -/
theorem stuck_of_last {state : MallocThreads Thread}
    (last : ∀ label next, ¬ OwnStep state label next) : Stuck state := by
  obtain ⟨⟨mm, owner, waiting, freed⟩, places⟩ := state
  intro thread action shared place isOwn moved
  apply last (thread, action) ⟨shared, _⟩
  refine ⟨.move moved, isOwn, ?_⟩
  intro frame isWoken
  dsimp only at moved isWoken ⊢
  rw [Function.update_self] at isWoken
  subst isWoken
  generalize here : places thread = old at moved
  cases moved with
  | waitFailed =>
      exfalso
      have slept : MallocProgram thread ⟨mm, owner, waiting, freed⟩
          (places thread) .wait
          ⟨mm, Function.update owner .condMutex none,
            Function.update waiting thread true, freed⟩
          (.sleeping frame) := by
        rw [here]
        exact .wait
      refine last (thread, .wait) _ ⟨.move slept, rfl, ?_⟩
      intro frame isWoken
      dsimp only at isWoken
      rw [Function.update_self] at isWoken
      cases isWoken
  | wake _ _ => exact ⟨_, rfl⟩

/-- In every state that threads can reach, the calls in progress return or fall
asleep after a bounded number of steps; a broadcast makes every sleeper try
once more.  When nobody can go on, both mutexes are free, and who has not
returned sleeps since an attempt after which nothing has been given back. -/
theorem heap_calls_settle [Fintype Thread] {mm : EmMemmng}
    {labels : List (Thread × MallocAction)} {state : MallocThreads Thread}
    (run : Run Step (start mm) labels state) :
    (∀ further last, Run OwnStep state further last →
      further.length ≤ (8 * Fintype.card Thread + 8) *
        Threads.count MallocPlace.active state.place) ∧
      (Stuck state → Settled state) ∧
      ∃ further last, Run OwnStep state further last ∧ Settled last := by
  have sync := Synchronised.of_run run
  have lowers : ∀ before (label : Thread × MallocAction) after,
      OwnStep before label after → True → work after < work before :=
    fun before label after taken _ => work_lowers before label after taken
  refine ⟨?_, sync.settled, ?_⟩
  · intro further last goesOn
    have bounded := goesOn.length_le lowers fun _ _ => trivial
    have few := work_le state
    omega
  · obtain ⟨further, last, goesOn, _, noMore⟩ := Run.exists_last lowers state
    have syncLast := goesOn.invariant Synchronised sync
      fun before label after sync taken => sync.step taken.1
    exact ⟨further, last, goesOn, syncLast.settled
      (stuck_of_last fun label next => noMore label next trivial)⟩

/-- A thread is going to sleep while another one is about to release. -/
theorem heap_calls_settle_two :
    ∃ state : MallocThreads (Fin 2), Run Step (start default)
        [(0, .call), (0, .lock .mutex), (0, .attempt), (0, .lock .condMutex),
          (0, .unlock .mutex), (1, .call)] state ∧
      ∃ further last, Run OwnStep state further last ∧ Settled last := by
  have failing : emMallocUnlocked default 0 = (emErrParam, none, default) :=
    rfl
  have run : ∃ state : MallocThreads (Fin 2), Run Step (start default)
      [(0, .call), (0, .lock .mutex), (0, .attempt), (0, .lock .condMutex),
        (0, .unlock .mutex), (1, .call)] state :=
    ⟨_, .cons (.move (@MallocProgram.tryCall _ _ _ _ _ ⟨0, 100, none⟩)) <|
      .cons (.move (.tryLock rfl)) <|
      .cons (.move (.tryFail failing (by decide) (by decide))) <|
      .cons (.move (.condLock rfl)) <| .cons (.move .mutexUnlock) <|
      .cons (.move (@MallocProgram.freeCall _ _ _ _ _ 0)) .nil⟩
  obtain ⟨state, run⟩ := run
  exact ⟨state, run, (heap_calls_settle run).2.2⟩

end MallocThreads

/-! ## Sleepers that the heap cannot serve -/

/-- The size of the last attempt, if it failed. -/
def MallocPlace.refused : MallocPlace → Option ℕ
  | failed frame | condLocked frame | mutexUnlocked frame | sleeping frame
  | woken frame | checking frame => some frame.size
  | _ => none

theorem MallocPlace.requested_of_refused {place : MallocPlace} {size : ℕ}
    (refused : place.refused = some size) : place.requested = some size := by
  cases place with
  | failed _ | condLocked _ | mutexUnlocked _ | sleeping _ | woken _
  | checking _ => exact refused
  | _ => cases refused

theorem Heap.HasRun.of_malloc {heap : Heap} {unit bnum size count : ℕ}
    {memory : ℤ} (hasRun : (heap.malloc size).HasRun unit bnum memory count) :
    heap.HasRun unit bnum memory count := by
  obtain ⟨start, nonneg, below, uncovered⟩ := hasRun
  refine ⟨start, nonneg, below, ?_⟩
  rintro index lower upper ⟨block, member, covers⟩
  refine uncovered index lower upper ⟨block, ?_, covers⟩
  rw [Heap.malloc]
  dsimp only
  split
  · exact member
  · exact List.mem_cons_of_mem _ member

/-- What was refused once is refused again after another allocation. -/
theorem Heap.Sound.refused_again {heap : Heap} {unit bnum allocMax : ℕ}
    {memory : ℤ} (sound : heap.Sound unit bnum allocMax memory)
    (positive : 0 < unit) {size other : ℕ}
    (fits : unitCount unit size ≤ intMax)
    (otherFits : unitCount unit other ≤ intMax)
    (refused : (emMalloc heap.manager size).1 = none) :
    (emMalloc (emMalloc heap.manager other).2 size).1 = none := by
  rcases Nat.eq_zero_or_pos size with rfl | nonempty
  · rfl
  by_contra granted
  obtain ⟨_, _, _, _, shows⟩ := sound
  obtain ⟨_, _, _, _, later⟩ := Heap.Sound.malloc ⟨_, _, _, _, shows⟩
    positive otherFits
  obtain ⟨room, hasRun⟩ := (later.malloc_iff positive nonempty fits).mp granted
  apply (shows.malloc_iff positive nonempty fits).mpr _ refused
  refine ⟨?_, hasRun.of_malloc⟩
  rw [Heap.malloc] at room
  dsimp only at room
  split at room
  · exact room
  · exact Nat.lt_of_succ_lt room

namespace MallocSharing

variable {Thread : Type u} [DecidableEq Thread] {unit bnum allocMax : ℕ}
  {memory : ℤ}

/-- As long as nothing is given back, a failed attempt would fail again. -/
def Unserved (state : MallocSharing Thread) : Prop :=
  ∀ thread size, (state.threads.place thread).refused = some size →
    state.threads.shared.freed thread = false →
      (emMalloc state.threads.shared.mm size).1 = none

section Moves

variable {mm next : EmMemmng} {owner owned : MallocLock → Option Thread}
  {waiting nowWaiting freed nowFreed : Thread → Bool}
  {place : Thread → MallocPlace} {live nowLive : List (ℤ × ℕ)}
  {thread : Thread} {old new : MallocPlace}

/-- A step after which the others are refused as before. -/
theorem Unserved.moved
    (unserved : Unserved ⟨⟨⟨mm, owner, waiting, freed⟩, place⟩, live⟩)
    (again : ∀ other size, (place other).refused = some size →
      (emMalloc mm size).1 = none → (emMalloc next size).1 = none)
    (record : ∀ other, other ≠ thread → nowFreed other = freed other)
    (own : ∀ size, new.refused = some size → nowFreed thread = false →
      (emMalloc next size).1 = none) :
    Unserved ⟨⟨⟨next, owned, nowWaiting, nowFreed⟩,
      Function.update place thread new⟩, nowLive⟩ := by
  refine (Function.forall_update_iff place fun thread place => ∀ size,
    place.refused = some size → nowFreed thread = false →
      (emMalloc next size).1 = none).mpr ⟨own, ?_⟩
  intro other different size refused notFreed
  rw [record other different] at notFreed
  exact again other size refused (unserved other size refused notFreed)

/-- A step that leaves the heap alone. -/
theorem Unserved.still
    (unserved : Unserved ⟨⟨⟨mm, owner, waiting, freed⟩, place⟩, live⟩)
    (here : place thread = old)
    (own : ∀ size, new.refused = some size → old.refused = some size) :
    Unserved ⟨⟨⟨mm, owned, nowWaiting, freed⟩,
      Function.update place thread new⟩, nowLive⟩ := by
  apply unserved.moved (fun _ _ _ failed => failed) (fun _ _ => rfl)
  intro size refused notFreed
  refine unserved thread size ?_ notFreed
  dsimp only
  rw [here]
  exact own size refused

end Moves

variable {before after : MallocSharing Thread} {label : Label Thread}

theorem Unserved.step (unserved : before.Unserved)
    (kept : before.Kept unit bnum allocMax memory) (positive : 0 < unit)
    (taken : Step unit before label after) : after.Unserved := by
  obtain ⟨⟨⟨mm, owner, waiting, freed⟩, place⟩, live⟩ := before
  have requests := kept.requests
  have sound : Heap.Sound ⟨mm, live⟩ unit bnum allocMax memory := kept.sound
  dsimp only at requests
  cases taken with
  | @move thread action next new moved allowed =>
      dsimp only at moved
      have again : ∀ {size}, (place thread).requested = some size →
          ∀ other asked, (place other).refused = some asked →
            (emMalloc mm asked).1 = none →
              (emMalloc (emMalloc mm size).2 asked).1 = none := by
        intro size asks other asked refused failed
        exact sound.refused_again positive
          (requests other asked (MallocPlace.requested_of_refused refused))
          (requests thread size asks) failed
      have fits := requests thread
      generalize here : place thread = old at moved again fits
      cases moved with
      | mallocAttempt =>
          exact unserved.moved (again rfl) (fun _ _ => rfl) nofun
      | @trySucceed _ _ _ _ frame _ _ result =>
          obtain rfl : (emMalloc mm frame.size).2 = _ :=
            congrArg (fun result => result.2.2) result
          exact unserved.moved (again rfl) (fun _ _ => rfl) nofun
      | @tryNoWait _ _ _ _ frame _ _ _ result _ _ =>
          obtain rfl : (emMalloc mm frame.size).2 = _ :=
            congrArg (fun result => result.2.2) result
          exact unserved.moved (again rfl) (fun _ _ => rfl) nofun
      | @tryFail _ _ _ _ frame _ ret _ result failed _ =>
          obtain rfl : (emMalloc mm frame.size).2 = _ :=
            congrArg (fun result => result.2.2) result
          refine unserved.moved (again rfl) ?_ ?_
          · intro other different
            exact Function.update_of_ne different _ _
          · intro size refused _
            obtain rfl : frame.size = size := Option.some.inj refused
            have none : (emMalloc mm frame.size).1 = none :=
              (congrArg (fun result => result.2.1) result).trans
                (emMalloc_failed result failed)
            exact sound.refused_again positive (fits frame.size rfl)
              (fits frame.size rfl) none
      | free =>
          intro _ _ _ notFreed
          cases notFreed
      | condLock _ | mutexUnlock | wait | waitFailed | timeout _ | wake _ _
      | condUnlock =>
          exact unserved.still here fun _ refused => refused
      | _ => exact unserved.still here nofun

theorem run_unserved {heap : Heap} {labels : List (Label Thread)}
    {state : MallocSharing Thread}
    (sound : heap.Sound unit bnum allocMax memory) (positive : 0 < unit)
    (representable : bnum ≤ intMax)
    (run : Run (Step unit) (start heap) labels state) :
    state.Kept unit bnum allocMax memory ∧ state.Unserved ∧
      state.threads.Synchronised := by
  apply run.invariant fun state => state.Kept unit bnum allocMax memory ∧
    state.Unserved ∧ state.threads.Synchronised
  · exact ⟨start_kept sound, nofun, .start⟩
  · rintro before label after ⟨kept, unserved, sync⟩ taken
    refine ⟨(kept.step positive representable taken).2,
      unserved.step kept positive taken, ?_⟩
    cases taken with
    | move moved _ => exact sync.step (.move moved)

/-- Nobody sleeps for nothing: a thread whose attempt failed, and since whose
attempt nothing has been given back, could not be served by the heap, whatever
the others have allocated meanwhile.  When nobody can go on, that holds of all
calls that have not returned. -/
theorem sleepers_unserved (mm : EmMemmng) (unit bnum allocMax : ℕ)
    (origin : Option ℤ) (regions : EmMemmngRegions)
    (positive : 1 ≤ unit) (blocks : 1 ≤ bnum) (nonempty : 1 ≤ allocMax)
    (arena : unit * bnum ≤ intMax) (representable : allocMax ≤ intMax)
    (fit : PoolsFit origin allocMax) {labels : List (Label Thread)}
    {state : MallocSharing Thread}
    (run : Run (Step unit)
      (start (Heap.created mm unit bnum allocMax origin regions)) labels
      state) :
    state.Unserved ∧ (MallocThreads.Stuck state.threads → ∀ thread,
      (∃ ret, state.threads.place thread = .outside ret) ∨
        ∃ frame, state.threads.place thread = .sleeping frame ∧
          (emMalloc state.threads.shared.mm frame.size).1 = none) := by
  have indices : bnum ≤ intMax :=
    (Nat.le_mul_of_pos_left bnum positive).trans arena
  obtain ⟨_, unserved, sync⟩ := run_unserved
    (Heap.created_sound mm blocks nonempty representable fit regions)
    positive indices run
  refine ⟨unserved, ?_⟩
  intro stuck thread
  have settled := (sync.settled stuck).2 thread
  cases here : state.threads.place thread with
  | outside ret => exact .inl ⟨ret, rfl⟩
  | sleeping frame =>
      rw [here] at settled
      refine .inr ⟨frame, rfl, unserved thread frame.size ?_ settled.2⟩
      rw [here]
      rfl
  | _ =>
      rw [here] at settled
      exact settled.elim

/-- One thread holds the arena while another one sleeps for a unit. -/
theorem sleepers_unserved_two :
    ∃ (labels : List (Label (Fin 2))) (state : MallocSharing (Fin 2)),
      Run (Step 16)
        (start (Heap.created default 16 3 4 none ⟨1000, 2000, 5000⟩)) labels
        state ∧
      (state.threads.place 1).refused = some 16 ∧ state.Unserved ∧
      (MallocThreads.Stuck state.threads → ∀ thread,
        (∃ ret, state.threads.place thread = .outside ret) ∨
          ∃ frame, state.threads.place thread = .sleeping frame ∧
            (emMalloc state.threads.shared.mm frame.size).1 = none) := by
  have run : ∃ (labels : List (Label (Fin 2))) (state : MallocSharing (Fin 2)),
      Run (Step 16)
        (start (Heap.created default 16 3 4 none ⟨1000, 2000, 5000⟩)) labels
        state ∧
      (state.threads.place 1).refused = some 16 := by
    refine ⟨_, _, .cons (.move_of_eq 0 rfl
        (@MallocProgram.mallocCall _ _ _ _ _ 48)
        (.request rfl rfl (by decide))) <|
      .cons (.move_of_eq 0 rfl (.mallocLock rfl) (.inside nofun nofun)) <|
      .cons (.move_of_eq 0 rfl .mallocAttempt (.inside nofun nofun)) <|
      .cons (.move_of_eq 0 rfl .leave (.inside nofun nofun)) <|
      .cons (.move_of_eq 1 rfl
        (@MallocProgram.tryCall _ _ _ _ _ ⟨16, 100, none⟩)
        (.request rfl rfl (by decide))) <|
      .cons (.move_of_eq 1 rfl (.tryLock rfl) (.inside nofun nofun)) <|
      .cons (.move_of_eq 1 rfl
        (.tryFail rfl (by decide +kernel) (by decide))
        (.inside nofun nofun)) <|
      .cons (.move_of_eq 1 rfl (.condLock rfl) (.inside nofun nofun)) <|
      .cons (.move_of_eq 1 rfl .mutexUnlock (.inside nofun nofun)) <|
      .cons (.move_of_eq 1 rfl .wait (.inside nofun nofun)) .nil, rfl⟩
  obtain ⟨labels, state, run, refused⟩ := run
  exact ⟨labels, state, run, refused, sleepers_unserved default 16 3 4 none
    ⟨1000, 2000, 5000⟩ (by decide) (by decide) (by decide) (by decide)
    (by decide) (by decide) run⟩

end MallocSharing

end EmbeddedMiddle
