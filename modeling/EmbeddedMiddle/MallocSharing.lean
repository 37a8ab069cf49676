import EmbeddedMiddle.MallocHeap
import EmbeddedMiddle.MallocThreads
import EmbeddedMiddle.MallocTimeout

/-!
# Threads that share the heap

The interleaved calls of `em_malloc`, `em_trymalloc` and `em_free` together
with the blocks that are live.  What the threads do under `mutex` is, in the
order of the critical sections, a run of the allocator with single calls; a
pointer that a call is about to return, or that is on its way to being
released, stays live and belongs to that call alone.
-/

namespace EmbeddedMiddle

open Foundation EmMemmng

universe u

namespace MallocPlace

/-- The block that the call at this place is about to hand out or to take
back. -/
def claimed : MallocPlace → Option ℤ
  | leaving ret => ret
  | freeCalled addr | freeLocked addr => some addr
  | _ => none

/-- The size that the call at this place may still ask for. -/
def requested : MallocPlace → Option ℕ
  | mallocCalled size | mallocLocked size => some size
  | tryCalled frame | tryLocked frame | failed frame | condLocked frame
  | mutexUnlocked frame | sleeping frame | woken frame | checking frame =>
      some frame.size
  | _ => none

/-- The call of the allocator in a step. -/
def events (mm : EmMemmng) : MallocPlace → MallocAction → List HeapEvent
  | mallocLocked size, .attempt => [.malloc size (emMalloc mm size).1]
  | tryLocked frame, .attempt =>
      [.malloc frame.size (emMalloc mm frame.size).1]
  | freeLocked addr, .free => [.free addr]
  | _, _ => []

end MallocPlace

/-- What one step of a thread is for the heap. -/
inductive MallocEffect (mm : EmMemmng) (old : MallocPlace) :
    MallocAction → EmMemmng → MallocPlace → Prop where
  | call {ret : Option ℤ} {new : MallocPlace} : old = .outside ret →
      MallocEffect mm old .call mm new
  | quiet {action : MallocAction} {new : MallocPlace} :
      old.events mm action = [] →
      (∀ addr, new.claimed = some addr → old.claimed = some addr) →
      (∀ size, new.requested = some size → old.requested = some size) →
      MallocEffect mm old action mm new
  | attempt {size : ℕ} {new : MallocPlace} :
      old.events mm .attempt = [.malloc size (emMalloc mm size).1] →
      old.requested = some size →
      new.claimed = (emMalloc mm size).1 →
      (∀ size, new.requested = some size → old.requested = some size) →
      MallocEffect mm old .attempt (emMalloc mm size).2 new
  | free {addr : ℤ} : old = .freeLocked addr →
      MallocEffect mm old .free (emFree mm addr) .freed

/-- An attempt that does not succeed stores no pointer. -/
theorem emMalloc_failed {mm after : EmMemmng} {size : ℕ} {mallocRet : ℤ}
    {ret : Option ℤ}
    (result : emMallocUnlocked mm size = (mallocRet, ret, after))
    (failed : mallocRet ≠ emSuccess) : ret = none := by
  have stored := @emMallocUnlocked_success_iff mm size
  rw [result] at stored
  by_contra pointer
  exact failed (stored.mpr pointer)

theorem MallocProgram.effect {Thread : Type u} [DecidableEq Thread]
    {thread : Thread} {shared next : MallocShared Thread}
    {old new : MallocPlace} {action : MallocAction}
    (moved : MallocProgram thread shared old action next new) :
    MallocEffect shared.mm old action next.mm new := by
  cases moved with
  | mallocCall | tryCall | freeCall => exact .call rfl
  | mallocAttempt => exact .attempt rfl rfl rfl nofun
  | @trySucceed mm _ _ _ frame ret after result =>
      have same : emMalloc mm frame.size = (ret, after) :=
        congrArg Prod.snd result
      have effect := @MallocEffect.attempt mm (.tryLocked frame) frame.size
        (.leaving ret) rfl rfl (congrArg Prod.fst same).symm nofun
      rwa [same] at effect
  | @tryNoWait mm _ _ _ frame _ ret after result =>
      have same : emMalloc mm frame.size = (ret, after) :=
        congrArg Prod.snd result
      have effect := @MallocEffect.attempt mm (.tryLocked frame) frame.size
        (.leaving ret) rfl rfl (congrArg Prod.fst same).symm nofun
      rwa [same] at effect
  | @tryFail mm _ _ _ frame _ ret after result failed _ =>
      have same : emMalloc mm frame.size = (ret, after) :=
        congrArg Prod.snd result
      have none : (emMalloc mm frame.size).1 = none := by
        rw [same]
        exact emMalloc_failed result failed
      have effect := @MallocEffect.attempt mm (.tryLocked frame) frame.size
        (.failed { frame with ret }) rfl rfl none.symm fun _ asked => asked
      rwa [same] at effect
  | free => exact .free rfl
  | leave | giveUp _ =>
      refine .quiet ?_ nofun nofun
      rfl
  | _ =>
      refine .quiet ?_ (fun _ claimed => claimed) fun _ asked => asked
      rfl

/-! ## The shared heap -/

/-- The threads and the blocks that have been allocated and not released. -/
structure MallocSharing (Thread : Type u) where
  threads : MallocThreads Thread
  live : List (ℤ × ℕ)

namespace MallocSharing

variable {Thread : Type u}

def heap (state : MallocSharing Thread) : Heap :=
  ⟨state.threads.shared.mm, state.live⟩

def start (heap : Heap) : MallocSharing Thread :=
  ⟨MallocThreads.start heap.manager, heap.live⟩

/-- A step with the call of the allocator in it. -/
abbrev Label (Thread : Type u) := (Thread × MallocAction) × List HeapEvent

/-- The live blocks after a step. -/
def liveAfter (heap : Heap) : List HeapEvent → List (ℤ × ℕ)
  | .malloc size _ :: _ => (heap.malloc size).live
  | .free addr :: _ => (heap.free addr).live
  | [] => heap.live

/-- What callers have to keep to: they ask for an `int` of units, and they
release live blocks that no other call is about to return or releases.  The
release itself must read a right back link. -/
structure Allowed (unit : ℕ) (before : MallocSharing Thread) (thread : Thread)
    (action : MallocAction) (new : MallocPlace) : Prop where
  requests : action = .call → ∀ size, new.requested = some size →
    unitCount unit size ≤ intMax
  releases : action = .call → ∀ addr, new.claimed = some addr →
    addr ∈ before.live.map Prod.fst ∧
      ∀ other, (before.threads.place other).claimed ≠ some addr
  linked : action = .free → ∀ addr,
    before.threads.place thread = .freeLocked addr →
      before.heap.Linked (.free addr)

variable [DecidableEq Thread]

inductive Step (unit : ℕ) :
    MallocSharing Thread → Label Thread → MallocSharing Thread → Prop where
  | move {state : MallocSharing Thread} {thread : Thread}
      {action : MallocAction} {next : MallocShared Thread}
      {new : MallocPlace} :
      MallocProgram thread state.threads.shared (state.threads.place thread)
        action next new →
      Allowed unit state thread action new →
      Step unit state
        ((thread, action), (state.threads.place thread).events
          state.threads.shared.mm action)
        ⟨⟨next, Function.update state.threads.place thread new⟩,
          liveAfter state.heap ((state.threads.place thread).events
            state.threads.shared.mm action)⟩

/-! ## What every step keeps -/

structure Kept (unit bnum allocMax : ℕ) (memory : ℤ)
    (state : MallocSharing Thread) : Prop where
  sound : state.heap.Sound unit bnum allocMax memory
  requests : ∀ thread size,
    (state.threads.place thread).requested = some size →
      unitCount unit size ≤ intMax
  live : ∀ thread addr,
    (state.threads.place thread).claimed = some addr →
      addr ∈ state.live.map Prod.fst
  alone : ∀ one other addr, (state.threads.place one).claimed = some addr →
    (state.threads.place other).claimed = some addr → one = other

end MallocSharing

/-- A new block does not begin where a live one does. -/
theorem Heap.Sound.malloc_new {heap : Heap} {unit bnum allocMax : ℕ}
    {memory : ℤ} (sound : heap.Sound unit bnum allocMax memory)
    (positive : 0 < unit) {size : ℕ} (fits : unitCount unit size ≤ intMax)
    {addr : ℤ} (returned : (emMalloc heap.manager size).1 = some addr) :
    (heap.malloc size).live = (addr, size) :: heap.live ∧
      addr ∉ heap.live.map Prod.fst := by
  have grown : (heap.malloc size).live = (addr, size) :: heap.live := by
    simp only [Heap.malloc, returned]
  obtain ⟨regions, cells, used, free, shows⟩ := sound.malloc positive fits
  have apart := shows.apart positive
  have nonempty := shows.nonempty
  rw [Heap.Apart, grown, List.pairwise_cons] at apart
  rw [grown] at nonempty
  refine ⟨grown, ?_⟩
  intro known
  obtain ⟨block, member, same⟩ := List.mem_map.mp known
  have lies := apart.1 block member
  have first := nonempty (addr, size) (by simp)
  have second := nonempty block (by simp [member])
  dsimp only at lies first
  omega

theorem Heap.free_live_of_ne {heap : Heap} {addr other : ℤ}
    (isLive : other ∈ heap.live.map Prod.fst) (different : other ≠ addr) :
    other ∈ (heap.free addr).live.map Prod.fst := by
  obtain ⟨block, member, rfl⟩ := List.mem_map.mp isLive
  refine List.mem_map_of_mem ((List.mem_eraseP_of_neg ?_).mpr member)
  simpa using different

namespace MallocSharing

variable {Thread : Type u} [DecidableEq Thread] {unit bnum allocMax : ℕ}
  {memory : ℤ}

section Moves

variable {shared next : MallocShared Thread} {place : Thread → MallocPlace}
  {live nowLive : List (ℤ × ℕ)} {thread : Thread} {new : MallocPlace}

/-- The claims of the other threads have to outlive the step, and a new claim
must be theirs no longer. -/
theorem Kept.moved
    (kept : Kept unit bnum allocMax memory ⟨⟨shared, place⟩, live⟩)
    (sound : Heap.Sound ⟨next.mm, nowLive⟩ unit bnum allocMax memory)
    (requests : ∀ size, new.requested = some size →
      unitCount unit size ≤ intMax)
    (claims : ∀ addr, new.claimed = some addr →
      addr ∈ nowLive.map Prod.fst ∧
        ∀ other, other ≠ thread → (place other).claimed ≠ some addr)
    (others : ∀ other, other ≠ thread → ∀ addr,
      (place other).claimed = some addr → addr ∈ nowLive.map Prod.fst) :
    Kept unit bnum allocMax memory
      ⟨⟨next, Function.update place thread new⟩, nowLive⟩ := by
  refine ⟨sound, ?_, ?_, ?_⟩
  · exact (Function.forall_update_iff place fun _ place => ∀ size,
      place.requested = some size → unitCount unit size ≤ intMax).mpr
        ⟨requests, fun other _ => kept.requests other⟩
  · exact (Function.forall_update_iff place fun _ place => ∀ addr,
      place.claimed = some addr → addr ∈ nowLive.map Prod.fst).mpr
        ⟨fun addr claimed => (claims addr claimed).1, others⟩
  · intro one other addr
    dsimp only
    by_cases first : one = thread <;> by_cases second : other = thread
    · intro _ _
      rw [first, second]
    · rw [first, Function.update_self, Function.update_of_ne second]
      intro mine theirs
      exact absurd theirs ((claims addr mine).2 other second)
    · rw [second, Function.update_self, Function.update_of_ne first]
      intro theirs mine
      exact absurd theirs ((claims addr mine).2 one first)
    · rw [Function.update_of_ne first, Function.update_of_ne second]
      exact kept.alone one other addr

/-- A step that leaves the heap alone and claims nothing new. -/
theorem Kept.still
    (kept : Kept unit bnum allocMax memory ⟨⟨shared, place⟩, live⟩)
    (mm_eq : next.mm = shared.mm)
    (requests : ∀ size, new.requested = some size →
      unitCount unit size ≤ intMax)
    (claims : ∀ addr, new.claimed = some addr →
      addr ∈ live.map Prod.fst ∧
        ∀ other, other ≠ thread → (place other).claimed ≠ some addr) :
    Kept unit bnum allocMax memory
      ⟨⟨next, Function.update place thread new⟩, live⟩ := by
  apply kept.moved _ requests claims fun other _ => kept.live other
  rw [mm_eq]
  exact kept.sound

end Moves

variable {before after : MallocSharing Thread} {label : Label Thread}

/-- The calls of the allocator in a step are calls that the heap allows. -/
theorem Kept.step (kept : before.Kept unit bnum allocMax memory)
    (positive : 0 < unit) (representable : bnum ≤ intMax)
    (taken : Step unit before label after) :
    Run (Guarded Heap.Linked (Heap.Step unit)) before.heap label.2
        after.heap ∧ after.Kept unit bnum allocMax memory := by
  obtain ⟨⟨shared, place⟩, live⟩ := before
  cases taken with
  | @move thread action next new moved allowed =>
      have effect := moved.effect
      obtain ⟨requests, releases, linked⟩ := allowed
      have requested := kept.requests thread
      have claimed := kept.live thread
      have alone := fun addr other => kept.alone other thread addr
      have sound := kept.sound
      dsimp only [heap] at *
      generalize place thread = old at *
      obtain ⟨mm, owner, waiting, freed⟩ := next
      dsimp only at effect
      cases effect with
      | call isOutside =>
          subst isOutside
          refine ⟨.nil, kept.still rfl (requests rfl) ?_⟩
          intro addr mine
          obtain ⟨isLive, unclaimed⟩ := releases rfl addr mine
          exact ⟨isLive, fun other _ => unclaimed other⟩
      | quiet silent unclaimed unasked =>
          rw [silent]
          refine ⟨.nil, kept.still rfl ?_ ?_⟩
          · intro size asked
            exact requested size (unasked size asked)
          · intro addr mine
            have isMine := unclaimed addr mine
            refine ⟨claimed addr isMine, ?_⟩
            intro other different theirs
            exact different (alone addr other theirs isMine)
      | @attempt size _ shown asked returned unasked =>
          have fits := requested size asked
          rw [shown]
          refine ⟨.cons ⟨trivial, .malloc fits⟩ .nil,
            kept.moved (sound.malloc positive fits) ?_ ?_ ?_⟩
          · intro size asked
            exact requested size (unasked size asked)
          · intro addr mine
            obtain ⟨grown, isNew⟩ := sound.malloc_new positive fits
              (returned.symm.trans mine)
            rw [liveAfter, grown]
            refine ⟨List.mem_cons_self, ?_⟩
            intro other _ theirs
            exact isNew (kept.live other addr theirs)
          · intro other _ addr theirs
            have isLive := kept.live other addr theirs
            rw [liveAfter, Heap.malloc]
            dsimp only
            split
            · exact isLive
            · exact List.mem_cons_of_mem _ isLive
      | @free addr isLocked =>
          subst isLocked
          have isLive := claimed addr rfl
          have freed : Guarded Heap.Linked (Heap.Step unit)
              ⟨shared.mm, live⟩ (.free addr) _ :=
            ⟨linked rfl addr rfl, .free isLive⟩
          refine ⟨.cons freed .nil,
            kept.moved (sound.step positive representable freed) ?_ ?_ ?_⟩
          · intro size asked
            cases asked
          · intro block mine
            cases mine
          · intro other different block theirs
            have isOther : block ≠ addr := by
              rintro rfl
              exact different (alone block other theirs rfl)
            exact Heap.free_live_of_ne (kept.live other block theirs) isOther

omit [DecidableEq Thread] in
theorem start_kept {heap : Heap}
    (sound : heap.Sound unit bnum allocMax memory) :
    (start heap : MallocSharing Thread).Kept unit bnum allocMax memory :=
  ⟨sound, nofun, nofun, nofun⟩

/-- Every run of the threads is a run of single calls on the same heap. -/
theorem run_calls {heap : Heap} {labels : List (Label Thread)}
    {state : MallocSharing Thread}
    (sound : heap.Sound unit bnum allocMax memory) (positive : 0 < unit)
    (representable : bnum ≤ intMax)
    (run : Run (Step unit) (start heap) labels state) :
    Run (Guarded Heap.Linked (Heap.Step unit)) heap
        (labels.flatMap Prod.snd) state.heap ∧
      state.Kept unit bnum allocMax memory := by
  obtain ⟨_, calls, rfl, kept⟩ := run.refine Prod.snd
    (fun state heap => state.heap = heap ∧
      state.Kept unit bnum allocMax memory)
    ⟨rfl, start_kept sound⟩ (by
      rintro before _ label after ⟨rfl, kept⟩ taken
      obtain ⟨calls, keptAfter⟩ := kept.step positive representable taken
      exact ⟨_, calls, rfl, keptAfter⟩)
  exact ⟨calls, kept⟩

/-- However the threads take turns, their calls have the results of single
calls one after the other; live blocks lie in the arena and apart; and a block
that a call is about to return or to release is live and that call's alone. -/
theorem threads_share_heap (mm : EmMemmng) (unit bnum allocMax : ℕ)
    (origin : Option ℤ) (regions : EmMemmngRegions)
    (positive : 1 ≤ unit) (blocks : 1 ≤ bnum) (nonempty : 1 ≤ allocMax)
    (arena : unit * bnum ≤ intMax) (representable : allocMax ≤ intMax)
    (fit : PoolsFit origin allocMax) {labels : List (Label Thread)}
    {state : MallocSharing Thread}
    (run : Run (Step unit)
      (start (Heap.created mm unit bnum allocMax origin regions)) labels
      state) :
    Run (Guarded Heap.Linked (Heap.Step unit))
        (Heap.created mm unit bnum allocMax origin regions)
        (labels.flatMap Prod.snd) state.heap ∧
      state.heap.Within state.heap.manager.memory (unit * bnum) ∧
      state.heap.Apart ∧
      ∀ thread addr, (state.threads.place thread).claimed = some addr →
        addr ∈ state.live.map Prod.fst ∧
          ∀ other, (state.threads.place other).claimed = some addr →
            other = thread := by
  have indices : bnum ≤ intMax :=
    (Nat.le_mul_of_pos_left bnum positive).trans arena
  obtain ⟨calls, kept⟩ := run_calls
    (Heap.created_sound mm blocks nonempty representable fit regions)
    positive indices run
  refine ⟨calls, ?_⟩
  obtain ⟨placed, cells, used, free, shows⟩ := kept.sound
  rw [shows.geometry.memory_eq]
  refine ⟨shows.within positive, shows.apart positive, ?_⟩
  intro thread addr claimed
  refine ⟨kept.live thread addr claimed, ?_⟩
  intro other theirs
  exact kept.alone other thread addr theirs claimed

theorem Step.move_of_eq {unit : ℕ} {state : MallocSharing Thread}
    (thread : Thread) {action : MallocAction} {old new : MallocPlace}
    {next : MallocShared Thread}
    (here : state.threads.place thread = old)
    (moved : MallocProgram thread state.threads.shared old action next new)
    (allowed : Allowed unit state thread action new) :
    Step unit state
      ((thread, action), old.events state.threads.shared.mm action)
      ⟨⟨next, Function.update state.threads.place thread new⟩,
        liveAfter state.heap (old.events state.threads.shared.mm action)⟩ := by
  subst here
  exact .move moved allowed

namespace Allowed

variable {unit : ℕ} {state : MallocSharing Thread} {thread : Thread}
  {action : MallocAction} {new : MallocPlace}

omit [DecidableEq Thread] in
/-- Nothing is asked of a step inside a call that releases no block. -/
theorem inside (noCall : action ≠ .call) (noFree : action ≠ .free) :
    Allowed unit state thread action new :=
  ⟨fun isCall => absurd isCall noCall, fun isCall => absurd isCall noCall,
    fun isFree => absurd isFree noFree⟩

omit [DecidableEq Thread] in
theorem request {size : ℕ} (asked : new.requested = some size)
    (unclaimed : new.claimed = none) (fits : unitCount unit size ≤ intMax) :
    Allowed unit state thread .call new := by
  refine ⟨?_, ?_, nofun⟩
  · intro _ other also
    rw [asked] at also
    exact Option.some.inj also ▸ fits
  · intro _ addr claimed
    rw [unclaimed] at claimed
    cases claimed

omit [DecidableEq Thread] in
theorem release {addr : ℤ} (isLive : addr ∈ state.live.map Prod.fst)
    (unclaimed : ∀ other, (state.threads.place other).claimed ≠ some addr) :
    Allowed unit state thread .call (.freeCalled addr) := by
  refine ⟨nofun, ?_, nofun⟩
  intro _ other claimed
  obtain rfl := Option.some.inj claimed
  exact ⟨isLive, unclaimed⟩

omit [DecidableEq Thread] in
theorem free {addr : ℤ} (here : state.threads.place thread = .freeLocked addr)
    (linked : state.heap.Linked (.free addr)) :
    Allowed unit state thread .free new := by
  refine ⟨nofun, nofun, ?_⟩
  intro _ other also
  rw [here] at also
  exact MallocPlace.freeLocked.inj also ▸ linked

end Allowed

/-- One thread has released its block, the other is about to. -/
theorem threads_share_heap_two :
    ∃ (labels : List (Label (Fin 2))) (state : MallocSharing (Fin 2)),
      labels.flatMap Prod.snd = [.malloc 16 (some 5000),
        .malloc 32 (some 5016), .free 5000] ∧
      (state.threads.place 1).claimed = some 5016 ∧
      Run (Guarded Heap.Linked (Heap.Step 16))
        (Heap.created default 16 3 4 none ⟨1000, 2000, 5000⟩)
        (labels.flatMap Prod.snd) state.heap ∧
      state.heap.Within state.heap.manager.memory 48 ∧ state.heap.Apart ∧
      ∀ thread addr, (state.threads.place thread).claimed = some addr →
        addr ∈ state.live.map Prod.fst ∧
          ∀ other, (state.threads.place other).claimed = some addr →
            other = thread := by
  have run : ∃ (labels : List (Label (Fin 2))) (state : MallocSharing (Fin 2)),
      Run (Step 16)
        (start (Heap.created default 16 3 4 none ⟨1000, 2000, 5000⟩)) labels
        state ∧
      labels.flatMap Prod.snd = [.malloc 16 (some 5000),
        .malloc 32 (some 5016), .free 5000] ∧
      (state.threads.place 1).claimed = some 5016 := by
    refine ⟨_, _, .cons (.move_of_eq 0 rfl
        (@MallocProgram.mallocCall _ _ _ _ _ 16)
        (.request rfl rfl (by decide))) <|
      .cons (.move_of_eq 0 rfl (.mallocLock rfl) (.inside nofun nofun)) <|
      .cons (.move_of_eq 0 rfl .mallocAttempt (.inside nofun nofun)) <|
      .cons (.move_of_eq 1 rfl (@MallocProgram.mallocCall _ _ _ _ _ 32)
        (.request rfl rfl (by decide))) <|
      .cons (.move_of_eq 0 rfl .leave (.inside nofun nofun)) <|
      .cons (.move_of_eq 1 rfl (.mallocLock rfl) (.inside nofun nofun)) <|
      .cons (.move_of_eq 0 rfl (@MallocProgram.freeCall _ _ _ _ _ 5000)
        (.release (by decide +kernel) (by decide +kernel))) <|
      .cons (.move_of_eq 1 rfl .mallocAttempt (.inside nofun nofun)) <|
      .cons (.move_of_eq 1 rfl .leave (.inside nofun nofun)) <|
      .cons (.move_of_eq 0 rfl (.freeLock rfl) (.inside nofun nofun)) <|
      .cons (.move_of_eq 0 rfl .free (.free rfl
        (.of_first (by decide +kernel) (by decide +kernel)))) <|
      .cons (.move_of_eq 1 rfl (@MallocProgram.freeCall _ _ _ _ _ 5016)
        (.release (by decide +kernel) (by decide +kernel))) .nil, ?_⟩
    exact ⟨by decide +kernel, rfl⟩
  obtain ⟨labels, state, run, calls, claimed⟩ := run
  exact ⟨labels, state, calls, claimed, threads_share_heap default 16 3 4 none
    ⟨1000, 2000, 5000⟩ (by decide) (by decide) (by decide) (by decide)
    (by decide) (by decide) run⟩

end MallocSharing

end EmbeddedMiddle
