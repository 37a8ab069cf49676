import EmbeddedMiddle.MempoolRefinement
import EmbeddedMiddle.Foundation.Interleaving

/-!
# Threads on one memory pool

`em_mpool_alloc_block` and `em_mpool_free_block_by_dataidx` as programs of any
number of threads.  The semaphore is taken before the mutex and posted after
it, so threads in between hold tokens.
-/

namespace EmbeddedMiddle

open Foundation

universe u

/-- The pool, the holder of its mutex, and, for the record, which thread got
which block and has not seen it freed since. -/
structure PoolShared (Thread : Type u) where
  pool : EmMpool
  holder : Option Thread
  owners : List (Thread × ℕ)

inductive PoolPlace where
  | idle
  | allocWaiting (timeoutMs : ℤ)
  | allocWaited
  | allocLocked
  | allocTaken (blockMng : ℕ)
  | allocFailed
  | freeCalled (dataIdx : ℕ)
  | freeLocked (dataIdx : ℕ)
  | freeRejected
  | freed
  | freeUnlocked

inductive PoolAction where
  | call
  | wait
  | timeout
  | lock
  | body
  | unlock
  | post

/-- One step of a thread inside one of the two functions. -/
inductive PoolProgram {Thread : Type u} (thread : Thread) :
    PoolShared Thread → PoolPlace → PoolAction →
      PoolShared Thread → PoolPlace → Prop where
  | allocCall {shared} {timeoutMs : ℤ} :
      PoolProgram thread shared .idle .call shared (.allocWaiting timeoutMs)
  | allocWait {pool holder owners timeoutMs sem} :
      emSemWait pool.sem timeoutMs = some (emSuccess, sem) →
      PoolProgram thread ⟨pool, holder, owners⟩ (.allocWaiting timeoutMs)
        .wait ⟨{ pool with sem }, holder, owners⟩ .allocWaited
  | allocTimeout {shared timeoutMs} :
      timeoutMs ≠ emNoTimeout →
      PoolProgram thread shared (.allocWaiting timeoutMs)
        .timeout shared .idle
  | allocLock {pool owners} :
      PoolProgram thread ⟨pool, none, owners⟩ .allocWaited
        .lock ⟨pool, some thread, owners⟩ .allocLocked
  | allocBody {pool holder owners blockMng after} :
      emMpoolAllocBlockmng pool = some (blockMng, after) →
      PoolProgram thread ⟨pool, holder, owners⟩ .allocLocked
        .body ⟨after, holder, (thread, blockMng) :: owners⟩
        (.allocTaken blockMng)
  | allocBodyFailed {pool holder owners} :
      emMpoolAllocBlockmng pool = none →
      PoolProgram thread ⟨pool, holder, owners⟩ .allocLocked
        .body ⟨pool, holder, owners⟩ .allocFailed
  | allocUnlock {pool holder owners blockMng} :
      PoolProgram thread ⟨pool, holder, owners⟩ (.allocTaken blockMng)
        .unlock ⟨pool, none, owners⟩ .idle
  | allocUnlockFailed {pool holder owners} :
      PoolProgram thread ⟨pool, holder, owners⟩ .allocFailed
        .unlock ⟨pool, none, owners⟩ .idle
  | freeCall {shared} {dataIdx : ℕ} :
      PoolProgram thread shared .idle .call shared (.freeCalled dataIdx)
  | freeLock {pool owners dataIdx} :
      PoolProgram thread ⟨pool, none, owners⟩ (.freeCalled dataIdx)
        .lock ⟨pool, some thread, owners⟩ (.freeLocked dataIdx)
  | freeBody {pool holder owners dataIdx after} :
      emMpoolFreeLocked pool dataIdx = some after →
      PoolProgram thread ⟨pool, holder, owners⟩ (.freeLocked dataIdx)
        .body ⟨after, holder, owners.filter (fun owner => owner.2 ≠ dataIdx)⟩
        .freed
  | freeBodyRejected {pool holder owners dataIdx} :
      emMpoolFreeLocked pool dataIdx = none →
      PoolProgram thread ⟨pool, holder, owners⟩ (.freeLocked dataIdx)
        .body ⟨pool, holder, owners⟩ .freeRejected
  | freeUnlockRejected {pool holder owners} :
      PoolProgram thread ⟨pool, holder, owners⟩ .freeRejected
        .unlock ⟨pool, none, owners⟩ .idle
  | freeUnlock {pool holder owners} :
      PoolProgram thread ⟨pool, holder, owners⟩ .freed
        .unlock ⟨pool, none, owners⟩ .freeUnlocked
  | freePost {pool holder owners} :
      PoolProgram thread ⟨pool, holder, owners⟩ .freeUnlocked
        .post ⟨{ pool with sem := emSemPost pool.sem }, holder, owners⟩ .idle

namespace PoolPlace

/-- Allocators past the wait but before `num_used++`. -/
def allocating : PoolPlace → Bool
  | allocWaited | allocLocked | allocFailed => true
  | _ => false

/-- Freers past `num_used--` but before the post. -/
def freeing : PoolPlace → Bool
  | freed | freeUnlocked => true
  | _ => false

/-- The path on which `_em_mpool_alloc_blockmng` has returned -1. -/
def failed : PoolPlace → Bool
  | allocFailed => true
  | _ => false

end PoolPlace

abbrev PoolThreads (Thread : Type u) :=
  Threads Thread (PoolShared Thread) PoolPlace

namespace PoolThreads

variable {Thread : Type u}

/-- Nobody has called yet. -/
def start (pool : EmMpool) : PoolThreads Thread :=
  ⟨⟨pool, none, []⟩, fun _ => .idle⟩

variable [Fintype Thread]

/-- No token of the semaphore is lost or gained, and every live block has one
owner. -/
structure Balanced (state : PoolThreads Thread) (params : PoolParams)
    (set : SparseSet params.capacity) : Prop where
  shown : state.shared.pool.Represents params set
  tokens : state.shared.pool.sem.count + set.count +
    Threads.count PoolPlace.allocating state.place +
      Threads.count PoolPlace.freeing state.place = params.capacity
  sound : ∀ thread, (state.place thread).failed = false
  nodup : (state.shared.owners.map Prod.snd).Nodup
  owned : ∀ k, k ∈ state.shared.owners.map Prod.snd ↔ k ∈ set.members

variable [DecidableEq Thread]

abbrev Step : PoolThreads Thread → Thread × PoolAction →
    PoolThreads Thread → Prop :=
  Threads.Step PoolProgram

namespace Balanced

variable {state before after : PoolThreads Thread} {params : PoolParams}
  {set : SparseSet params.capacity}

/-- An allocator past its wait finds a free block. -/
theorem room (balanced : state.Balanced params set) {thread : Thread}
    (there : (state.place thread).allocating = true) :
    set.count < params.capacity := by
  have tokens := balanced.tokens
  have counted :=
    Threads.count_eq PoolPlace.allocating state.place thread
  rw [there, Bool.toNat_true] at counted
  omega

/-- A step that moves tokens only between the semaphore, `num_used` and its own
place keeps the balance. -/
theorem move (balanced : state.Balanced params set) {thread : Thread}
    {shared : PoolShared Thread} {old new : PoolPlace}
    {next : SparseSet params.capacity}
    (here : state.place thread = old)
    (shown : shared.pool.Represents params next)
    (tokens : shared.pool.sem.count + next.count +
        new.allocating.toNat + new.freeing.toNat =
      state.shared.pool.sem.count + set.count +
        old.allocating.toNat + old.freeing.toNat)
    (sound : new.failed = false)
    (nodup : (shared.owners.map Prod.snd).Nodup)
    (owned : ∀ k, k ∈ shared.owners.map Prod.snd ↔ k ∈ next.members) :
    Balanced ⟨shared, Function.update state.place thread new⟩ params next := by
  subst here
  have oldTokens := balanced.tokens
  rw [Threads.count_eq _ state.place thread,
    Threads.count_eq PoolPlace.freeing state.place thread] at oldTokens
  refine ⟨shown, ?_, ?_, nodup, owned⟩
  · rw [Threads.count_update, Threads.count_update]
    simp only
    omega
  · exact (Function.forall_update_iff state.place
      fun _ place => place.failed = false).mpr
        ⟨sound, fun other _ => balanced.sound other⟩

/-- A step that leaves pool and owners as they are. -/
theorem stay (balanced : state.Balanced params set) {thread : Thread}
    {shared : PoolShared Thread} {old new : PoolPlace}
    (here : state.place thread = old)
    (pool : shared.pool = state.shared.pool)
    (owners : shared.owners = state.shared.owners)
    (tokens : new.allocating.toNat + new.freeing.toNat =
      old.allocating.toNat + old.freeing.toNat)
    (sound : new.failed = false) :
    Balanced ⟨shared, Function.update state.place thread new⟩ params set := by
  apply balanced.move here
  · rw [pool]
    exact balanced.shown
  · rw [pool]
    omega
  · exact sound
  · rw [owners]
    exact balanced.nodup
  · rw [owners]
    exact balanced.owned

theorem of_sem {pool : EmMpool} (shown : pool.Represents params set)
    (sem : EmSem) : EmMpool.Represents params { pool with sem } set :=
  { shown with }

theorem step (balanced : before.Balanced params set)
    {label : Thread × PoolAction} (taken : before.Step label after) :
    ∃ next, after.Balanced params next := by
  cases taken with
  | move taken =>
      rename_i thread action shared place
      obtain ⟨start, places⟩ := before
      have room : (places thread).allocating = true → _ := balanced.room
      have sound := balanced.sound thread
      have shown := balanced.shown
      have nodup := balanced.nodup
      have owned := balanced.owned
      simp only at taken room sound shown nodup owned
      generalize here : places thread = old at taken room sound
      cases taken with
      | allocCall => exact ⟨set, balanced.stay here rfl rfl rfl rfl⟩
      | allocWait waited =>
          have token := emSemWait_success waited
          refine ⟨set, balanced.move here (of_sem shown _) ?_ rfl nodup owned⟩
          simp only [PoolPlace.allocating, PoolPlace.freeing, Bool.toNat_true,
            Bool.toNat_false]
          omega
      | allocTimeout limited => exact ⟨set, balanced.stay here rfl rfl rfl rfl⟩
      | allocLock => exact ⟨set, balanced.stay here rfl rfl rfl rfl⟩
      | allocBody called =>
          have hasRoom := room rfl
          obtain ⟨taken, kept⟩ := shown.allocBlockmng_room hasRoom
          obtain ⟨rfl, rfl⟩ :=
            Prod.mk.inj (Option.some.inj (taken.symm.trans called))
          refine ⟨set.acquire hasRoom,
            balanced.move here kept ?_ rfl ?_ ?_⟩
          · simp only [PoolPlace.allocating, PoolPlace.freeing,
              Bool.toNat_true, Bool.toNat_false, SparseSet.acquire]
            omega
          · refine List.nodup_cons.mpr ⟨?_, nodup⟩
            intro known
            exact set.dense_count_not_mem hasRoom ((owned _).mp known)
          · intro k
            rw [set.members_acquire, Finset.mem_insert, List.map_cons,
              List.mem_cons, owned]
      | allocBodyFailed failed =>
          obtain ⟨taken, _⟩ := shown.allocBlockmng_room (room rfl)
          cases failed.symm.trans taken
      | allocUnlock => exact ⟨set, balanced.stay here rfl rfl rfl rfl⟩
      | allocUnlockFailed => cases sound
      | freeCall => exact ⟨set, balanced.stay here rfl rfl rfl rfl⟩
      | freeLock => exact ⟨set, balanced.stay here rfl rfl rfl rfl⟩
      | freeBody called =>
          rename_i pool holder owners dataIdx reached
          by_cases member : dataIdx ∈ set.members
          · obtain ⟨freed, done, sem, kept⟩ := shown.freeLocked_live_eq member
            cases Option.some.inj (done.symm.trans called)
            have live := (SparseSet.mem_members.mp member).2
            refine ⟨set.release dataIdx member,
              balanced.move here kept ?_ rfl ?_ ?_⟩
            · simp only [PoolPlace.allocating, PoolPlace.freeing,
                Bool.toNat_true, Bool.toNat_false, SparseSet.release, sem]
              omega
            · exact nodup.sublist (List.filter_sublist.map Prod.snd)
            · intro k
              rw [set.members_release, Finset.mem_erase, ← owned]
              simp only [List.mem_map, List.mem_filter]
              constructor
              · intro present
                obtain ⟨owner, ⟨ownerMember, different⟩, rfl⟩ := present
                exact ⟨of_decide_eq_true different, owner, ownerMember, rfl⟩
              · intro present
                obtain ⟨different, owner, ownerMember, rfl⟩ := present
                exact ⟨owner, ⟨ownerMember, decide_eq_true different⟩, rfl⟩
          · rw [shown.freeLocked_dead member] at called
            cases called
      | freeBodyRejected rejected =>
          exact ⟨set, balanced.stay here rfl rfl rfl rfl⟩
      | freeUnlockRejected => exact ⟨set, balanced.stay here rfl rfl rfl rfl⟩
      | freeUnlock => exact ⟨set, balanced.stay here rfl rfl rfl rfl⟩
      | freePost =>
          refine ⟨set, balanced.move here (of_sem shown _) ?_ rfl nodup owned⟩
          simp only [PoolPlace.allocating, PoolPlace.freeing, emSemPost,
            Bool.toNat_true, Bool.toNat_false]
          omega

end Balanced

end PoolThreads

section Created

variable {Thread : Type u} [Fintype Thread] (memory : EmMpool)
  (blockSize blockNum : ℕ) (blockPtr : ℕ → ℕ) (block : ℕ → EmBlkinfo)
  (dataPtr : ℕ → ℤ) (rawdata : ℤ)

theorem created_balanced (accepted : blockNum ≤ semValueMax) :
    ∃ set, PoolThreads.Balanced
      (PoolThreads.start (emMpoolCreateWithMem memory blockSize blockNum
        blockPtr block dataPtr rawdata) : PoolThreads Thread)
      ⟨blockNum, blockSize, rawdata⟩ set := by
  obtain ⟨set, empty, settled⟩ := emMpoolCreateWithMem_settled memory
    blockSize blockNum blockPtr block dataPtr rawdata accepted
  have noMembers : set.members = ∅ := by
    rw [← Finset.card_eq_zero, set.card_members, empty]
  refine ⟨set, settled.toRepresents, ?_, fun _ => rfl, List.nodup_nil, ?_⟩
  · simp only [PoolThreads.start]
    rw [Threads.count_const rfl, Threads.count_const rfl]
    exact settled.sem_eq
  · intro k
    rw [noMembers]
    simp [PoolThreads.start]

/-- In every state that threads can reach the tokens of the semaphore are
accounted for; so an allocator past its wait always gets a block, and no block
is live for two threads. -/
theorem pool_tokens_balanced [DecidableEq Thread]
    (accepted : blockNum ≤ semValueMax)
    {labels : List (Thread × PoolAction)} {state : PoolThreads Thread}
    (run : Run PoolThreads.Step
      (PoolThreads.start (emMpoolCreateWithMem memory blockSize blockNum
        blockPtr block dataPtr rawdata)) labels state) :
    state.shared.pool.numMax = blockNum ∧
      state.shared.pool.sem.count + state.shared.pool.numUsed +
        Threads.count PoolPlace.allocating state.place +
          Threads.count PoolPlace.freeing state.place =
            state.shared.pool.numMax ∧
      (∀ thread, state.place thread ≠ .allocFailed) ∧
      (∀ thread, (state.place thread).allocating = true →
        emMpoolAllocBlockmng state.shared.pool ≠ none) ∧
      (∀ left right k, (left, k) ∈ state.shared.owners →
        (right, k) ∈ state.shared.owners → left = right) ∧
      (state.shared.owners.map Prod.snd).Nodup ∧
      ∀ k, k ∈ state.shared.owners.map Prod.snd ↔
        k < blockNum ∧
          (state.shared.pool.block k).indexPtr < state.shared.pool.numUsed := by
  obtain ⟨set, balanced⟩ := run.invariant
    (fun state => ∃ set, PoolThreads.Balanced state
      ⟨blockNum, blockSize, rawdata⟩ set)
    (created_balanced memory blockSize blockNum blockPtr block dataPtr rawdata
      accepted)
    (fun _ _ _ balanced taken => balanced.elim
      fun _ balanced => balanced.step taken)
  have shown := balanced.shown
  refine ⟨shown.numMax_eq, ?_, ?_, ?_, ?_, balanced.nodup, ?_⟩
  · rw [shown.numMax_eq, shown.numUsed_eq]
    exact balanced.tokens
  · intro thread there
    have sound := balanced.sound thread
    rw [there] at sound
    cases sound
  · intro thread there
    rw [(shown.allocBlockmng_room (balanced.room there)).1]
    exact Option.some_ne_none _
  · intro left right k leftOwns rightOwns
    have same := List.inj_on_of_nodup_map balanced.nodup leftOwns rightOwns rfl
    exact congrArg Prod.fst same
  · intro k
    rw [balanced.owned, SparseSet.mem_members, shown.indexPtr_eq,
      shown.numUsed_eq]

end Created

/-- One of two threads has a block, the other waits. -/
theorem pool_tokens_balanced_two :
    ∃ state : PoolThreads (Fin 2), Run PoolThreads.Step
        (PoolThreads.start
          (emMpoolCreateWithMem default 8 2 default default default 1000))
        [(0, .call), (1, .call), (0, .wait), (0, .lock), (0, .body)] state ∧
      state.shared.pool.sem.count + state.shared.pool.numUsed +
        Threads.count PoolPlace.allocating state.place +
          Threads.count PoolPlace.freeing state.place = 2 := by
  have run : ∃ state : PoolThreads (Fin 2), Run PoolThreads.Step
      (PoolThreads.start
        (emMpoolCreateWithMem default 8 2 default default default 1000))
      [(0, .call), (1, .call), (0, .wait), (0, .lock), (0, .body)] state :=
    ⟨_, .cons (.move (@PoolProgram.allocCall _ _ _ emNoTimeout))
      (.cons (.move (@PoolProgram.allocCall _ _ _ emNoTimeout))
      (.cons (.move (@PoolProgram.allocWait _ _ _ _ _ _ ⟨1⟩ rfl))
      (.cons (.move .allocLock)
      (.cons (.move (@PoolProgram.allocBody _ _ _ _ _ 0 _ rfl)) .nil))))⟩
  obtain ⟨state, run⟩ := run
  obtain ⟨numMax, tokens, -⟩ := pool_tokens_balanced default 8 2 default default
    default 1000 (by decide) run
  exact ⟨state, run, tokens.trans numMax⟩

end EmbeddedMiddle
