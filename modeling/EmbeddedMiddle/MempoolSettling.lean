import EmbeddedMiddle.MempoolThreads
import EmbeddedMiddle.Foundation.Settling

/-!
# Calls on a pool come to an end

A call of `em_mpool_alloc_block` or of a function that frees a block has four
steps at most.  When nobody can go on, the only calls that have not returned
are allocations, and each block is somebody's.
-/

namespace EmbeddedMiddle

open Foundation

universe u

namespace PoolPlace

/-- The steps to the end of a call. -/
def rank : PoolPlace → ℕ
  | idle => 0
  | allocWaiting _ | freeCalled _ => 4
  | allocWaited | freeLocked _ => 3
  | allocLocked | freed => 2
  | allocTaken _ | allocFailed | freeRejected | freeUnlocked => 1

/-- A call has not returned. -/
def active : PoolPlace → Bool
  | idle => false
  | _ => true

/-- In no call, or at the semaphore of one. -/
def resting : PoolPlace → Bool
  | idle | allocWaiting _ => true
  | _ => false

/-- The mutex is held. -/
def locked : PoolPlace → Bool
  | allocLocked | allocTaken _ | allocFailed | freeLocked _ | freeRejected
  | freed => true
  | _ => false

theorem rank_le (place : PoolPlace) : place.rank ≤ 4 := by
  cases place <;> simp [rank]

theorem rank_of_idle {place : PoolPlace} (returned : place.active = false) :
    place.rank = 0 := by
  cases place with
  | idle => rfl
  | _ => cases returned

/-- Who rests has no token. -/
theorem no_token {place : PoolPlace} (rests : place.resting = true) :
    place.allocating = false ∧ place.freeing = false := by
  cases place with
  | idle => exact ⟨rfl, rfl⟩
  | allocWaiting _ => exact ⟨rfl, rfl⟩
  | _ => cases rests

end PoolPlace

namespace PoolThreads

variable {Thread : Type u}

/-- Every step inside a call brings it nearer to its end. -/
theorem lowers (thread : Thread) (shared : PoolShared Thread)
    (old : PoolPlace) (action : PoolAction) (next : PoolShared Thread)
    (new : PoolPlace)
    (taken : PoolProgram thread shared old action next new)
    (inside : action ≠ .call) : new.rank < old.rank := by
  cases taken with
  | allocCall => exact absurd rfl inside
  | freeCall => exact absurd rfl inside
  | _ => simp [PoolPlace.rank]

/-! ## Who can go on -/

theorem inside_moves (thread : Thread) (shared : PoolShared Thread)
    {place : PoolPlace} (inside : place.locked = true) :
    ∃ action next new, (action ≠ .call ∧ action ≠ .timeout) ∧
      PoolProgram thread shared place action next new := by
  obtain ⟨pool, holder, owners⟩ := shared
  cases place with
  | allocLocked =>
      cases called : emMpoolAllocBlockmng pool with
      | none => exact ⟨_, _, _, by simp, .allocBodyFailed called⟩
      | some got => exact ⟨_, _, _, by simp, .allocBody called⟩
  | allocTaken blockMng => exact ⟨_, _, _, by simp, .allocUnlock⟩
  | allocFailed => exact ⟨_, _, _, by simp, .allocUnlockFailed⟩
  | freeLocked dataIdx =>
      cases called : emMpoolFreeLocked pool dataIdx with
      | none => exact ⟨_, _, _, by simp, .freeBodyRejected called⟩
      | some after => exact ⟨_, _, _, by simp, .freeBody called⟩
  | freeRejected => exact ⟨_, _, _, by simp, .freeUnlockRejected⟩
  | freed => exact ⟨_, _, _, by simp, .freeUnlock⟩
  | _ => cases inside

theorem outside_moves (thread : Thread) (pool : EmMpool)
    (owners : List (Thread × ℕ)) {place : PoolPlace}
    (outside : place.locked = false) (called : place.resting = false) :
    ∃ action next new, (action ≠ .call ∧ action ≠ .timeout) ∧
      PoolProgram thread ⟨pool, none, owners⟩ place action next new := by
  cases place with
  | allocWaited => exact ⟨_, _, _, by simp, .allocLock⟩
  | freeCalled dataIdx => exact ⟨_, _, _, by simp, .freeLock⟩
  | freeUnlocked => exact ⟨_, _, _, by simp, .freePost⟩
  | idle => cases called
  | allocWaiting _ => cases called
  | _ => cases outside

/-- Nobody can go on but by a new call or by giving up. -/
abbrev Stuck (state : PoolThreads Thread) : Prop :=
  Threads.Stuck PoolProgram
    (fun action => action ≠ .call ∧ action ≠ .timeout) state

/-- The mutex is free, and calls that have not returned are allocations that
wait while every block is somebody's. -/
def Settled (state : PoolThreads Thread) : Prop :=
  state.shared.holder = none ∧ ∀ thread,
    match state.place thread with
    | .idle => True
    | .allocWaiting _ =>
        state.shared.pool.numUsed = state.shared.pool.numMax ∧
          ∀ k, k < state.shared.pool.numMax →
            ∃ owner, (owner, k) ∈ state.shared.owners
    | _ => False

section Held

variable [DecidableEq Thread]

theorem held_step {before after : PoolThreads Thread}
    {label : Thread × PoolAction}
    (held : Threads.HeldBy PoolPlace.locked before.shared.holder before.place)
    (taken : before.Step label after) :
    Threads.HeldBy PoolPlace.locked after.shared.holder after.place := by
  obtain ⟨⟨pool, holder, owners⟩, places⟩ := before
  cases taken with
  | move taken =>
      rename_i thread action shared place
      dsimp only at held taken
      generalize here : places thread = old at taken
      cases taken with
      | allocLock => exact held.acquire here rfl
      | freeLock => exact held.acquire here rfl
      | allocUnlock => exact held.release here rfl rfl
      | allocUnlockFailed => exact held.release here rfl rfl
      | freeUnlockRejected => exact held.release here rfl rfl
      | freeUnlock => exact held.release here rfl rfl
      | _ => exact held.keep here rfl

end Held

variable [Fintype Thread]

/-- When no token is left, every block is live. -/
theorem Balanced.all_owned {state : PoolThreads Thread} {params : PoolParams}
    {set : SparseSet params.capacity} (balanced : state.Balanced params set)
    (full : set.count = params.capacity) {k : ℕ} (below : k < params.capacity) :
    ∃ owner, (owner, k) ∈ state.shared.owners := by
  have all : set.members = Finset.range params.capacity := by
    apply Finset.eq_of_subset_of_card_le
    · intro block member
      exact Finset.mem_range.mpr (SparseSet.mem_members.mp member).1
    · rw [Finset.card_range, set.card_members, full]
  have member : k ∈ state.shared.owners.map Prod.snd := by
    rw [balanced.owned, all]
    exact Finset.mem_range.mpr below
  obtain ⟨⟨owner, block⟩, isOwner, rfl⟩ := List.mem_map.mp member
  exact ⟨owner, isOwner⟩

theorem Balanced.settled {state : PoolThreads Thread} {params : PoolParams}
    {set : SparseSet params.capacity} (balanced : state.Balanced params set)
    (held : Threads.HeldBy PoolPlace.locked state.shared.holder state.place)
    (stuck : Stuck state) : Settled state := by
  have resting : state.shared.holder = none ∧
      ∀ thread, (state.place thread).resting = true := by
    apply Threads.Stuck.resting stuck held
    · intro thread inside
      exact inside_moves thread _ inside
    · intro free thread outside called
      obtain ⟨action, next, new, counted, moved⟩ := outside_moves thread
        state.shared.pool state.shared.owners outside called
      rw [← free] at moved
      exact ⟨action, next, new, counted, moved⟩
  obtain ⟨free, rests⟩ := resting
  have tokens := balanced.tokens
  rw [Threads.count_eq_zero fun thread => (PoolPlace.no_token (rests thread)).1,
    Threads.count_eq_zero fun thread => (PoolPlace.no_token (rests thread)).2]
    at tokens
  refine ⟨free, ?_⟩
  intro thread
  have here := rests thread
  have cannot : ∀ next new, ¬ PoolProgram thread state.shared
      (state.place thread) .wait next new :=
    fun next new => stuck thread .wait next new (by simp)
  cases isAt : state.place thread with
  | idle => trivial
  | allocWaiting timeoutMs =>
      rw [isAt] at cannot
      have noToken : ¬ 0 < state.shared.pool.sem.count := by
        intro token
        exact cannot _ _ (.allocWait (if_pos token))
      have full : set.count = params.capacity := by omega
      dsimp only
      rw [balanced.shown.numUsed_eq, balanced.shown.numMax_eq]
      exact ⟨full, fun k below => balanced.all_owned full below⟩
  | _ =>
      rw [isAt] at here
      cases here

end PoolThreads

/-- From every state that threads can reach, the calls in progress on a pool
take four steps each at most.  When nobody can go on, the only calls that have
not returned are allocations that wait while every block is somebody's; and
such a state can be reached without a timeout. -/
theorem pool_calls_settle {Thread : Type u} [DecidableEq Thread]
    [Fintype Thread] (memory : EmMpool) (blockSize blockNum : ℕ)
    (blockPtr : ℕ → ℕ) (block : ℕ → EmBlkinfo) (dataPtr : ℕ → ℤ)
    (rawdata : ℤ) (accepted : blockNum ≤ semValueMax)
    {labels : List (Thread × PoolAction)} {state : PoolThreads Thread}
    (run : Run PoolThreads.Step
      (PoolThreads.start (emMpoolCreateWithMem memory blockSize blockNum
        blockPtr block dataPtr rawdata)) labels state) :
    (∀ further last, Run PoolThreads.Step state further last →
      (∀ label ∈ further, label.2 ≠ .call) →
        further.length ≤ 4 * Threads.count PoolPlace.active state.place) ∧
      (PoolThreads.Stuck state → PoolThreads.Settled state) ∧
      ∃ further last, Run PoolThreads.Step state further last ∧
        (∀ label ∈ further, label.2 ≠ .call ∧ label.2 ≠ .timeout) ∧
          PoolThreads.Settled last := by
  have kept : ∀ (before : PoolThreads Thread) label after,
      ((∃ set, before.Balanced ⟨blockNum, blockSize, rawdata⟩ set) ∧
        Threads.HeldBy PoolPlace.locked before.shared.holder before.place) →
      before.Step label after →
      ((∃ set, after.Balanced ⟨blockNum, blockSize, rawdata⟩ set) ∧
        Threads.HeldBy PoolPlace.locked after.shared.holder after.place) := by
    intro before label after ⟨⟨set, balanced⟩, held⟩ taken
    exact ⟨balanced.step taken, PoolThreads.held_step held taken⟩
  have reached := run.invariant _
    ⟨created_balanced memory blockSize blockNum blockPtr block dataPtr rawdata
      accepted, Threads.HeldBy.start rfl⟩ kept
  refine Threads.come_to_rest ?_ PoolThreads.lowers PoolPlace.rank_le
    (fun _ => PoolPlace.rank_of_idle) kept ?_ reached
  · intro action own
    exact own.1
  · intro last ⟨⟨_, balanced⟩, held⟩ stuck
    exact balanced.settled held stuck

/-- One thread has the only block, the other one waits for it. -/
theorem pool_calls_settle_two :
    ∃ state : PoolThreads (Fin 2), Run PoolThreads.Step
        (PoolThreads.start
          (emMpoolCreateWithMem default 8 1 default default default 1000))
        [(0, .call), (1, .call), (0, .wait), (0, .lock), (0, .body)] state ∧
      ∃ further last, Run PoolThreads.Step state further last ∧
        (∀ label ∈ further, label.2 ≠ .call ∧ label.2 ≠ .timeout) ∧
          PoolThreads.Settled last := by
  have run : ∃ state : PoolThreads (Fin 2), Run PoolThreads.Step
      (PoolThreads.start
        (emMpoolCreateWithMem default 8 1 default default default 1000))
      [(0, .call), (1, .call), (0, .wait), (0, .lock), (0, .body)] state :=
    ⟨_, .cons (.move (@PoolProgram.allocCall _ _ _ emNoTimeout))
      (.cons (.move (@PoolProgram.allocCall _ _ _ emNoTimeout))
      (.cons (.move (@PoolProgram.allocWait _ _ _ _ _ _ ⟨0⟩ rfl))
      (.cons (.move .allocLock)
      (.cons (.move (@PoolProgram.allocBody _ _ _ _ _ 0 _ rfl)) .nil))))⟩
  obtain ⟨state, run⟩ := run
  exact ⟨state, run, (pool_calls_settle default 8 1 default default default
    1000 (by decide) run).2.2⟩

end EmbeddedMiddle
