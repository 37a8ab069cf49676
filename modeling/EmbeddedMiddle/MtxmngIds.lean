import EmbeddedMiddle.MempoolViews
import EmbeddedMiddle.Mtxmng

/-!
# The ids of mutexes

A mutex is locked, unlocked and deleted by its id.  Of the three functions that
take one, only `em_mtxmng_lock` looks at what the lookup of the id gives.
-/

namespace EmbeddedMiddle

open Foundation

/-- A call that takes an id, with the answer of the system if there is one. -/
inductive MtxmngCall where
  | deleteMutex
  | lock (timeoutMs : ℤ) (answered : Bool)
  | unlock (answered : Bool)
  deriving DecidableEq, Repr

namespace MtxmngCall

/-- `none` is an access outside the array `block`. -/
def run (mtxm : EmMtxmng) (mutexId : ℤ) :
    MtxmngCall → Option (ℤ × List PthreadCall × EmMtxmng)
  | deleteMutex => some (emMtxmngDeleteMutex mtxm mutexId)
  | lock timeoutMs answered =>
      some (emMtxmngLock mtxm mutexId timeoutMs answered)
  | unlock answered => emMtxmngUnlock mtxm mutexId answered

def accesses (mtxm : EmMtxmng) (mutexId : ℤ) :
    MtxmngCall → List MtxmngAccess
  | deleteMutex => emMtxmngDeleteMutexAccesses mtxm mutexId
  | lock timeoutMs answered =>
      emMtxmngLockAccesses mtxm mutexId timeoutMs answered
  | unlock _ => emMtxmngUnlockAccesses mutexId

/-- The call returns an error, stays within the arrays, calls no function of
the system and changes nothing. -/
structure Refused (mtxm : EmMtxmng) (mutexId : ℤ) (call : MtxmngCall) :
    Prop where
  result : ∃ ret, ret ≠ 0 ∧ call.run mtxm mutexId = some (ret, [], mtxm)
  within : ∀ access ∈ call.accesses mtxm mutexId,
    0 ≤ access.index ∧ access.index < mtxm.mpMutex.numMax

end MtxmngCall

/-- A manager, and for the record the ids that have been returned by
`em_mtxmng_create_mutex` and not deleted since. -/
structure MtxmngUse where
  mtxm : EmMtxmng
  ids : Finset ℤ

/-- A call and what it returned. -/
inductive MtxmngEvent where
  | create (ret : ℤ)
  | call (mutexId : ℤ) (call : MtxmngCall) (ret : ℤ)
  deriving DecidableEq, Repr

namespace MtxmngUse

/-- An id is any `int`. -/
inductive Step : MtxmngUse → MtxmngEvent → MtxmngUse → Prop where
  | create {state : MtxmngUse} {ret : ℤ} {calls : List PthreadCall}
      {mtxm : EmMtxmng} :
      emMtxmngCreateMutex state.mtxm = (ret, calls, mtxm) →
      Step state (.create ret)
        ⟨mtxm, if 0 ≤ ret then insert ret state.ids else state.ids⟩
  | call {state : MtxmngUse} {mutexId ret : ℤ} {call : MtxmngCall}
      {calls : List PthreadCall} {mtxm : EmMtxmng} :
      toInt32 mutexId = mutexId →
      call.run state.mtxm mutexId = some (ret, calls, mtxm) →
      Step state (.call mutexId call ret)
        ⟨mtxm, if call = .deleteMutex ∧ ret = 0
          then state.ids.erase mutexId else state.ids⟩

theorem step_create {state : MtxmngUse} {ret : ℤ}
    (returned : (emMtxmngCreateMutex state.mtxm).1 = ret) :
    Step state (.create ret)
      ⟨(emMtxmngCreateMutex state.mtxm).2.2,
        if 0 ≤ ret then insert ret state.ids else state.ids⟩ :=
  .create (Prod.ext returned rfl)

/-- No two mutexes have the same number, as long as no address of a block
overflows. -/
structure Shows (params : PoolParams) (state : MtxmngUse)
    (set : SparseSet params.capacity) : Prop where
  settled : state.mtxm.mpMutex.Settled params set
  ids_eq : params.Addressable →
    state.ids = set.members.image Nat.cast

variable {params : PoolParams} {before after state : MtxmngUse}
  {event : MtxmngEvent} {set : SparseSet params.capacity}

theorem Shows.create (shows : before.Shows params set) {ret : ℤ}
    {calls : List PthreadCall} {mtxm : EmMtxmng}
    (called : emMtxmngCreateMutex before.mtxm = (ret, calls, mtxm)) :
    ∃ next, Shows params
      ⟨mtxm, if 0 ≤ ret then insert ret before.ids else before.ids⟩ next := by
  rcases set.count_le.lt_or_eq with room | full
  · obtain ⟨mp, taken, kept⟩ := shows.settled.allocBlock_room room
    simp only [emMtxmngCreateMutex, taken] at called
    obtain ⟨isRet, rest⟩ := Prod.mk.inj called
    obtain ⟨_, rfl⟩ := Prod.mk.inj rest
    refine ⟨set.acquire room, kept, ?_⟩
    intro addressable
    have bound := set.dense_lt _ room
    have number : ret = set.dense set.count := by
      rw [← isRet, emMpoolGetDataidx, kept.rawdata_eq, kept.blockSize_eq]
      exact addressable.index_of_address kept.capacity_le bound
    rw [number, if_pos (Int.natCast_nonneg _), shows.ids_eq addressable,
      set.members_acquire room, Finset.image_insert]
  · simp only [emMtxmngCreateMutex,
      shows.settled.allocBlock_full full] at called
    obtain ⟨rfl, rest⟩ := Prod.mk.inj called
    obtain ⟨_, rfl⟩ := Prod.mk.inj rest
    exact ⟨set, shows.settled, shows.ids_eq⟩

/-- An `int` that stands for the number of a block is that number. -/
theorem eq_of_intToUint32 {mutexId : ℤ} {k : ℕ}
    (isInt : toInt32 mutexId = mutexId) (index : intToUint32 mutexId = k)
    (small : k ≤ intMax) : mutexId = k := by
  unfold toInt32 at isInt
  unfold intToUint32 at index
  unfold intMax at small
  omega

theorem Shows.deleteMutex (shows : before.Shows params set)
    {mutexId ret : ℤ} {calls : List PthreadCall} {mtxm : EmMtxmng}
    (isInt : toInt32 mutexId = mutexId)
    (called : emMtxmngDeleteMutex before.mtxm mutexId = (ret, calls, mtxm)) :
    ∃ next, Shows params
      ⟨mtxm, if ret = 0 then before.ids.erase mutexId else before.ids⟩
      next := by
  by_cases member : intToUint32 mutexId ∈ set.members
  · obtain ⟨mp, freed, kept⟩ := shows.settled.freeBlock_live member
    simp only [emMtxmngDeleteMutex, freed] at called
    obtain ⟨rfl, rest⟩ := Prod.mk.inj called
    obtain ⟨_, rfl⟩ := Prod.mk.inj rest
    refine ⟨set.release _ member, kept, ?_⟩
    intro addressable
    have bound := (SparseSet.mem_members.mp member).1
    have number := eq_of_intToUint32 isInt rfl
      (bound.le.trans shows.settled.capacity_le)
    rw [if_pos rfl, shows.ids_eq addressable, SparseSet.members_release,
      Finset.image_erase Nat.cast_injective, ← number]
  · simp only [emMtxmngDeleteMutex,
      shows.settled.freeBlock_dead member] at called
    obtain ⟨rfl, rest⟩ := Prod.mk.inj called
    obtain ⟨_, rfl⟩ := Prod.mk.inj rest
    exact ⟨set, shows.settled, shows.ids_eq⟩

theorem emMtxmngLock_mpMutex (mtxm : EmMtxmng) (mutexId timeoutMs : ℤ)
    (answered : Bool) :
    (emMtxmngLock mtxm mutexId timeoutMs answered).2.2.mpMutex =
      mtxm.mpMutex := by
  simp only [emMtxmngLock]
  split_ifs <;> rfl

theorem emMtxmngUnlock_mpMutex {mtxm after : EmMtxmng} {mutexId ret : ℤ}
    {answered : Bool} {calls : List PthreadCall}
    (called : emMtxmngUnlock mtxm mutexId answered =
      some (ret, calls, after)) : after.mpMutex = mtxm.mpMutex := by
  rw [emMtxmngUnlock] at called
  split_ifs at called with outside
  obtain ⟨_, rest⟩ := Prod.mk.inj (Option.some.inj called)
  obtain ⟨_, rfl⟩ := Prod.mk.inj rest
  rfl

theorem Shows.step (shows : before.Shows params set)
    (taken : before.Step event after) : ∃ next, after.Shows params next := by
  cases taken with
  | create called => exact shows.create called
  | @call mutexId ret call calls mtxm isInt called =>
      cases call with
      | deleteMutex =>
          simpa using shows.deleteMutex isInt (Option.some.inj called)
      | lock timeoutMs answered =>
          have kept :=
            emMtxmngLock_mpMutex before.mtxm mutexId timeoutMs answered
          rw [Option.some.inj called] at kept
          exact ⟨set, kept ▸ shows.settled, by simpa using shows.ids_eq⟩
      | unlock answered =>
          have kept := emMtxmngUnlock_mpMutex called
          exact ⟨set, kept ▸ shows.settled, by simpa using shows.ids_eq⟩

/-- An `int` that is no id stands for no live block, if the ids are the numbers
of the blocks. -/
theorem Shows.getDataptr_none (shows : state.Shows params set)
    (addressable : params.Addressable) {mutexId : ℤ}
    (isInt : toInt32 mutexId = mutexId) (missing : mutexId ∉ state.ids) :
    emMpoolGetDataptr state.mtxm.mpMutex (intToUint32 mutexId) = none := by
  rw [shows.settled.getDataptr_eq, if_neg]
  intro member
  have bound := (SparseSet.mem_members.mp member).1
  have number := eq_of_intToUint32 isInt rfl
    (bound.le.trans shows.settled.capacity_le)
  rw [shows.ids_eq addressable] at missing
  exact missing (number ▸ Finset.mem_image_of_mem _ member)

end MtxmngUse

/-! ## Calls with other ids -/

namespace MtxmngCall

variable {mtxm : EmMtxmng} {mutexId : ℤ}

/-- The lookup of the id is used. -/
theorem lock_refused (timeoutMs : ℤ) (answered : Bool)
    (dead : emMpoolGetDataptr mtxm.mpMutex (intToUint32 mutexId) = none) :
    (lock timeoutMs answered).Refused mtxm mutexId := by
  constructor
  · refine ⟨-1, by decide, ?_⟩
    simp [run, emMtxmngLock, dead, emMutexLock]
  · intro access used
    have fails : (emMutexLock none timeoutMs answered).1 ≠ 0 := by
      simp [emMutexLock]
    simp only [accesses, emMtxmngLockAccesses, dead, if_pos fails,
      List.append_nil, List.mem_map] at used
    obtain ⟨index, inBlock, rfl⟩ := used
    rw [emMpoolGetDataptrIndices] at inBlock
    split_ifs at inBlock with beyond
    · cases inBlock
    · obtain rfl := List.mem_singleton.mp inBlock
      simp only [MtxmngAccess.index]
      omega

/-- A mutex that is there is tried. -/
theorem lock_not_refused {timeoutMs : ℤ} {answered : Bool} {mutex : ℤ}
    (live : emMpoolGetDataptr mtxm.mpMutex (intToUint32 mutexId) =
      some mutex) :
    ¬ (lock timeoutMs answered).Refused mtxm mutexId := by
  intro refused
  obtain ⟨ret, _, called⟩ := refused.result
  have noCalls : (emMtxmngLock mtxm mutexId timeoutMs answered).2.1 = [] := by
    rw [Option.some.inj called]
  simp only [emMtxmngLock, live, emMutexLock] at noCalls
  split_ifs at noCalls

/-- NULL is passed on. -/
theorem deleteMutex_not_refused : ¬ deleteMutex.Refused mtxm mutexId := by
  intro refused
  obtain ⟨ret, _, called⟩ := refused.result
  have noCalls : (emMtxmngDeleteMutex mtxm mutexId).2.1 = [] := by
    rw [Option.some.inj called]
  cases noCalls

/-- The block is used whether it is live or not, or there is none. -/
theorem unlock_not_refused {answered : Bool} :
    ¬ (unlock answered).Refused mtxm mutexId := by
  intro refused
  obtain ⟨ret, _, called⟩ := refused.result
  rw [run, emMtxmngUnlock] at called
  split_ifs at called with outside
  have noCalls := congrArg (fun result => result.2.1) (Option.some.inj called)
  cases noCalls

theorem refused_iff (call : MtxmngCall) :
    call.Refused mtxm mutexId ↔
      (∃ timeoutMs answered, call = lock timeoutMs answered) ∧
        emMpoolGetDataptr mtxm.mpMutex (intToUint32 mutexId) = none := by
  cases call with
  | deleteMutex =>
      exact iff_of_false deleteMutex_not_refused (by simp)
  | unlock answered =>
      exact iff_of_false unlock_not_refused (by simp)
  | lock timeoutMs answered =>
      constructor
      · intro refused
        refine ⟨⟨timeoutMs, answered, rfl⟩, ?_⟩
        cases found : emMpoolGetDataptr mtxm.mpMutex
            (intToUint32 mutexId) with
        | none => rfl
        | some mutex => exact absurd refused (lock_not_refused found)
      · intro dead
        exact lock_refused timeoutMs answered dead.2

end MtxmngCall

/-- After any calls, of those with an `int` that is not the id of a mutex,
exactly `em_mtxmng_lock` is refused, if the id leads to no live block.  It never
does so in a pool in which no address of a block overflows. -/
theorem mutex_id_refused_iff {memory mtxm : EmMtxmng} {maxMutexNum : ℤ}
    {islock : ℤ → ℤ} {rawdata : ℤ}
    (created : emMtxmngInit memory maxMutexNum islock rawdata = (0, mtxm))
    (accepted : intToUint32 maxMutexNum ≤ semValueMax)
    {events : List MtxmngEvent} {state : MtxmngUse}
    (run : Run MtxmngUse.Step ⟨mtxm, ∅⟩ events state)
    {mutexId : ℤ} (isInt : toInt32 mutexId = mutexId)
    (missing : mutexId ∉ state.ids) (call : MtxmngCall) :
    (call.Refused state.mtxm mutexId ↔
      (∃ timeoutMs answered, call = .lock timeoutMs answered) ∧
        emMpoolGetDataptr state.mtxm.mpMutex (intToUint32 mutexId) = none) ∧
    (sizeofMutex * (intToUint32 maxMutexNum - 1) < 4294967296 →
      emMpoolGetDataptr state.mtxm.mpMutex (intToUint32 mutexId) = none) := by
  refine ⟨call.refused_iff, ?_⟩
  intro fits
  obtain ⟨isCreated, rfl⟩ := Prod.mk.inj created
  obtain ⟨initial, empty, settled⟩ :=
    emMpoolCreate_settled memory.mpMutex accepted (Prod.ext isCreated rfl)
  have start : MtxmngUse.Shows
      ⟨intToUint32 maxMutexNum, sizeofMutex, rawdata⟩
      ⟨(emMtxmngInit memory maxMutexNum islock rawdata).2, ∅⟩ initial := by
    refine ⟨settled, ?_⟩
    intro _
    rw [SparseSet.members_eq_empty empty, Finset.image_empty]
  obtain ⟨set, shows⟩ := run.invariant
    (fun state => ∃ set, MtxmngUse.Shows
      ⟨intToUint32 maxMutexNum, sizeofMutex, rawdata⟩ state set)
    ⟨initial, start⟩
    (by
      intro before event after shown taken
      obtain ⟨set, shows⟩ := shown
      exact shows.step taken)
  have positive : 0 < sizeofMutex := by decide
  exact shows.getDataptr_none ⟨positive, fits⟩ isInt missing

/-- Two mutexes, of which the first one is created. -/
theorem mutex_id_refused_second :
    ∃ state : MtxmngUse,
      Run MtxmngUse.Step ⟨(emMtxmngInit default 2 default 1000).2, ∅⟩
        [.create 0] state ∧
      (MtxmngCall.lock (-1) true).Refused state.mtxm 1 := by
  have run : ∃ state : MtxmngUse,
      Run MtxmngUse.Step ⟨(emMtxmngInit default 2 default 1000).2, ∅⟩
        [.create 0] state ∧ state.ids = {0} :=
    ⟨_, .cons (MtxmngUse.step_create (by decide +kernel)) .nil, rfl⟩
  obtain ⟨state, run, isIds⟩ := run
  have created : emMtxmngInit default 2 default 1000 =
      (0, (emMtxmngInit default 2 default 1000).2) := rfl
  have missing : (1 : ℤ) ∉ state.ids := by
    rw [isIds]
    decide
  obtain ⟨refused, dead⟩ := mutex_id_refused_iff created (by decide) run
    (by decide) missing (.lock (-1) true)
  exact ⟨state, run, refused.mpr ⟨⟨-1, true, rfl⟩, dead (by decide)⟩⟩

/-- On a new manager a deletion destroys the mutex NULL. -/
theorem mutex_id_destroys_null :
    ¬ ∀ (maxMutexNum : ℤ) (mtxm : EmMtxmng),
      emMtxmngInit default maxMutexNum default 1000 = (0, mtxm) →
      intToUint32 maxMutexNum ≤ semValueMax →
      ∀ events state, Run MtxmngUse.Step ⟨mtxm, ∅⟩ events state →
        ∀ mutexId, toInt32 mutexId = mutexId → mutexId ∉ state.ids →
          ∀ call : MtxmngCall, call.Refused state.mtxm mutexId := by
  intro refused
  have result := (refused 1 _ rfl (by decide) [] _ .nil 0 (by decide)
    (Finset.notMem_empty 0) .deleteMutex).result
  obtain ⟨ret, _, called⟩ := result
  have noCalls := congrArg (fun result => result.2.1) (Option.some.inj called)
  cases noCalls

end EmbeddedMiddle
