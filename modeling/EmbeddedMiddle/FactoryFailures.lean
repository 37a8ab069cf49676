import EmbeddedMiddle.EventManager
import EmbeddedMiddle.MempoolViews
import EmbeddedMiddle.Semmng

/-!
# Factories that fail

The managers of semaphores and of events take a block from a pool and
initialise an object in it.  Where the initialisation fails the caller gets
NULL, but the block is not given back.
-/

namespace EmbeddedMiddle

open Foundation

def EmMpool.liveBlocks (mp : EmMpool) : Finset ℕ :=
  (Finset.range mp.numMax).filter fun k =>
    (mp.block k).indexPtr < mp.numUsed

/-- What both factories do to the pool: a block is taken, and the caller gets
it if the object in it could be initialised. -/
def poolFactory (mp : EmMpool) (initialised : Bool) : Option ℤ × EmMpool :=
  match emMpoolAllocBlock mp emNoWait with
  | some (some block, mp) => (if initialised then some block else none, mp)
  | some (none, mp) => (none, mp)
  | none => (none, mp)

/-- A manager of objects in the blocks of a pool.  `Creation` and `Disposal`
are the arguments of a call together with the answers of the system to it. -/
structure ObjectManager (Manager Creation Disposal : Type) where
  pool : Manager → EmMpool
  factory : Manager → Creation → Option ℤ × Manager
  initialises : Creation → Bool
  dispose : Manager → Disposal → ℤ × Manager
  factory_eq : ∀ manager creation,
    ((factory manager creation).1, pool (factory manager creation).2) =
      poolFactory (pool manager) (initialises creation)
  dispose_eq : ∀ manager disposal,
    (∃ address,
      ((dispose manager disposal).1, pool (dispose manager disposal).2) =
        emMpoolFreeBlock (pool manager) address) ∨
    ((dispose manager disposal).1, pool (dispose manager disposal).2) =
      (-1, pool manager)

/-- A semaphore is created with a value and disposed by its address. -/
def semmngObjects : ObjectManager EmSemmng (ℤ × Bool) ℤ where
  pool := EmSemmng.mpSemaphore
  factory := fun smm creation => emSemmngFactory smm creation.1 creation.2
  initialises := fun creation =>
    creation.2 && (emSemInit creation.1).isSome
  dispose := emSemmngDispose
  factory_eq := by
    intro smm creation
    obtain ⟨value, answered⟩ := creation
    simp only [emSemmngFactory, poolFactory]
    rcases emMpoolAllocBlock smm.mpSemaphore emNoWait with
      _ | ⟨_ | block, mp⟩
    · rfl
    · rfl
    · cases answered with
      | false => rfl
      | true =>
          cases accepted : emSemInit value with
          | none => simp
          | some sem => simp
  dispose_eq := fun smm semP => .inl ⟨semP, rfl⟩

/-- An event consists of a condition variable and a mutex. -/
def evtmngObjects :
    ObjectManager EmEvtmng (Bool × Bool) (ℤ × Bool × Bool) where
  pool := EmEvtmng.mpEvent
  factory := fun evtmng creation =>
    emEvtmngFactory evtmng creation.1 creation.2
  initialises := fun creation => creation.1 && creation.2
  dispose := fun evtmng disposal =>
    emEvtmngDispose evtmng disposal.1 disposal.2.1 disposal.2.2
  factory_eq := by
    intro evtmng creation
    obtain ⟨cond, mtx⟩ := creation
    simp only [emEvtmngFactory, poolFactory]
    rcases emMpoolAllocBlock evtmng.mpEvent emNoWait with
      _ | ⟨_ | block, mp⟩
    · rfl
    · rfl
    · cases cond <;> cases mtx <;> rfl
  dispose_eq := by
    intro evtmng disposal
    obtain ⟨evtP, cond, mtx⟩ := disposal
    by_cases destroyed : emEventDestroy cond mtx = 0
    · left
      refine ⟨evtP, ?_⟩
      simp only [emEvtmngDispose, destroyed, ne_eq, not_true_eq_false,
        ↓reduceIte]
    · right
      simp only [emEvtmngDispose, ne_eq, destroyed, not_false_eq_true,
        ↓reduceIte]

/-! ## The pool behind a manager -/

namespace EmMpool.Settled

variable {params : PoolParams} {mp : EmMpool}
  {set : SparseSet params.capacity}

theorem liveBlocks_eq (settled : mp.Settled params set) :
    mp.liveBlocks = set.members := by
  ext k
  rw [EmMpool.liveBlocks, Finset.mem_filter, Finset.mem_range,
    settled.numMax_eq, settled.indexPtr_eq, settled.numUsed_eq,
    SparseSet.mem_members]

theorem poolFactory_full (settled : mp.Settled params set)
    (full : set.count = params.capacity) (initialised : Bool) :
    poolFactory mp initialised = (none, mp) := by
  simp only [poolFactory, settled.allocBlock_full full]

theorem poolFactory_room (settled : mp.Settled params set)
    (room : set.count < params.capacity) (initialised : Bool) :
    ∃ block after,
      poolFactory mp initialised =
        (if initialised then some block else none, after) ∧
      after.Settled params (set.acquire room) := by
  obtain ⟨after, called, kept⟩ := settled.allocBlock_room room
  refine ⟨params.address (set.dense set.count), after, ?_, kept⟩
  simp only [poolFactory, called]

theorem freeBlock_cases (settled : mp.Settled params set) (address : ℤ) :
    (∃ k after, ∃ member : k ∈ set.members,
      emMpoolFreeBlock mp address = (0, after) ∧
        after.Settled params (set.release k member)) ∨
      emMpoolFreeBlock mp address = (-1, mp) := by
  rw [emMpoolFreeBlock]
  generalize intToUint32 (toInt32
    ((address - mp.rawdata).tdiv mp.blockSize)) = k
  by_cases member : k ∈ set.members
  · obtain ⟨after, freed, kept⟩ := settled.freeBlock_live member
    exact .inl ⟨k, after, member, freed, kept⟩
  · exact .inr (settled.freeBlock_dead member)

end EmMpool.Settled

/-! ## Runs of a manager -/

/-- A manager, and for the record the number of objects that have been handed
out and not disposed since. -/
structure ManagerUse (Manager : Type) where
  manager : Manager
  outstanding : ℕ

/-- A call and what it returned; `none` is NULL. -/
inductive ManagerEvent (Creation Disposal : Type) where
  | create (creation : Creation) (result : Option ℤ)
  | dispose (disposal : Disposal) (ret : ℤ)

namespace ObjectManager

variable {Manager Creation Disposal : Type}

def Step (om : ObjectManager Manager Creation Disposal)
    (before : ManagerUse Manager) :
    ManagerEvent Creation Disposal → ManagerUse Manager → Prop
  | .create creation result, after =>
      om.factory before.manager creation = (result, after.manager) ∧
        after.outstanding =
          before.outstanding + if result.isSome then 1 else 0
  | .dispose disposal ret, after =>
      om.dispose before.manager disposal = (ret, after.manager) ∧
        after.outstanding = before.outstanding - if ret = 0 then 1 else 0

/-- A creation that returned NULL left the live blocks as they were. -/
def KeepsPool (om : ObjectManager Manager Creation Disposal)
    (before : ManagerUse Manager) (event : ManagerEvent Creation Disposal)
    (after : ManagerUse Manager) : Prop :=
  ∀ creation, event = .create creation none →
    (om.pool after.manager).liveBlocks = (om.pool before.manager).liveBlocks

/-- The object of a creation can be initialised, or there is no block for
it. -/
def Initialises (om : ObjectManager Manager Creation Disposal)
    (before : ManagerUse Manager) (event : ManagerEvent Creation Disposal) :
    Prop :=
  ∀ creation result, event = .create creation result →
    om.initialises creation = true ∨
      (om.pool before.manager).liveBlocks.card =
        (om.pool before.manager).numMax

/-- The live blocks are those of the objects that are outstanding, and this
many more can be created as the capacity leaves. -/
structure Counts (om : ObjectManager Manager Creation Disposal)
    (capacity : ℕ) (state : ManagerUse Manager) : Prop where
  live : (om.pool state.manager).liveBlocks.card = state.outstanding
  bounded : state.outstanding ≤ capacity
  creates : ∀ creation, om.initialises creation = true →
    ((om.factory state.manager creation).1 ≠ none ↔
      state.outstanding < capacity)

/-- In every state that is reached a failing creation keeps the pool exactly
if its object can be initialised or the pool is full.  Where this was so for
all creations, no block is lost. -/
structure Intact (om : ObjectManager Manager Creation Disposal)
    (capacity : ℕ) (start : Manager) : Prop where
  keeps_iff : ∀ events state event after,
    Run om.Step ⟨start, 0⟩ events state → om.Step state event after →
      (om.KeepsPool state event after ↔ om.Initialises state event)
  counts : ∀ events state,
    Run (Guarded om.Initialises om.Step) ⟨start, 0⟩ events state →
      om.Counts capacity state

/-- All that one call can do to the pool and to the number of objects. -/
inductive Effect (om : ObjectManager Manager Creation Disposal)
    (params : PoolParams) (set : SparseSet params.capacity)
    (before : ManagerUse Manager) :
    ManagerEvent Creation Disposal → ManagerUse Manager → Prop where
  | created {creation : Creation} {block : ℤ} {after : ManagerUse Manager}
      (room : set.count < params.capacity) :
      om.initialises creation = true →
      after.outstanding = before.outstanding + 1 →
      (om.pool after.manager).Settled params (set.acquire room) →
      Effect om params set before (.create creation (some block)) after
  | lost {creation : Creation} {after : ManagerUse Manager}
      (room : set.count < params.capacity) :
      om.initialises creation = false →
      after.outstanding = before.outstanding →
      (om.pool after.manager).Settled params (set.acquire room) →
      Effect om params set before (.create creation none) after
  | full {creation : Creation} {after : ManagerUse Manager} :
      set.count = params.capacity →
      after.outstanding = before.outstanding →
      (om.pool after.manager).Settled params set →
      Effect om params set before (.create creation none) after
  | disposed {disposal : Disposal} {after : ManagerUse Manager} {k : ℕ}
      (member : k ∈ set.members) :
      after.outstanding = before.outstanding - 1 →
      (om.pool after.manager).Settled params (set.release k member) →
      Effect om params set before (.dispose disposal 0) after
  | refused {disposal : Disposal} {after : ManagerUse Manager} :
      after.outstanding = before.outstanding →
      (om.pool after.manager).Settled params set →
      Effect om params set before (.dispose disposal (-1)) after

variable {om : ObjectManager Manager Creation Disposal} {params : PoolParams}
  {set : SparseSet params.capacity} {before after : ManagerUse Manager}
  {event : ManagerEvent Creation Disposal}

theorem step_create {creation : Creation} {result : Option ℤ}
    (returned : (om.factory before.manager creation).1 = result) :
    om.Step before (.create creation result)
      ⟨(om.factory before.manager creation).2,
        before.outstanding + if result.isSome then 1 else 0⟩ :=
  ⟨Prod.ext returned rfl, rfl⟩

theorem step_dispose {disposal : Disposal} {ret : ℤ}
    (returned : (om.dispose before.manager disposal).1 = ret) :
    om.Step before (.dispose disposal ret)
      ⟨(om.dispose before.manager disposal).2,
        before.outstanding - if ret = 0 then 1 else 0⟩ :=
  ⟨Prod.ext returned rfl, rfl⟩

theorem Step.effect (taken : om.Step before event after)
    (settled : (om.pool before.manager).Settled params set) :
    om.Effect params set before event after := by
  cases event with
  | create creation result =>
      obtain ⟨called, counted⟩ := taken
      have pool := om.factory_eq before.manager creation
      rw [called] at pool
      rcases set.count_le.lt_or_eq with room | full
      · obtain ⟨block, mp, made, kept⟩ :=
          settled.poolFactory_room room (om.initialises creation)
        rw [made] at pool
        obtain ⟨rfl, rfl⟩ := Prod.mk.inj pool
        cases initialised : om.initialises creation with
        | true =>
            rw [initialised] at counted
            exact .created room initialised counted kept
        | false =>
            rw [initialised] at counted
            exact .lost room initialised counted kept
      · rw [settled.poolFactory_full full] at pool
        obtain ⟨rfl, same⟩ := Prod.mk.inj pool
        exact .full full counted (same ▸ settled)
  | dispose disposal ret =>
      obtain ⟨called, counted⟩ := taken
      have pool := om.dispose_eq before.manager disposal
      rw [called] at pool
      rcases pool with ⟨address, pool⟩ | pool
      · rcases settled.freeBlock_cases address with
          ⟨k, mp, member, freed, kept⟩ | refused
        · rw [freed] at pool
          obtain ⟨rfl, rfl⟩ := Prod.mk.inj pool
          exact .disposed member counted kept
        · rw [refused] at pool
          obtain ⟨rfl, same⟩ := Prod.mk.inj pool
          exact .refused counted (same ▸ settled)
      · obtain ⟨rfl, same⟩ := Prod.mk.inj pool
        exact .refused counted (same ▸ settled)

theorem Effect.settled (effect : om.Effect params set before event after) :
    ∃ next : SparseSet params.capacity,
      (om.pool after.manager).Settled params next := by
  cases effect with
  | created room _ _ kept => exact ⟨_, kept⟩
  | lost room _ _ kept => exact ⟨_, kept⟩
  | full _ _ kept => exact ⟨_, kept⟩
  | disposed member _ kept => exact ⟨_, kept⟩
  | refused _ kept => exact ⟨_, kept⟩

theorem Effect.keeps_iff (effect : om.Effect params set before event after)
    (settled : (om.pool before.manager).Settled params set) :
    om.KeepsPool before event after ↔ om.Initialises before event := by
  have live := settled.liveBlocks_eq
  have card : (om.pool before.manager).liveBlocks.card = set.count := by
    rw [live, set.card_members]
  cases effect with
  | created room initialised _ kept =>
      refine iff_of_true (fun _ isCreate => by cases isCreate) ?_
      rintro _ _ ⟨⟩
      exact .inl initialised
  | lost room failed _ kept =>
      refine iff_of_false ?_ ?_
      · intro keeps
        have same := keeps _ rfl
        rw [live, kept.liveBlocks_eq, set.members_acquire] at same
        exact set.dense_count_not_mem room
          (same ▸ Finset.mem_insert_self _ _)
      · intro initialises
        rcases initialises _ _ rfl with initialised | isFull
        · rw [failed] at initialised
          cases initialised
        · rw [card, settled.numMax_eq] at isFull
          exact room.ne isFull
  | full isFull _ kept =>
      refine iff_of_true ?_ ?_
      · intro _ _
        rw [live, kept.liveBlocks_eq]
      · intro _ _ _
        right
        rw [card, settled.numMax_eq, isFull]
  | disposed member _ kept =>
      exact iff_of_true (fun _ isCreate => by cases isCreate)
        (fun _ _ isCreate => by cases isCreate)
  | refused _ kept =>
      exact iff_of_true (fun _ isCreate => by cases isCreate)
        (fun _ _ isCreate => by cases isCreate)

/-- Where no object fails to be initialised, the blocks and the objects change
together. -/
theorem Effect.counted (effect : om.Effect params set before event after)
    (settled : (om.pool before.manager).Settled params set)
    (counted : set.count = before.outstanding)
    (initialises : om.Initialises before event) :
    ∃ next : SparseSet params.capacity,
      (om.pool after.manager).Settled params next ∧
        next.count = after.outstanding := by
  cases effect with
  | created room _ more kept =>
      refine ⟨_, kept, ?_⟩
      rw [more, ← counted]
      rfl
  | lost room failed _ kept =>
      rcases initialises _ _ rfl with initialised | isFull
      · rw [failed] at initialised
        cases initialised
      · rw [settled.liveBlocks_eq, set.card_members,
          settled.numMax_eq] at isFull
        exact absurd isFull room.ne
  | full _ same kept => exact ⟨_, kept, counted.trans same.symm⟩
  | disposed member less kept =>
      refine ⟨_, kept, ?_⟩
      rw [less, ← counted]
      rfl
  | refused same kept => exact ⟨_, kept, counted.trans same.symm⟩

theorem counts_of_settled {state : ManagerUse Manager}
    (settled : (om.pool state.manager).Settled params set)
    (counted : set.count = state.outstanding) :
    om.Counts params.capacity state := by
  refine ⟨?_, counted ▸ set.count_le, ?_⟩
  · rw [settled.liveBlocks_eq, set.card_members, counted]
  · intro creation initialised
    have pool := om.factory_eq state.manager creation
    rw [initialised] at pool
    rcases set.count_le.lt_or_eq with room | full
    · obtain ⟨block, mp, made, _⟩ := settled.poolFactory_room room true
      rw [made] at pool
      rw [(Prod.mk.inj pool).1]
      exact iff_of_true (Option.some_ne_none _) (counted ▸ room)
    · rw [settled.poolFactory_full full] at pool
      rw [(Prod.mk.inj pool).1]
      exact iff_of_false (fun some => some rfl)
        (fun room => (counted ▸ room).ne full)

/-- A manager with a new pool. -/
theorem intact_of_settled {capacity blockSize : ℕ} {rawdata : ℤ}
    {set : SparseSet capacity} {start : Manager}
    (settled : (om.pool start).Settled ⟨capacity, blockSize, rawdata⟩ set)
    (empty : set.count = 0) : om.Intact capacity start := by
  constructor
  · intro events state event after run taken
    obtain ⟨reached, shown⟩ := run.invariant
      (fun state => ∃ set : SparseSet capacity,
        (om.pool state.manager).Settled ⟨capacity, blockSize, rawdata⟩ set)
      ⟨set, settled⟩
      (fun _ _ _ shown taken => (taken.effect shown.choose_spec).settled)
    exact (taken.effect shown).keeps_iff shown
  · intro events state run
    obtain ⟨reached, shown, counted⟩ := run.invariant
      (fun state => ∃ set : SparseSet capacity,
        (om.pool state.manager).Settled ⟨capacity, blockSize, rawdata⟩ set ∧
          set.count = state.outstanding)
      ⟨set, settled, empty⟩
      (by
        intro before event after shown taken
        obtain ⟨set, settled, counted⟩ := shown
        exact (taken.2.effect settled).counted settled counted taken.1)
    exact counts_of_settled shown counted

end ObjectManager

/-- For both managers: the live blocks survive a creation that returns NULL
exactly if the object could be initialised or the pool was full, in every state
that is reached; and where only such creations were made, every block that is
not in use can be had. -/
theorem failed_factory_keeps_pool_iff
    {smmMemory smm : EmSemmng} {evtMemory evtmng : EmEvtmng}
    {maxSemNum : ℤ} {maxEventNum : ℕ} {semRawdata evtRawdata : ℤ}
    (semCreated : emSemmngInit smmMemory maxSemNum semRawdata = (0, smm))
    (semAccepted : intToUint32 maxSemNum ≤ semValueMax)
    (evtCreated : emEvtmngInit evtMemory maxEventNum evtRawdata = (0, evtmng))
    (evtAccepted : maxEventNum ≤ semValueMax) :
    semmngObjects.Intact (intToUint32 maxSemNum) smm ∧
      evtmngObjects.Intact maxEventNum evtmng := by
  constructor
  · obtain ⟨created, rfl⟩ := Prod.mk.inj semCreated
    obtain ⟨set, empty, settled⟩ :=
      emMpoolCreate_settled smmMemory.mpSemaphore semAccepted
        (Prod.ext created rfl)
    exact ObjectManager.intact_of_settled settled empty
  · simp only [emEvtmngInit] at evtCreated
    split_ifs at evtCreated with failed
    · cases (Prod.mk.inj evtCreated).1
    obtain ⟨_, rfl⟩ := Prod.mk.inj evtCreated
    obtain ⟨set, empty, settled⟩ :=
      emMpoolCreate_settled evtMemory.mpEvent evtAccepted
        (Prod.ext (not_not.mp failed) rfl)
    exact ObjectManager.intact_of_settled settled empty

/-- A semaphore can still be created after one was created and disposed. -/
theorem failed_factory_keeps_pool_one :
    ∃ state,
      Run (Guarded semmngObjects.Initialises semmngObjects.Step)
        ⟨(emSemmngInit default 1 1000).2, 0⟩
        [.create (0, true) (some 1000), .dispose 1000 0] state ∧
      semmngObjects.Counts 1 state := by
  let start := (emSemmngInit default 1 1000).2
  have run : ∃ state,
      Run (Guarded semmngObjects.Initialises semmngObjects.Step) ⟨start, 0⟩
        [.create (0, true) (some 1000), .dispose 1000 0] state := by
    refine ⟨_, .cons
      ⟨?_, ObjectManager.step_create (by decide +kernel)⟩ (.cons
      ⟨?_, ObjectManager.step_dispose (by decide +kernel)⟩ .nil)⟩
    · rintro _ _ ⟨⟩
      exact .inl rfl
    · rintro _ _ ⟨⟩
  obtain ⟨state, run⟩ := run
  have semCreated : emSemmngInit default 1 1000 = (0, start) := rfl
  have evtCreated : emEvtmngInit default 1 1000 =
      (0, (emEvtmngInit default 1 1000).2) := rfl
  have intact := (failed_factory_keeps_pool_iff semCreated (by decide)
    evtCreated (by decide)).1
  exact ⟨state, run, intact.counts _ state run⟩

/-- A semaphore with the value -1 takes the only block. -/
theorem failed_factory_loses_block :
    ¬ ∀ (maxSemNum : ℤ) (smm : EmSemmng),
      emSemmngInit default maxSemNum 1000 = (0, smm) →
      intToUint32 maxSemNum ≤ semValueMax →
      ∀ events state event after,
        Run semmngObjects.Step ⟨smm, 0⟩ events state →
        semmngObjects.Step state event after →
          semmngObjects.KeepsPool state event after := by
  intro keeps
  have same := keeps 1 _ rfl (by decide) [] _ (.create (-1, true) none)
    ⟨(emSemmngFactory (emSemmngInit default 1 1000).2 (-1) true).2, 0⟩
    .nil ⟨rfl, rfl⟩ (-1, true) rfl
  have lost :
      (emSemmngFactory (emSemmngInit default 1 1000).2 (-1)
        true).2.mpSemaphore.liveBlocks ≠
      (emSemmngInit default 1 1000).2.mpSemaphore.liveBlocks := by
    decide +kernel
  exact lost same

end EmbeddedMiddle
