import EmbeddedMiddle.Regions

/-!
# Destroyed containers give their regions back

Each destroy function names by hand what its create function requested,
directly or through the pools inside.  All do but those of the memory manager,
which leaves its two pools, and of a data manager whose pool was not created.
-/

namespace EmbeddedMiddle

open Foundation

variable {allocFunc : AllocFunc} {freeFunc : FreeFunc}
  {heap before middle after : RegionHeap}

/-! ## What is requested and what is released -/

namespace MpoolRegions

variable {regions created : MpoolRegions} {blockSize blockNum : ℕ} {ret : ℤ}

/-- The pool that `em_mpool_create` makes where it returns 0. -/
structure Created (created : MpoolRegions) (freeFunc : FreeFunc)
    (before after : RegionHeap) : Prop where
  freeFunc_eq : created.freeFunc = freeFunc
  blockPtr_ne : created.blockPtr ≠ none
  obtains : Obtains before created.pointers after

theorem emMpoolCreate_zero (zero : blockSize = 0 ∨ blockNum = 0) :
    regions.emMpoolCreate blockSize blockNum allocFunc freeFunc before =
      some (-1, regions, before) := by
  rw [emMpoolCreate, if_pos zero]

theorem emMpoolCreate_created (positive : ¬ (blockSize = 0 ∨ blockNum = 0))
    (called : regions.emMpoolCreate blockSize blockNum allocFunc freeFunc
      before = some (ret, created, after)) :
    ret = 0 ∧ created.Created freeFunc before after := by
  rw [emMpoolCreate, if_neg positive] at called
  dsimp only at called
  split_ifs at called with written
  obtain ⟨rfl, same⟩ := Prod.mk.inj (Option.some.inj called)
  obtain ⟨rfl, rfl⟩ := Prod.mk.inj same
  refine ⟨rfl, rfl, fun isNull => written (.inl isNull), ?_⟩
  exact (((Obtains.call allocFunc _).trans (Obtains.call allocFunc _)).trans
    (Obtains.call allocFunc _)).trans (Obtains.call allocFunc _)

/-- Only a creation that is not refused returns 0. -/
theorem created_of_accepted
    (called : regions.emMpoolCreate blockSize blockNum allocFunc freeFunc
      before = some (0, created, after)) :
    created.Created freeFunc before after := by
  by_cases zero : blockSize = 0 ∨ blockNum = 0
  · rw [emMpoolCreate_zero zero] at called
    exact absurd (Prod.mk.inj (Option.some.inj called)).1 (by decide)
  · exact (emMpoolCreate_created zero called).2

theorem emMpoolDestroy_given (heap : RegionHeap)
    (given : regions.freeFunc = .given) :
    ∃ after, regions.emMpoolDestroy heap = some after ∧
      Releases heap regions.pointers after := by
  refine ⟨(((heap.free regions.blockPtr).free regions.block).free
    regions.rawdata).free regions.dataPtr, ?_, ?_⟩
  · simp only [emMpoolDestroy, given]
    rfl
  · have released : Releases heap _ _ :=
      (((Releases.free regions.blockPtr).trans (.free regions.block)).trans
        (.free regions.rawdata)).trans (.free regions.dataPtr)
    refine released.perm ?_
    exact .cons _ (.cons _ (.swap _ _ []))

theorem emMpoolDestroy_null (heap : RegionHeap)
    (isNull : regions.freeFunc = .null) :
    regions.emMpoolDestroy heap = some heap := by
  rw [emMpoolDestroy, if_pos isNull]

theorem emMpoolDestroy_invalid (invalid : regions.freeFunc = .invalid) :
    regions.emMpoolDestroy heap = none := by
  simp only [emMpoolDestroy, invalid]
  rfl

/-- A pool gives its regions back if it has a function to pass them to. -/
theorem Created.returned_iff (made : created.Created freeFunc before middle) :
    (∃ after, created.emMpoolDestroy middle = some after ∧
        before.GivesBack after) ↔ freeFunc = .given := by
  constructor
  · rintro ⟨after, destroyed, given⟩
    cases isFunc : freeFunc with
    | given => rfl
    | null =>
        rw [emMpoolDestroy_null _ (made.freeFunc_eq.trans isFunc)] at destroyed
        cases destroyed
        obtain ⟨region, isRegion⟩ := Option.ne_none_iff_exists'.mp
          made.blockPtr_ne
        have member : some region ∈ created.pointers := by
          rw [← isRegion]
          exact List.mem_cons_self
        exact absurd given (made.obtains.lost .nil member List.not_mem_nil)
    | invalid =>
        rw [emMpoolDestroy_invalid (made.freeFunc_eq.trans isFunc)]
          at destroyed
        cases destroyed
  · rintro rfl
    obtain ⟨after, destroyed, released⟩ :=
      emMpoolDestroy_given middle made.freeFunc_eq
    exact ⟨after, destroyed, made.obtains.givesBack released (.refl _)⟩

end MpoolRegions

namespace BlockRegions

variable {created : BlockRegions} {rawSize ptrSize : ℕ} {filled : Bool}

theorem create_obtains
    (called : create rawSize ptrSize filled allocFunc freeFunc before =
      some (created, after)) :
    created.freeFunc = freeFunc ∧ Obtains before created.pointers after := by
  simp only [create] at called
  split_ifs at called with written
  obtain ⟨rfl, rfl⟩ := Prod.mk.inj (Option.some.inj called)
  exact ⟨rfl, (Obtains.call allocFunc _).trans (Obtains.call allocFunc _)⟩

theorem returned_iff
    (called : create rawSize ptrSize filled allocFunc freeFunc before =
      some (created, middle)) :
    (∃ after, created.destroy middle = some after ∧
        before.GivesBack after) ↔ freeFunc = .given := by
  obtain ⟨isFunc, obtained⟩ := create_obtains called
  constructor
  · rintro ⟨after, destroyed, _⟩
    obtain ⟨_, called, _⟩ := Option.bind_eq_some_iff.mp destroyed
    exact isFunc.symm.trans (FreeFunc.given_of_call called).1
  · rintro rfl
    refine ⟨(middle.free created.blockPtr).free created.rawdata, ?_, ?_⟩
    · simp only [destroy, isFunc]
      rfl
    · have released : Releases middle _ _ :=
        (Releases.free created.blockPtr).trans (.free created.rawdata)
      exact obtained.givesBack released (.swap _ _ [])

end BlockRegions

namespace MtxmngRegions

variable {regions created : MtxmngRegions} {maxMutexNum : ℤ}

theorem returned_iff
    (called : regions.emMtxmngInit maxMutexNum allocFunc freeFunc before =
      some (0, created, middle)) :
    (∃ after, created.emMtxmngDestroy middle = some after ∧
        before.GivesBack after) ↔ freeFunc = .given := by
  simp only [emMtxmngInit] at called
  split at called
  · cases called
  · rename_i ret mpMutex heap inner
    obtain ⟨rfl, same⟩ := Prod.mk.inj (Option.some.inj called)
    obtain ⟨rfl, rfl⟩ := Prod.mk.inj same
    have made := MpoolRegions.created_of_accepted inner
    have obtained := (Obtains.call allocFunc _).trans made.obtains
    constructor
    · rintro ⟨after, destroyed, _⟩
      obtain ⟨_, freed, _⟩ := Option.bind_eq_some_iff.mp destroyed
      exact (FreeFunc.given_of_call freed).1
    · rintro rfl
      let islock := (allocFunc.call (intToSize maxMutexNum) before).1
      obtain ⟨after, destroyed, released⟩ :=
        MpoolRegions.emMpoolDestroy_given (heap.free islock) made.freeFunc_eq
      exact ⟨after, destroyed,
        obtained.givesBack ((Releases.free islock).trans released) (.refl _)⟩

end MtxmngRegions

namespace MpoolRegions

/-- Nothing, or nothing but NULL, would be released. -/
def HoldsNothing (regions : MpoolRegions) : Prop :=
  regions.freeFunc = .null ∨
    regions.freeFunc = .given ∧ ∀ ptr ∈ regions.pointers, ptr = none

end MpoolRegions

namespace DatamngRegions

variable {regions created : DatamngRegions} {dataSize dataNum keySize : ℕ}

/-- The regions of the keys come first; those of the pool follow, if it is
created. -/
theorem emGdatamngCreate_cases
    (called : regions.emGdatamngCreate dataSize dataNum keySize allocFunc
      freeFunc before = some (created, middle)) :
    created.freeFunc = freeFunc ∧ ∃ heap,
      Obtains before [created.keycnt, created.keymem] heap ∧
      (dataSize ≠ 0 ∧ dataNum ≠ 0 ∧
          created.mp.Created freeFunc heap middle ∨
        (dataSize = 0 ∨ dataNum = 0) ∧ created.mp = regions.mp ∧
          middle = heap) := by
  simp only [emGdatamngCreate] at called
  split at called
  · cases called
  · rename_i ret mp heap inner
    split_ifs at called with written
    obtain ⟨rfl, rfl⟩ := Prod.mk.inj (Option.some.inj called)
    refine ⟨rfl, _, (Obtains.call allocFunc _).trans
      (Obtains.call allocFunc _), ?_⟩
    by_cases zero : dataSize = 0 ∨ dataNum = 0
    · rw [MpoolRegions.emMpoolCreate_zero zero] at inner
      obtain ⟨rfl, same⟩ := Prod.mk.inj (Option.some.inj inner)
      obtain ⟨rfl, rfl⟩ := Prod.mk.inj same
      exact .inr ⟨zero, rfl, rfl⟩
    · have made := (MpoolRegions.emMpoolCreate_created zero inner).2
      exact .inl ⟨fun isZero => zero (.inl isZero),
        fun isZero => zero (.inr isZero), made⟩

theorem emGdatamngDestroy_given {heap : RegionHeap}
    (given : created.freeFunc = .given)
    (destroyed : created.mp.emMpoolDestroy middle = some heap) :
    created.emGdatamngDestroy middle =
      some ((heap.free created.keycnt).free created.keymem) := by
  simp only [emGdatamngDestroy, destroyed, given]
  rfl

theorem given_of_destroy
    (destroyed : created.emGdatamngDestroy middle = some after) :
    created.freeFunc = .given ∧
      ∃ heap, created.mp.emMpoolDestroy middle = some heap := by
  obtain ⟨heap, inner, rest⟩ := Option.bind_eq_some_iff.mp destroyed
  obtain ⟨_, called, _⟩ := Option.bind_eq_some_iff.mp rest
  exact ⟨(FreeFunc.given_of_call called).1, heap, inner⟩

theorem releases_keys (created : DatamngRegions) (heap : RegionHeap) :
    Releases heap [created.keycnt, created.keymem]
      ((heap.free created.keycnt).free created.keymem) :=
  (Releases.free created.keycnt).trans (.free created.keymem)

/-- Without a pool of its own the manager gives back what it has if the memory
of the pool holds nothing. -/
theorem returned_zero_iff (given : created.freeFunc = .given)
    (obtained : Obtains before [created.keycnt, created.keymem] middle) :
    (∃ after, created.emGdatamngDestroy middle = some after ∧
        before.GivesBack after) ↔ created.mp.HoldsNothing := by
  cases isFunc : created.mp.freeFunc with
  | null =>
      have destroyed := emGdatamngDestroy_given given
        (created.mp.emMpoolDestroy_null middle isFunc)
      refine ⟨fun _ => .inl isFunc, fun _ => ⟨_, destroyed, ?_⟩⟩
      exact obtained.givesBack (releases_keys created _) (.refl _)
  | invalid =>
      constructor
      · rintro ⟨after, destroyed, _⟩
        obtain ⟨_, heap, inner⟩ := given_of_destroy destroyed
        rw [MpoolRegions.emMpoolDestroy_invalid isFunc] at inner
        cases inner
      · rintro (isNull | ⟨isGiven, _⟩)
        · exact absurd (isNull.symm.trans isFunc) (by decide)
        · exact absurd (isGiven.symm.trans isFunc) (by decide)
  | given =>
      obtain ⟨heap, inner, released⟩ :=
        created.mp.emMpoolDestroy_given middle isFunc
      have destroyed := emGdatamngDestroy_given given inner
      have all := released.trans (releases_keys created heap)
      have balance : before.GivesBack
            ((heap.free created.keycnt).free created.keymem) ↔
          ∀ region, created.mp.pointers.count (some region) = 0 := by
        rw [obtained.givesBack_iff all]
        refine forall_congr' fun region => ?_
        rw [List.count_append]
        omega
      constructor
      · rintro ⟨after, called, back⟩
        obtain rfl := Option.some.inj (destroyed.symm.trans called)
        refine .inr ⟨isFunc, fun ptr member => ?_⟩
        by_contra isRegion
        obtain ⟨region, rfl⟩ := Option.ne_none_iff_exists'.mp isRegion
        exact List.count_eq_zero.mp (balance.mp back region) member
      · rintro (isNull | ⟨_, allNull⟩)
        · exact absurd (isNull.symm.trans isFunc) (by decide)
        · refine ⟨_, destroyed, balance.mpr fun region => ?_⟩
          refine List.count_eq_zero.mpr fun member => ?_
          cases allNull _ member

theorem returned_iff
    (called : regions.emGdatamngCreate dataSize dataNum keySize allocFunc
      freeFunc before = some (created, middle)) :
    (∃ after, created.emGdatamngDestroy middle = some after ∧
        before.GivesBack after) ↔
      freeFunc = .given ∧
        (dataSize ≠ 0 ∧ dataNum ≠ 0 ∨ regions.mp.HoldsNothing) := by
  obtain ⟨isFunc, heap, keys, made | ⟨zero, same, rfl⟩⟩ :=
    emGdatamngCreate_cases called
  · obtain ⟨someSize, someNum, made⟩ := made
    constructor
    · rintro ⟨after, destroyed, _⟩
      exact ⟨isFunc.symm.trans (given_of_destroy destroyed).1,
        .inl ⟨someSize, someNum⟩⟩
    · rintro ⟨rfl, _⟩
      obtain ⟨freed, inner, released⟩ :=
        created.mp.emMpoolDestroy_given middle made.freeFunc_eq
      refine ⟨_, emGdatamngDestroy_given isFunc inner, ?_⟩
      exact (keys.trans made.obtains).givesBack
        (released.trans (releases_keys created freed)) List.perm_append_comm
  · have unmade : ¬ (dataSize ≠ 0 ∧ dataNum ≠ 0) := by
      rintro ⟨someSize, someNum⟩
      exact zero.elim someSize someNum
    constructor
    · rintro ⟨after, destroyed, back⟩
      have given := (given_of_destroy destroyed).1
      have nothing := (returned_zero_iff given keys).mp ⟨after, destroyed, back⟩
      exact ⟨isFunc.symm.trans given, .inr (same ▸ nothing)⟩
    · rintro ⟨rfl, nothing⟩
      refine (returned_zero_iff isFunc keys).mpr ?_
      rw [same]
      exact nothing.resolve_left unmade

end DatamngRegions

namespace MemmngRegions

variable {regions created : MemmngRegions}
  {memUnitSize memBlockNum allocMaxNum : ℤ} {malloc : AllocFunc}

/-- The regions of both pools come before the two others. -/
theorem emMemmngCreate_obtains
    (called : regions.emMemmngCreate memUnitSize memBlockNum allocMaxNum
      malloc before = some (created, middle)) :
    created.isMalloc = true ∧ created.mpUsed.blockPtr ≠ none ∧
      Obtains before (created.mpUsed.pointers ++
        created.mpFree.pointers ++ [created.minfoPtr, created.memory])
        middle := by
  simp only [emMemmngCreate] at called
  split at called
  · cases called
  · rename_i used mpUsed first isUsed
    split at called
    · cases called
    · rename_i free mpFree second isFree
      split_ifs at called with notLinked
      obtain ⟨rfl, rfl⟩ := Prod.mk.inj (Option.some.inj called)
      obtain rfl : free = 0 := by
        by_contra failed
        exact notLinked (.inl failed)
      have madeFree := MpoolRegions.created_of_accepted isFree
      have positive : ¬ (sizeofMeminfo = 0 ∨ intToUint32 allocMaxNum = 0) := by
        intro zero
        rw [MpoolRegions.emMpoolCreate_zero zero] at isFree
        cases isFree
      have madeUsed := (MpoolRegions.emMpoolCreate_created positive isUsed).2
      have arena : Obtains second _ _ :=
        (Obtains.call malloc (intToSize (sizeofPtr * memBlockNum))).trans
          (Obtains.call malloc
            (intToSize (toInt32 (memUnitSize * memBlockNum))))
      exact ⟨rfl, madeUsed.blockPtr_ne,
        (madeUsed.obtains.trans madeFree.obtains).trans arena⟩

theorem emMemmngDestroy_releases (heap : RegionHeap)
    (isMalloc : created.isMalloc = true) :
    ∃ after, created.emMemmngDestroy heap = some after ∧
      Releases heap [created.memory, created.minfoPtr] after := by
  refine ⟨(heap.free created.memory).free created.minfoPtr, ?_, ?_⟩
  · rw [emMemmngDestroy, if_pos isMalloc]
  · exact (Releases.free created.memory).trans (.free created.minfoPtr)

/-- The pools are lost. -/
theorem not_returned
    (called : regions.emMemmngCreate memUnitSize memBlockNum allocMaxNum
      malloc before = some (created, middle)) :
    ¬ ∃ after, created.emMemmngDestroy middle = some after ∧
      before.GivesBack after := by
  rintro ⟨after, called', back⟩
  obtain ⟨isMalloc, isRegion, obtained⟩ := emMemmngCreate_obtains called
  obtain ⟨freed, destroyed, released⟩ :=
    emMemmngDestroy_releases middle isMalloc
  obtain rfl := Option.some.inj (destroyed.symm.trans called')
  -- The first region of the pool of used records is one that is lost.
  obtain ⟨region, isRegion⟩ := Option.ne_none_iff_exists'.mp isRegion
  simp only [MpoolRegions.pointers, isRegion, List.cons_append] at obtained
  have unnamed := obtained.not_mem_rest
  refine absurd back (obtained.lost released List.mem_cons_self ?_)
  intro member
  apply unnamed
  simp only [List.mem_cons, List.not_mem_nil, or_false] at member
  rcases member with isMemory | isMinfo
  · simp [isMemory]
  · simp [isMinfo]

end MemmngRegions

end EmbeddedMiddle
