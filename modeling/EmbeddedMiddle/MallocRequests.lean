import EmbeddedMiddle.MallocHeap
import EmbeddedMiddle.MallocWellFormed
import Mathlib.Algebra.Order.BigOperators.Group.List

/-!
# Requests of every size

The unit count of a request is an `int`, and the usage counter is raised before
a record is taken.  What follows for runs of requests and releases.
-/

namespace EmbeddedMiddle

open Foundation

namespace EmMemmng

/-- No record that `_em_malloc` looks at is as long as that. -/
def NoFit (mm : EmMemmng) (blength : ℤ) : Prop :=
  ∀ slot, slot < mm.mpFree.numUsed →
    (mm.record (.free
      (mm.mpFree.block (mm.mpFree.blockPtr slot)).dataPtr)).memLength < blength

/-- The record that `em_mpool_alloc_block` takes next for a taken range. -/
def nextRecord (mm : EmMemmng) : MeminfoPtr :=
  .used (mm.mpUsed.block (mm.mpUsed.blockPtr mm.mpUsed.numUsed)).dataPtr

/-- What any sequence of calls keeps: the arena and a pool of `allocMax`
records for the taken ranges. -/
structure Configured (mm : EmMemmng) (unit bnum allocMax : ℕ) : Prop where
  geometry : ∃ memory, mm.Geometry unit bnum memory
  settled : ∃ blockSize rawdata, ∃ set : SparseSet allocMax,
    mm.mpUsed.Settled ⟨allocMax, blockSize, rawdata⟩ set

variable {mm : EmMemmng} {unit bnum allocMax size : ℕ} {blength : ℤ}

/-! ## One request -/

theorem noFit_iff : mm.NoFit blength ↔
    emMallocSearch mm blength mm.mpFree.numUsed = none := by
  constructor
  · intro noFit
    rw [Option.eq_none_iff_forall_ne_some]
    intro address found
    obtain ⟨slot, bound, rfl, fits⟩ := emMallocSearch_some found
    exact absurd (noFit slot bound) (Int.not_lt.mpr fits)
  · intro missing slot bound
    exact emMallocSearch_none missing bound

/-- A field that is not written is kept. -/
theorem assign_field (field : EmMeminfo → ℤ) {target ptr : MeminfoPtr}
    {change : EmMeminfo → EmMeminfo}
    (kept : target = ptr →
      field (change (mm.record ptr)) = field (mm.record ptr)) :
    field ((mm.assign target change).record ptr) =
      field (mm.record ptr) := by
  by_cases same : target = ptr
  · subst same
    rw [assign_record_self, kept rfl]
  · rw [assign_record_of_ne (Ne.symm same)]

/-- Whatever the links say, carving writes the range of the new record: it
begins where the free one did. -/
theorem emMallocCarve_range {new free : ℤ} {after : EmMemmng}
    (carved : emMallocCarve mm (.used new) (.free free) blength = after) :
    (after.record (.used new)).memIndex =
        (mm.record (.free free)).memIndex ∧
      (after.record (.used new)).memLength = blength := by
  have apart : MeminfoPtr.free free ≠ .used new := nofun
  subst carved
  unfold emMallocCarve
  dsimp only
  split_ifs
  · simp only [assign_record_self]
    constructor
    · rw [assign_field EmMeminfo.memIndex (fun _ => rfl), assign_record_self]
    · rw [assign_field EmMeminfo.memLength (fun _ => rfl), assign_record_self]
  · constructor
    · rw [assign_field EmMeminfo.memIndex (fun same => absurd same apart),
        assign_field EmMeminfo.memIndex (fun _ => rfl),
        assign_field EmMeminfo.memIndex (fun _ => rfl), assign_record_self]
    · rw [assign_field EmMeminfo.memLength (fun same => absurd same apart),
        assign_field EmMeminfo.memLength (fun _ => rfl),
        assign_field EmMeminfo.memLength (fun _ => rfl), assign_record_self]

theorem emMallocCarve_mpUsed {new free : MeminfoPtr} :
    (emMallocCarve mm new free blength).mpUsed = mm.mpUsed :=
  @Untouched.carve (fun after => after.mpUsed = mm.mpUsed) _
    ⟨fun _ _ _ same => same, fun _ _ same => same⟩ rfl _ _ _

theorem emMallocCarve_memUsedBsize {new free : MeminfoPtr} :
    (emMallocCarve mm new free blength).memUsedBsize = mm.memUsedBsize :=
  @Untouched.carve (fun after => after.memUsedBsize = mm.memUsedBsize) _
    ⟨fun _ _ _ same => same, fun _ _ same => same⟩ rfl _ _ _

theorem Configured.blength_eq (configured : mm.Configured unit bnum allocMax)
    (positive : 0 < unit) :
    emMallocBlength mm size = toInt32 (unitCount unit size : ℕ) := by
  obtain ⟨memory, geometry⟩ := configured.geometry
  exact geometry.blength_toInt32 positive

theorem Configured.alloc_full (configured : mm.Configured unit bnum allocMax)
    (full : allocMax ≤ mm.mpUsed.numUsed) :
    emMpoolAllocBlockNoWait mm.mpUsed = (none, mm.mpUsed) := by
  obtain ⟨blockSize, rawdata, set, settled⟩ := configured.settled
  rw [settled.numUsed_eq] at full
  rw [emMpoolAllocBlockNoWait,
    settled.allocBlock_full (Nat.le_antisymm set.count_le full)]
  rfl

theorem Configured.alloc_room (configured : mm.Configured unit bnum allocMax)
    (room : mm.mpUsed.numUsed < allocMax) :
    ∃ address mpUsed,
      emMpoolAllocBlockNoWait mm.mpUsed = (some address, mpUsed) ∧
        mm.nextRecord = .used address ∧
        ∃ blockSize rawdata, ∃ set : SparseSet allocMax,
          mpUsed.Settled ⟨allocMax, blockSize, rawdata⟩ set := by
  obtain ⟨blockSize, rawdata, set, settled⟩ := configured.settled
  rw [settled.numUsed_eq] at room
  obtain ⟨mpUsed, taken, kept⟩ := settled.allocBlock_room room
  refine ⟨_, mpUsed, by rw [emMpoolAllocBlockNoWait, taken]; rfl, ?_,
    blockSize, rawdata, _, kept⟩
  rw [nextRecord, settled.numUsed_eq, settled.blockPtr_eq,
    settled.address_eq _ (set.dense_lt _ room)]

/-- The ends of `_em_malloc`, whatever the links say: nothing is changed when
no free record is long enough; the usage counter is raised before the pool of
the taken ranges turns out to be full; the new record gets the count as it is
stored and begins where the free one did. -/
theorem Configured.malloc (configured : mm.Configured unit bnum allocMax)
    (positive : 0 < unit) :
    ((size = 0 ∨ mm.NoFit (toInt32 (unitCount unit size : ℕ))) ∧
        emMalloc mm size = (none, mm)) ∨
      size ≠ 0 ∧ ¬ mm.NoFit (toInt32 (unitCount unit size : ℕ)) ∧
        ((allocMax ≤ mm.mpUsed.numUsed ∧ emMalloc mm size = (none,
            { mm with
              memUsedBsize :=
                mm.memUsedBsize + toInt32 (unitCount unit size : ℕ) })) ∨
          mm.mpUsed.numUsed < allocMax ∧ ∃ addr after free,
            emMalloc mm size = (some addr, after) ∧
            emMallocSearch mm (toInt32 (unitCount unit size : ℕ))
              mm.mpFree.numUsed = some free ∧
            addr = mm.memory + unit * (mm.record (.free free)).memIndex ∧
            (after.record mm.nextRecord).memLength =
              toInt32 (unitCount unit size : ℕ) ∧
            after.memUsedBsize =
              mm.memUsedBsize + toInt32 (unitCount unit size : ℕ) ∧
            after.Configured unit bnum allocMax) := by
  rw [emMalloc, emMallocUnlocked, configured.blength_eq positive]
  by_cases empty : size = 0
  · exact .inl ⟨.inl empty, by rw [if_pos empty.le]⟩
  rw [if_neg (by omega)]
  dsimp only
  cases search : emMallocSearch mm (toInt32 (unitCount unit size : ℕ))
      mm.mpFree.numUsed with
  | none => exact .inl ⟨.inr (noFit_iff.mpr search), rfl⟩
  | some free =>
      have found : ¬ mm.NoFit (toInt32 (unitCount unit size : ℕ)) := by
        rw [noFit_iff, search]
        exact Option.some_ne_none free
      refine .inr ⟨empty, found, ?_⟩
      rcases Nat.lt_or_ge mm.mpUsed.numUsed allocMax with room | full
      · obtain ⟨new, mpUsed, taken, isNext, kept⟩ := configured.alloc_room room
        obtain ⟨memory, geometry⟩ := configured.geometry
        dsimp only
        rw [taken]
        have carved := (geometry.of_mpUsed mpUsed
          (mm.memUsedBsize + toInt32 (unitCount unit size : ℕ))).of_carve
            (.used new) (.free free) (toInt32 (unitCount unit size : ℕ))
        obtain ⟨isIndex, isLength⟩ := @emMallocCarve_range
          { mm with
            memUsedBsize :=
              mm.memUsedBsize + toInt32 (unitCount unit size : ℕ)
            mpUsed } (toInt32 (unitCount unit size : ℕ)) new free _ rfl
        refine .inr ⟨room, _, _, free, rfl, rfl,
          (carved.unitAddress_eq _).trans ?_, ?_, ?_, ?_, ?_⟩
        · exact congrArg₂ (fun base index : ℤ => base + unit * index)
            geometry.memory_eq.symm isIndex
        · rw [isNext]
          exact isLength
        · exact emMallocCarve_memUsedBsize
        · exact ⟨memory, carved.unit_eq, carved.bnum_eq, carved.memory_eq,
            carved.shift⟩
        · simpa only [emMallocCarve_mpUsed] using kept
      · dsimp only
        rw [configured.alloc_full full]
        exact .inl ⟨full, rfl⟩

theorem Configured.malloc_kept (configured : mm.Configured unit bnum allocMax)
    (positive : 0 < unit) :
    (emMalloc mm size).2.Configured unit bnum allocMax := by
  obtain ⟨memory, geometry⟩ := configured.geometry
  obtain ⟨-, same⟩ | ⟨-, -, ⟨-, same⟩ | ⟨-, addr, after, free, same, -, -,
      -, -, kept⟩⟩ := configured.malloc positive
  · rw [same]
    exact configured
  · rw [same]
    exact ⟨⟨memory, geometry.of_mpUsed _ _⟩, configured.settled⟩
  · rw [same]
    exact kept

/-! ## One release -/

/-- A pool stays what it is, whatever is given back to it. -/
theorem freeRecord_settled {params : PoolParams} {mp : EmMpool}
    {set : SparseSet params.capacity} (settled : mp.Settled params set)
    (ptr : MeminfoPtr) :
    ∃ after : SparseSet params.capacity,
      (emMpoolFreeRecord mp ptr).Settled params after := by
  have byAddress : ∀ address, ∃ after : SparseSet params.capacity,
      (emMpoolFreeBlock mp address).2.Settled params after := by
    intro address
    rw [emMpoolFreeBlock]
    generalize intToUint32 _ = dataIdx
    by_cases live : dataIdx ∈ set.members
    · obtain ⟨after, freed, kept⟩ := settled.freeBlock_live live
      rw [freed]
      exact ⟨_, kept⟩
    · rw [settled.freeBlock_dead live]
      exact ⟨set, settled⟩
  cases ptr with
  | used address => exact byAddress address
  | free address => exact byAddress address
  | _ => exact ⟨set, settled⟩

theorem Configured.free (configured : mm.Configured unit bnum allocMax)
    (addr : ℤ) : (emFree mm addr).Configured unit bnum allocMax := by
  obtain ⟨memory, geometry⟩ := configured.geometry
  obtain ⟨blockSize, rawdata, set, settled⟩ := configured.settled
  have merged := geometry.of_merge (mm.minfoPtr (mm.unitIndex addr))
  refine ⟨⟨memory, merged.unit_eq, merged.bnum_eq, merged.memory_eq,
    merged.shift⟩, blockSize, rawdata, ?_⟩
  have same : (emFree mm addr).mpUsed =
      emMpoolFreeRecord mm.mpUsed (mm.minfoPtr (mm.unitIndex addr)) := by
    rw [← @emFreeMerge_mpUsed mm (mm.minfoPtr (mm.unitIndex addr))]
    rfl
  rw [same]
  exact freeRecord_settled settled _

/-! ## Creation -/

theorem emMemmngPools_settled (mm : EmMemmng) {memory : Option ℤ}
    (nonempty : 1 ≤ allocMax) (representable : allocMax ≤ intMax)
    (regions : EmMemmngRegions) :
    ∃ rawdata, ∃ set : SparseSet allocMax,
      (emMemmngPools mm allocMax memory regions).mpUsed.Settled
        ⟨allocMax, sizeofMeminfo, rawdata⟩ set := by
  have accepts : ¬ (sizeofMeminfo = 0 ∨ allocMax = 0) :=
    not_or.mpr ⟨by decide, by omega⟩
  cases memory with
  | none =>
      obtain ⟨set, -, settled⟩ := emMpoolCreateWithMem_settled mm.mpUsed
        sizeofMeminfo allocMax mm.mpUsed.blockPtr mm.mpUsed.block
        mm.mpUsed.dataPtr regions.rawUsed representable
      refine ⟨regions.rawUsed, set, ?_⟩
      simp only [emMemmngPools, emMpoolCreate, if_neg accepts]
      exact settled
  | some memory =>
      simp only [emMemmngPools, emMpoolCreateWithMem2, if_neg accepts]
      obtain ⟨set, -, settled⟩ := emMpoolCreateWithMem_settled mm.mpUsed
        sizeofMeminfo allocMax mm.mpUsed.blockPtr mm.mpUsed.block
        mm.mpUsed.dataPtr _ representable
      exact ⟨_, set, settled⟩

theorem emMemmngCreate_configured (mm : EmMemmng) {memory : Option ℤ}
    (nonempty : 1 ≤ allocMax) (representable : allocMax ≤ intMax)
    (regions : EmMemmngRegions) :
    (emMemmngCreate mm unit bnum allocMax memory regions).Configured unit bnum
        allocMax ∧
      (emMemmngCreate mm unit bnum allocMax memory regions).memUsedBsize =
        0 := by
  obtain ⟨rawdata, set, settled⟩ := @emMemmngPools_settled allocMax
    (mm.opened unit bnum) memory nonempty representable regions
  have unused : (emMemmngPools (mm.opened unit bnum) allocMax memory
      regions).memUsedBsize = 0 := by
    cases memory with
    | none => rfl
    | some memory => rfl
  constructor
  · refine ⟨⟨_, Geometry.of_create⟩, sizeofMeminfo, rawdata, set, ?_⟩
    rw [emMemmngCreate_mpUsed]
    exact settled
  · exact @Untouched.create _ _ (fun after => after.memUsedBsize = 0)
      ⟨fun _ _ _ same => same, fun _ _ same => same⟩ _ _ _ _ unused

end EmMemmng

/-! ## Every run -/

namespace Heap

open EmMemmng

/-- Calls with any `size_t`, and releases of pointers that were returned and
not freed since. -/
inductive Call : Heap → HeapEvent → Heap → Prop where
  | malloc {heap : Heap} {size : ℕ} :
      size < 18446744073709551616 →
      Call heap (.malloc size (emMalloc heap.manager size).1)
        (heap.malloc size)
  | free {heap : Heap} {addr : ℤ} :
      addr ∈ heap.live.map Prod.fst →
      Call heap (.free addr) (heap.free addr)

/-- The unit count of a request is an `int`. -/
def Countable (unit : ℕ) : HeapEvent → Prop
  | .malloc size _ => unitCount unit size ≤ intMax
  | .free _ => True

/-- Requests that can be counted, and releases that read a right back link. -/
def Orderly (unit : ℕ) (heap : Heap) (event : HeapEvent) : Prop :=
  Countable unit event ∧ heap.Linked event

/-- A pointer comes with a record that has units, enough of them, and no more
than the arena is asked for. -/
def Covers (unit bnum : ℕ) (before : Heap) (event : HeapEvent)
    (after : Heap) : Prop :=
  match event with
  | .malloc size (some _) =>
      let length := (after.manager.record before.manager.nextRecord).memLength
      0 < length ∧ size ≤ length * unit ∧ size ≤ unit * bnum
  | _ => True

/-- A call that returns NULL leaves every field of the manager as it was. -/
def Unspoilt (before : Heap) (event : HeapEvent) (after : Heap) : Prop :=
  match event with
  | .malloc _ result => result.getD 0 = 0 → after.manager = before.manager
  | .free _ => True

/-- A request that finds a free record finds one for the taken range as well,
or its stored unit count is 0. -/
def FailsEarly (unit allocMax : ℕ) (before : Heap) : HeapEvent → Prop
  | .malloc size _ =>
      size = 0 ∨ before.manager.NoFit (toInt32 (unitCount unit size : ℕ)) ∨
        before.manager.mpUsed.numUsed < allocMax ∨
        toInt32 (unitCount unit size : ℕ) = 0
  | .free _ => True

variable {heap after : Heap} {unit bnum allocMax size : ℕ}
  {event : HeapEvent}

theorem Call.malloc_of_eq {result : Option ℤ}
    (bound : size < 18446744073709551616)
    (returned : (emMalloc heap.manager size).1 = result) :
    Call heap (.malloc size result) (heap.malloc size) :=
  returned ▸ .malloc bound

theorem Call.configured (taken : Call heap event after) (positive : 0 < unit)
    (configured : heap.manager.Configured unit bnum allocMax) :
    after.manager.Configured unit bnum allocMax := by
  cases taken with
  | malloc => exact configured.malloc_kept positive
  | free => exact configured.free _

theorem Call.step (taken : Call heap event after)
    (countable : Countable unit event) : Step unit heap event after := by
  cases taken with
  | malloc => exact .malloc countable
  | free isLive => exact .free isLive

/-- A request that gets its units fits the arena. -/
theorem Shows.size_le_arena {memory : ℤ} {regions : EmMemmngRegions}
    {cells : List Cell} {used free : Finset ℤ}
    (shows : heap.Shows unit bnum allocMax memory regions cells used free)
    (positive : 0 < unit) (nonempty : 0 < size)
    (fits : unitCount unit size ≤ intMax)
    (granted : (emMalloc heap.manager size).1 ≠ none) :
    size ≤ unit * bnum := by
  obtain ⟨-, start, lower, upper, -⟩ :=
    (shows.malloc_iff positive nonempty fits).mp granted
  have whole : unitCount unit size ≤ bnum := by omega
  exact (size_le_units positive).trans (Nat.mul_le_mul_left unit whole)

theorem Call.covers {memory : ℤ} (taken : Call heap event after)
    (countable : Countable unit event) (positive : 0 < unit)
    (configured : heap.manager.Configured unit bnum allocMax)
    (sound : heap.Sound unit bnum allocMax memory) :
    Covers unit bnum heap event after := by
  cases taken with
  | free => trivial
  | @malloc size bound =>
      obtain ⟨regions, cells, used, free, shows⟩ := sound
      have inArena := @Shows.size_le_arena _ _ _ _ size _ _ _ _ _ shows positive
      simp only [Heap.malloc]
      obtain ⟨-, same⟩ | ⟨nonempty, -, ⟨-, same⟩ |
          ⟨-, addr, manager, free, same, -, -, length, -, -⟩⟩ :=
        @Configured.malloc _ _ _ _ size configured positive
      · rw [same]
        trivial
      · rw [same]
        trivial
      · rw [same] at inArena ⊢
        have some := unitCount_pos positive (Nat.pos_of_ne_zero nonempty)
        simp only [Covers, length, toInt32_natCast countable]
        refine ⟨by exact_mod_cast some, ?_, inArena
          (Nat.pos_of_ne_zero nonempty) countable (Option.some_ne_none _)⟩
        rw [mul_comm]
        exact_mod_cast size_le_units positive

theorem raised_eq_iff {mm : EmMemmng} {count : ℤ} :
    { mm with memUsedBsize := mm.memUsedBsize + count } = mm ↔
      count = 0 := by
  constructor
  · intro same
    have counter : mm.memUsedBsize + count = mm.memUsedBsize :=
      congrArg EmMemmng.memUsedBsize same
    omega
  · rintro rfl
    rw [Int.add_zero]

/-- No request, whatever its count is stored as, is given the address NULL. -/
theorem Shows.not_null {memory : ℤ} {regions : EmMemmngRegions}
    {cells : List Cell} {used free : Finset ℤ}
    (shows : heap.Shows unit bnum allocMax memory regions cells used free)
    (obtained : 0 < memory) {blength address : ℤ}
    (found : emMallocSearch heap.manager blength
      heap.manager.mpFree.numUsed = some address) :
    0 < heap.manager.memory +
      unit * (heap.manager.record (.free address)).memIndex := by
  obtain ⟨cell, member, isFree, -⟩ := shows.chain.search_some found
  have isBlock := isBlock_of_free isFree
  obtain ⟨nonneg, -⟩ := shows.chain.within member isBlock
  rw [shows.geometry.memory_eq, ← isFree,
    (shows.chain.described cell member).index_eq isBlock]
  have inside := mul_nonneg (Int.natCast_nonneg unit) nonneg
  omega

theorem Call.unspoilt_iff {memory : ℤ} (taken : Call heap event after)
    (positive : 0 < unit) (obtained : 0 < memory)
    (configured : heap.manager.Configured unit bnum allocMax)
    (sound : heap.Sound unit bnum allocMax memory) :
    Unspoilt heap event after ↔ FailsEarly unit allocMax heap event := by
  cases taken with
  | free => exact Iff.rfl
  | @malloc size bound =>
      simp only [FailsEarly, Heap.malloc]
      obtain ⟨empty | noFit, same⟩ | ⟨nonempty, found, ⟨full, same⟩ |
          ⟨room, addr, manager, free, same, search, isAddr, -, -, -⟩⟩ :=
        @Configured.malloc _ _ _ _ size configured positive
      · rw [same]
        simp [Unspoilt, empty]
      · rw [same]
        simp [Unspoilt, noFit]
      · rw [same]
        simpa [Unspoilt, nonempty, found, Nat.not_lt.mpr full] using
          raised_eq_iff
      · obtain ⟨regions, cells, used, frees, shows⟩ := sound
        have notNull : addr ≠ 0 :=
          isAddr ▸ (shows.not_null obtained search).ne'
        rw [same]
        simp [Unspoilt, room, notNull]

/-! ## The usage counter -/

/-- The units of the live allocations. -/
def unitsLive (heap : Heap) (unit : ℕ) : ℤ :=
  (heap.live.map fun block => (unitCount unit block.2 : ℤ)).sum

/-- Only records of free ranges grow in a release. -/
theorem emFreeMerge_memLength {mm : EmMemmng} {del : MeminfoPtr}
    (isUsed : (mm.record del).isUsed = true) :
    ((emFreeMerge mm del).record del).memLength =
      (mm.record del).memLength := by
  unfold emFreeMerge
  dsimp only
  split
  · split
    · split
      · rfl
      · rw [assign_field EmMeminfo.memLength (fun _ => rfl),
          assign_field EmMeminfo.memLength (fun _ => rfl),
          assign_field EmMeminfo.memLength (fun _ => rfl)]
        exact assign_field EmMeminfo.memLength (fun _ => rfl)
    · next nextFree =>
        have apart : (mm.record del).nextMeminfo ≠ del :=
          fun same => nextFree (same.symm ▸ isUsed)
        rw [assign_field EmMeminfo.memLength (fun _ => rfl),
          assign_field EmMeminfo.memLength (fun _ => rfl)]
        exact assign_field EmMeminfo.memLength (fun same => absurd same apart)
  · next backFree =>
      have apart : (mm.record del).backMeminfo ≠ del :=
        fun same => backFree (same.symm ▸ isUsed)
      split
      · rw [assign_field EmMeminfo.memLength (fun _ => rfl)]
        exact assign_field EmMeminfo.memLength (fun same => absurd same apart)
      · rw [assign_field EmMeminfo.memLength (fun _ => rfl),
          assign_field EmMeminfo.memLength (fun _ => rfl),
          assign_field EmMeminfo.memLength (fun same => absurd same apart)]
        exact assign_field EmMeminfo.memLength (fun same => absurd same apart)

theorem unitsLive_free {addr : ℤ} {block : ℤ × ℕ}
    (found : heap.live.find? (fun block => block.1 = addr) = some block) :
    (heap.free addr).unitsLive unit =
      heap.unitsLive unit - unitCount unit block.2 := by
  obtain ⟨isAddr, before, beyond, split, earlier⟩ :=
    List.find?_eq_some_iff_append.mp found
  have erased : heap.live.eraseP (fun block => block.1 = addr) =
      before ++ beyond := by
    rw [split, List.eraseP_append_right _ (by simpa using earlier)]
    exact congrArg (before ++ ·) (List.eraseP_cons_of_pos isAddr)
  rw [unitsLive, Heap.free, erased, unitsLive, split]
  simp only [List.map_append, List.map_cons, List.sum_append, List.sum_cons]
  omega

/-- A release finds the record of a taken range as long as the allocation. -/
theorem Sound.recorded {memory addr : ℤ} {block : ℤ × ℕ}
    (sound : heap.Sound unit bnum allocMax memory) (positive : 0 < unit)
    (blocks : bnum ≤ intMax)
    (found : heap.live.find? (fun block => block.1 = addr) = some block) :
    let del := heap.manager.record
      (heap.manager.minfoPtr (heap.manager.unitIndex addr))
    del.isUsed = true ∧ del.memLength = unitCount unit block.2 := by
  obtain ⟨regions, cells, used, free, shows⟩ := sound
  have isAddr : block.1 = addr := by simpa using List.find?_some found
  obtain ⟨cell, address, member, isUsed, place_eq, length_eq⟩ :=
    shows.exists_cell (List.mem_of_find?_eq_some found)
  have taken : cell.ptr.isTaken = true := by
    rw [isUsed]
    rfl
  have describes := shows.chain.described cell member
  rw [← isAddr, place_eq,
    shows.chain.entry shows.geometry positive blocks member taken]
  dsimp only
  rw [describes.flag, describes.length_eq (isBlock_of_used isUsed),
    length_eq, isUsed]
  exact ⟨rfl, rfl⟩

/-- Live allocations have no more units than the arena. -/
theorem Sound.unitsLive_le {memory : ℤ}
    (sound : heap.Sound unit bnum allocMax memory) :
    heap.unitsLive unit ≤ bnum := by
  obtain ⟨regions, cells, used, free, shows⟩ := sound
  have lengths : (heap.live.map fun block => (unitCount unit block.2 : ℤ)) =
      (heap.live.map (extent unit)).map Prod.snd := by
    rw [List.map_map]
    rfl
  have taken : (takenPlaces unit memory cells).map Prod.snd =
      (cells.filter (fun cell => cell.ptr.isTaken)).map Cell.length := by
    rw [takenPlaces, List.map_map]
    rfl
  have total := sum_of_touches
    (shows.chain.linked.imp fun _ _ follows => follows.touch)
    shows.chain.starts shows.chain.ends
  rw [unitsLive, lengths, (shows.listed.map Prod.snd).sum_eq, taken]
  calc ((cells.filter (fun cell => cell.ptr.isTaken)).map Cell.length).sum
      ≤ (cells.map Cell.length).sum := by
        apply (List.filter_sublist.map Cell.length).sum_le_sum
        intro length member
        obtain ⟨cell, inCells, rfl⟩ := List.mem_map.mp member
        exact (shows.chain.described cell inCells).nonneg
    _ = bnum := by
        simp only [firstCell, lastCell, shows.geometry.bnum_eq] at total
        omega

theorem Call.counted {memory : ℤ} (taken : Call heap event after)
    (countable : Countable unit event) (positive : 0 < unit)
    (blocks : bnum ≤ intMax)
    (failsEarly : FailsEarly unit allocMax heap event)
    (configured : heap.manager.Configured unit bnum allocMax)
    (sound : heap.Sound unit bnum allocMax memory)
    (counted : heap.manager.memUsedBsize = heap.unitsLive unit) :
    after.manager.memUsedBsize = after.unitsLive unit := by
  cases taken with
  | @malloc size bound =>
      have stored := toInt32_natCast countable
      simp only [FailsEarly, stored] at failsEarly
      rw [unitsLive, Heap.malloc]
      obtain ⟨-, same⟩ | ⟨nonempty, found, ⟨full, same⟩ |
          ⟨-, addr, manager, free, same, -, -, -, raised, -⟩⟩ :=
        @Configured.malloc _ _ _ _ size configured positive
      · rw [same]
        exact counted
      · have some := unitCount_pos positive (Nat.pos_of_ne_zero nonempty)
        rw [stored] at found
        rcases failsEarly with empty | noFit | room | zero
        · exact absurd empty nonempty
        · exact absurd noFit found
        · omega
        · omega
      · rw [same]
        dsimp only
        rw [raised, stored, counted, unitsLive, List.map_cons, List.sum_cons]
        exact Int.add_comm ..
  | @free addr isLive =>
      obtain ⟨block, found⟩ : ∃ block,
          heap.live.find? (fun block => block.1 = addr) = some block := by
        rw [← Option.isSome_iff_exists, List.find?_isSome]
        obtain ⟨block, member, isAddr⟩ := List.mem_map.mp isLive
        exact ⟨block, member, decide_eq_true isAddr⟩
      obtain ⟨isUsed, length⟩ := sound.recorded positive blocks found
      have freed : (heap.free addr).manager.memUsedBsize =
          (emFreeMerge heap.manager _).memUsedBsize -
            ((emFreeMerge heap.manager _).record _).memLength := rfl
      rw [freed, unitsLive_free found, emFreeMerge_memUsedBsize,
        emFreeMerge_memLength isUsed, length, counted]

/-- What orderly calls keep. -/
theorem Call.kept {memory : ℤ} (taken : Call heap event after)
    (orderly : heap.Orderly unit event) (positive : 0 < unit)
    (blocks : bnum ≤ intMax)
    (configured : heap.manager.Configured unit bnum allocMax)
    (sound : heap.Sound unit bnum allocMax memory) :
    after.manager.Configured unit bnum allocMax ∧
      after.Sound unit bnum allocMax memory :=
  ⟨taken.configured positive configured,
    sound.step positive blocks ⟨orderly.2, taken.step orderly.1⟩⟩

end Heap

/-! ## The two results -/

section Runs

open EmMemmng

variable {unit bnum allocMax : ℕ} {heap : Heap} {events : List HeapEvent}

/-- In a run of orderly calls a pointer comes with enough units, and a request
for more than the arena is refused. -/
theorem malloc_covers (mm : EmMemmng) (origin : Option ℤ)
    (regions : EmMemmngRegions) (positive : 1 ≤ unit) (blocks : 1 ≤ bnum)
    (nonempty : 1 ≤ allocMax) (arena : unit * bnum ≤ intMax)
    (representable : allocMax ≤ intMax) (fit : PoolsFit origin allocMax)
    (run : Run (Guarded (Heap.Orderly unit) Heap.Call)
      (Heap.created mm unit bnum allocMax origin regions) events heap) :
    Run (Upholding (Heap.Covers unit bnum) Heap.Call)
      (Heap.created mm unit bnum allocMax origin regions) events heap := by
  have indices : bnum ≤ intMax :=
    (Nat.le_mul_of_pos_left bnum positive).trans arena
  apply run.upholding (fun heap =>
    heap.manager.Configured unit bnum allocMax ∧
      heap.Sound unit bnum allocMax
        (Heap.created mm unit bnum allocMax origin regions).manager.memory)
  · exact ⟨(emMemmngCreate_configured mm nonempty representable regions).1,
      Heap.created_sound mm blocks nonempty representable fit regions⟩
  · rintro before event after ⟨configured, sound⟩ ⟨orderly, taken⟩
    exact ⟨taken.covers orderly.1 positive configured sound,
      taken.kept orderly positive indices configured sound⟩

/-- The first unit is taken, and a request for more than the arena refused. -/
theorem malloc_covers_two_calls :
    ∃ heap, Run (Upholding (Heap.Covers 16 3) Heap.Call)
      (Heap.created default 16 3 4 none ⟨1000, 2000, 5000⟩)
      [.malloc 16 (some 5000), .malloc 4096 none] heap := by
  let start := Heap.created default 16 3 4 none ⟨1000, 2000, 5000⟩
  have first : (emMalloc start.manager 16).1 = some 5000 := by decide +kernel
  have second : (emMalloc (start.malloc 16).manager 4096).1 = none := by
    decide +kernel
  have countable : unitCount 16 16 ≤ intMax ∧ unitCount 16 4096 ≤ intMax := by
    decide
  have run : Run (Guarded (Heap.Orderly 16) Heap.Call) start
      [.malloc 16 (some 5000), .malloc 4096 none]
      ((start.malloc 16).malloc 4096) :=
    .cons ⟨⟨countable.1, trivial⟩, .malloc_of_eq (by decide) first⟩
      (.cons ⟨⟨countable.2, trivial⟩, .malloc_of_eq (by decide) second⟩ .nil)
  exact ⟨_, malloc_covers default none ⟨1000, 2000, 5000⟩ (by decide)
    (by decide) (by decide) (by decide) (by decide) (by decide) run⟩

/-- 2^36 + 16 bytes are 2^32 + 1 units, which are stored as one. -/
theorem malloc_covers_one_unit :
    let before := Heap.created default 16 3 4 none ⟨1000, 2000, 5000⟩
    let size := 68719476752
    Heap.Call before (.malloc size (some 5000)) (before.malloc size) ∧
      ((before.malloc size).manager.record
        before.manager.nextRecord).memLength = 1 ∧
      ¬ Heap.Covers 16 3 before (.malloc size (some 5000))
        (before.malloc size) := by
  intro before size
  have returned : (emMalloc before.manager size).1 = some 5000 := by
    decide +kernel
  refine ⟨returned ▸ .malloc (by decide), by decide +kernel, ?_⟩
  rintro ⟨-, -, inside⟩
  exact absurd inside (by decide)

/-- In a run of orderly calls that fail early if at all, the usage counter is
the sum of the live allocations, and the next call, whatever its size, changes
nothing when it fails exactly when it fails early. -/
theorem failing_malloc_unspoilt_iff (mm : EmMemmng) (origin : Option ℤ)
    (regions : EmMemmngRegions) (positive : 1 ≤ unit) (blocks : 1 ≤ bnum)
    (nonempty : 1 ≤ allocMax) (arena : unit * bnum ≤ intMax)
    (representable : allocMax ≤ intMax) (fit : PoolsFit origin allocMax)
    (obtained :
      0 < (emMemmngCreate mm unit bnum allocMax origin regions).memory)
    (run : Run (Guarded (fun heap event =>
        heap.Orderly unit event ∧ heap.FailsEarly unit allocMax event)
        Heap.Call)
      (Heap.created mm unit bnum allocMax origin regions) events heap) :
    (∀ event after, Heap.Call heap event after →
      (heap.Unspoilt event after ↔ heap.FailsEarly unit allocMax event)) ∧
      heap.manager.memUsedBsize = heap.unitsLive unit ∧
      heap.unitsLive unit ≤ bnum := by
  have indices : bnum ≤ intMax :=
    (Nat.le_mul_of_pos_left bnum positive).trans arena
  obtain ⟨created, unused⟩ := @emMemmngCreate_configured unit bnum allocMax mm
    origin nonempty representable regions
  obtain ⟨configured, sound, counted⟩ := run.invariant (fun heap =>
    heap.manager.Configured unit bnum allocMax ∧
      heap.Sound unit bnum allocMax
        (Heap.created mm unit bnum allocMax origin regions).manager.memory ∧
      heap.manager.memUsedBsize = heap.unitsLive unit)
    ⟨created, Heap.created_sound mm blocks nonempty representable fit regions,
      unused⟩ (by
    rintro before event after ⟨configured, sound, counted⟩
      ⟨⟨orderly, failsEarly⟩, taken⟩
    obtain ⟨configuredAfter, soundAfter⟩ :=
      taken.kept orderly positive indices configured sound
    exact ⟨configuredAfter, soundAfter, taken.counted orderly.1 positive
      indices failsEarly configured sound counted⟩)
  refine ⟨?_, counted, sound.unitsLive_le⟩
  intro event after taken
  exact taken.unspoilt_iff positive obtained configured sound

/-- One of two requests is refused; the counter is that of the other, and a
third request that fails would change nothing. -/
theorem failing_malloc_unspoilt_two_calls :
    ∃ heap, Run Heap.Call
        (Heap.created default 16 3 4 none ⟨1000, 2000, 5000⟩)
        [.malloc 16 (some 5000), .malloc 4096 none] heap ∧
      heap.manager.memUsedBsize = heap.unitsLive 16 ∧
      heap.Unspoilt (.malloc 64 none) (heap.malloc 64) := by
  let start := Heap.created default 16 3 4 none ⟨1000, 2000, 5000⟩
  have refused : (start.malloc 16).manager.NoFit
      (toInt32 (unitCount 16 4096 : ℕ)) :=
    noFit_iff.mpr (by decide +kernel)
  have refusedAgain : ((start.malloc 16).malloc 4096).manager.NoFit
      (toInt32 (unitCount 16 64 : ℕ)) :=
    noFit_iff.mpr (by decide +kernel)
  have room : start.manager.mpUsed.numUsed < 4 := by decide +kernel
  have first : Heap.Call start (.malloc 16 (some 5000)) (start.malloc 16) :=
    .malloc_of_eq (by decide) (by decide +kernel)
  have second : Heap.Call (start.malloc 16) (.malloc 4096 none)
      ((start.malloc 16).malloc 4096) :=
    .malloc_of_eq (by decide) (by decide +kernel)
  have third : Heap.Call ((start.malloc 16).malloc 4096) (.malloc 64 none)
      (((start.malloc 16).malloc 4096).malloc 64) :=
    .malloc_of_eq (by decide) (by decide +kernel)
  have countable : unitCount 16 16 ≤ intMax ∧ unitCount 16 4096 ≤ intMax := by
    decide
  have run : Run (Guarded (fun heap event =>
        heap.Orderly 16 event ∧ heap.FailsEarly 16 4 event) Heap.Call) start
      [.malloc 16 (some 5000), .malloc 4096 none]
      ((start.malloc 16).malloc 4096) :=
    .cons ⟨⟨⟨countable.1, trivial⟩, .inr (.inr (.inl room))⟩, first⟩
      (.cons ⟨⟨⟨countable.2, trivial⟩, .inr (.inl refused)⟩, second⟩ .nil)
  have holds := failing_malloc_unspoilt_iff default none ⟨1000, 2000, 5000⟩
    (by decide) (by decide) (by decide) (by decide) (by decide) (by decide)
    (by decide +kernel) run
  exact ⟨_, .cons first (.cons second .nil), holds.2.1,
    (holds.1 _ _ third).mpr (.inr (.inl refusedAgain))⟩

/-- With one record for taken ranges the second request finds a free record
and fails; the counter is raised all the same. -/
theorem failing_malloc_raises_counter :
    let before := (Heap.created default 16 3 1 none
      ⟨1000, 2000, 5000⟩).malloc 16
    Run Heap.Call (Heap.created default 16 3 1 none ⟨1000, 2000, 5000⟩)
        [.malloc 16 (some 5000)] before ∧
      Heap.Call before (.malloc 16 none) (before.malloc 16) ∧
      ¬ Heap.Unspoilt before (.malloc 16 none) (before.malloc 16) ∧
      (before.malloc 16).unitsLive 16 = 1 ∧
      (before.malloc 16).manager.memUsedBsize = 2 := by
  intro before
  have first : (emMalloc (Heap.created default 16 3 1 none
      ⟨1000, 2000, 5000⟩).manager 16).1 = some 5000 := by decide +kernel
  have second : (emMalloc before.manager 16).1 = none := by decide +kernel
  refine ⟨.cons (first ▸ .malloc (by decide)) .nil,
    second ▸ .malloc (by decide), ?_, by decide +kernel, by decide +kernel⟩
  intro unspoilt
  have counter : (before.malloc 16).manager.memUsedBsize =
      before.manager.memUsedBsize := congrArg EmMemmng.memUsedBsize
        (unspoilt rfl)
  exact absurd counter (by decide +kernel)

end Runs

end EmbeddedMiddle
