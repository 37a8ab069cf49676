import EmbeddedMiddle.MallocHeap

/-!
# Shifts and divisions

A manager whose unit is a power of two converts between bytes and units by
shifts, every other one by divisions.  Both run in lockstep, with their arenas
at any two places.
-/

namespace EmbeddedMiddle

open Foundation

namespace EmMemmng

/-- The manager that divides, with its arena `offset` bytes away. -/
def dividing (mm : EmMemmng) (offset : ℤ) : EmMemmng :=
  { mm with isBshiftable := false, memory := mm.memory + offset }

variable {mm : EmMemmng} {unit bnum : ℕ} {memory offset : ℤ}

@[simp] theorem dividing_record :
    (mm.dividing offset).record = mm.record := rfl

@[simp] theorem dividing_minfoPtr :
    (mm.dividing offset).minfoPtr = mm.minfoPtr := rfl

@[simp] theorem dividing_mpFree :
    (mm.dividing offset).mpFree = mm.mpFree := rfl

theorem Geometry.dividing (geometry : mm.Geometry unit bnum memory) :
    (mm.dividing offset).Geometry unit bnum (memory + offset) := by
  refine ⟨geometry.unit_eq, geometry.bnum_eq, ?_, ?_⟩
  · rw [← geometry.memory_eq]
    rfl
  · intro shiftable
    exact absurd shiftable Bool.false_ne_true

/-! ## The three conversions -/

theorem dividing_blength (geometry : mm.Geometry unit bnum memory)
    (positive : 0 < unit) (size : ℕ) :
    emMallocBlength (mm.dividing offset) size = emMallocBlength mm size := by
  rw [geometry.dividing.blength_toInt32 positive,
    geometry.blength_toInt32 positive]

theorem dividing_unitAddress (geometry : mm.Geometry unit bnum memory)
    (index : ℤ) :
    (mm.dividing offset).unitAddress index =
      mm.unitAddress index + offset := by
  rw [geometry.dividing.unitAddress_eq, geometry.unitAddress_eq]
  omega

theorem dividing_unitIndex (geometry : mm.Geometry unit bnum memory)
    (positive : 0 < unit) (index : ℤ) :
    (mm.dividing offset).unitIndex (memory + unit * index + offset) =
      mm.unitIndex (memory + unit * index) := by
  have moved : memory + unit * index + offset =
      memory + offset + unit * index := by omega
  rw [moved, geometry.dividing.unitIndex_multiple positive,
    geometry.unitIndex_multiple positive]

/-! ## The calls -/

theorem dividing_search (blength : ℤ) (count : ℕ) :
    emMallocSearch (mm.dividing offset) blength count =
      emMallocSearch mm blength count := by
  induction count with
  | zero => rfl
  | succ count induction =>
      simp only [emMallocSearch, dividing_mpFree, dividing_record, induction]

theorem dividing_ite {condition : Prop} [Decidable condition]
    {left right : EmMemmng} :
    (if condition then left else right).dividing offset =
      if condition then left.dividing offset else right.dividing offset :=
  apply_ite (fun mm : EmMemmng => mm.dividing offset) ..

theorem dividing_carve (new free : MeminfoPtr) (blength : ℤ) :
    emMallocCarve (mm.dividing offset) new free blength =
      (emMallocCarve mm new free blength).dividing offset := by
  unfold emMallocCarve
  dsimp only
  rw [dividing_ite]
  exact ite_congr rfl (fun _ => rfl) (fun _ => rfl)

theorem dividing_merge (del : MeminfoPtr) :
    emFreeMerge (mm.dividing offset) del =
      (emFreeMerge mm del).dividing offset := by
  unfold emFreeMerge
  dsimp only
  rw [dividing_ite, dividing_ite, dividing_ite]
  apply ite_congr rfl
  · intro _
    apply ite_congr rfl
    · intro _
      rw [dividing_mpFree]
      cases emMpoolAllocBlockNoWait mm.mpFree with
      | mk address mpFree =>
          cases address with
          | none => rfl
          | some address => rfl
    · intro _
      rfl
  · intro _
    exact ite_congr rfl (fun _ => rfl) (fun _ => rfl)

theorem emMallocCarve_isBshiftable {new free : MeminfoPtr} {blength : ℤ} :
    (emMallocCarve mm new free blength).isBshiftable = mm.isBshiftable :=
  @Untouched.carve (fun after => after.isBshiftable = mm.isBshiftable) _
    ⟨fun _ _ _ same => same, fun _ _ same => same⟩ rfl _ _ _

theorem emFreeMerge_isBshiftable {del : MeminfoPtr} :
    (emFreeMerge mm del).isBshiftable = mm.isBshiftable :=
  @Untouched.merge (fun after => after.isBshiftable = mm.isBshiftable) _
    ⟨fun _ _ _ same => same, fun _ _ same => same⟩ rfl _

/-- What `em_malloc` leaves of the configuration, and where the memory that
it gives lies. -/
theorem Geometry.malloc (geometry : mm.Geometry unit bnum memory)
    (size : ℕ) :
    (emMalloc mm size).2.Geometry unit bnum memory ∧
      (emMalloc mm size).2.isBshiftable = mm.isBshiftable ∧
      ∀ addr, (emMalloc mm size).1 = some addr →
        ∃ index, addr = memory + unit * index := by
  unfold emMalloc emMallocUnlocked
  split
  · exact ⟨geometry, rfl, nofun⟩
  dsimp only
  split
  · exact ⟨geometry, rfl, nofun⟩
  · split
    · exact ⟨geometry.of_mpUsed _ _, rfl, nofun⟩
    · rename_i address _ _ newAddress mpUsed _
      have carved := (geometry.of_mpUsed mpUsed
        (mm.memUsedBsize + emMallocBlength mm size)).of_carve
          (.used newAddress) (.free address) (emMallocBlength mm size)
      refine ⟨⟨carved.unit_eq, carved.bnum_eq, carved.memory_eq,
        carved.shift⟩, emMallocCarve_isBshiftable, ?_⟩
      intro addr given
      have isPlace := (Option.some.inj given).symm
      exact ⟨_, isPlace.trans (carved.unitAddress_eq _)⟩

theorem Geometry.free (geometry : mm.Geometry unit bnum memory) (addr : ℤ) :
    (emFree mm addr).Geometry unit bnum memory :=
  (geometry.of_merge _).of_mpUsed _ _

theorem dividing_granted {mpUsed : EmMpool} {newAddress address : ℤ}
    {blength : ℕ} :
    (mm.dividing offset).granted mpUsed newAddress address blength =
      (mm.granted mpUsed newAddress address blength).dividing offset := by
  have carved := @dividing_carve
    { mm with memUsedBsize := mm.memUsedBsize + blength, mpUsed } offset
    (.used newAddress) (.free address) blength
  exact congrArg (fun mm => registered mm (.used newAddress)) carved

/-- Allocation in lockstep: the same records, the same offset. -/
theorem dividing_malloc (geometry : mm.Geometry unit bnum memory)
    (positive : 0 < unit) {size : ℕ} (fits : unitCount unit size ≤ intMax) :
    emMalloc (mm.dividing offset) size =
      ((emMalloc mm size).1.map (fun addr => addr + offset),
        (emMalloc mm size).2.dividing offset) := by
  rcases Nat.eq_zero_or_pos size with rfl | nonempty
  · rfl
  have blength := geometry.blength_eq positive fits
  have sameLength : emMallocBlength (mm.dividing offset) size =
      (unitCount unit size : ℕ) :=
    (dividing_blength geometry positive size).trans blength
  have sameSearch := @dividing_search mm offset (unitCount unit size)
    mm.mpFree.numUsed
  cases search : emMallocSearch mm (unitCount unit size)
      mm.mpFree.numUsed with
  | none =>
      rw [malloc_missing nonempty blength search,
        malloc_missing nonempty sameLength (sameSearch.trans search)]
      rfl
  | some address =>
      cases taken : emMpoolAllocBlockNoWait mm.mpUsed with
      | mk newAddress mpUsed =>
          cases newAddress with
          | none =>
              rw [malloc_full nonempty blength search taken,
                malloc_full nonempty sameLength (sameSearch.trans search)
                  taken]
              rfl
          | some newAddress =>
              rw [malloc_granted nonempty blength search taken,
                malloc_granted nonempty sameLength
                  (sameSearch.trans search) taken, dividing_granted,
                dividing_unitAddress (geometry.of_granted mpUsed newAddress
                  address (unitCount unit size))]
              rfl

/-- Release in lockstep. -/
theorem dividing_free (geometry : mm.Geometry unit bnum memory)
    (positive : 0 < unit) (index : ℤ) :
    emFree (mm.dividing offset) (memory + unit * index + offset) =
      (emFree mm (memory + unit * index)).dividing offset := by
  unfold emFree
  rw [dividing_unitIndex geometry positive, dividing_minfoPtr]
  dsimp only
  rw [dividing_merge]
  rfl

theorem emMemmngPools_isBshiftable {origin : Option ℤ}
    {regions : EmMemmngRegions} {allocMax : ℕ} :
    (emMemmngPools mm allocMax origin regions).isBshiftable =
      mm.isBshiftable := by
  cases origin with
  | none => rfl
  | some memory => rfl

/-- Every power of two is shifted. -/
theorem emMemmngCreate_isBshiftable {exponent : ℕ} {origin : Option ℤ}
    {regions : EmMemmngRegions} {allocMax : ℕ} :
    (emMemmngCreate mm (2 ^ exponent) bnum allocMax origin
      regions).isBshiftable = true := by
  have single : (2 ^ exponent) &&& (2 ^ exponent - 1) = 0 := by
    rw [Nat.and_two_pow_sub_one_eq_mod, Nat.mod_self]
  have nonzero : ¬ 2 ^ exponent ≤ 0 :=
    Nat.not_le.mpr (Nat.two_pow_pos exponent)
  have shiftable : (!decide (2 ^ exponent ≤ 0 ∨
      2 ^ exponent &&& (2 ^ exponent - 1) ≠ 0)) = true := by
    rw [single]
    simp [nonzero]
  apply @Untouched.create _ _ (fun after => after.isBshiftable = true)
    ⟨fun _ _ _ same => same, fun _ _ same => same⟩
  exact emMemmngPools_isBshiftable.trans shiftable

end EmMemmng

/-! ## Runs in lockstep -/

open EmMemmng

/-- The call at the other arena. -/
def HeapEvent.moved (offset : ℤ) : HeapEvent → HeapEvent
  | .malloc size result => .malloc size (result.map (fun addr => addr + offset))
  | .free addr => .free (addr + offset)

namespace Heap

/-- The manager that divides, with the live allocations in its own arena. -/
def dividing (heap : Heap) (offset : ℤ) : Heap where
  manager := heap.manager.dividing offset
  live := heap.live.map (fun block => (block.1 + offset, block.2))

/-- A manager that shifts, with live allocations at multiples of the unit. -/
structure Shifts (heap : Heap) (unit bnum : ℕ) (memory : ℤ) : Prop where
  isBshiftable : heap.manager.isBshiftable = true
  geometry : heap.manager.Geometry unit bnum memory
  aligned : ∀ block, block ∈ heap.live →
    ∃ index, block.1 = memory + unit * index

variable {heap after : Heap} {unit bnum : ℕ} {memory offset : ℤ}

theorem dividing_of_malloc (shifts : heap.Shifts unit bnum memory)
    (positive : 0 < unit) {size : ℕ} (fits : unitCount unit size ≤ intMax) :
    (heap.dividing offset).malloc size =
      (heap.malloc size).dividing offset := by
  have called := @dividing_malloc _ _ _ _ offset shifts.geometry positive size
    fits
  unfold Heap.malloc Heap.dividing
  dsimp only
  rw [called]
  cases (emMalloc heap.manager size).1 with
  | none => rfl
  | some addr => rfl

theorem dividing_of_free (shifts : heap.Shifts unit bnum memory)
    (positive : 0 < unit) {addr : ℤ}
    (isLive : addr ∈ heap.live.map Prod.fst) :
    (heap.dividing offset).free (addr + offset) =
      (heap.free addr).dividing offset := by
  obtain ⟨block, member, rfl⟩ := List.mem_map.mp isLive
  obtain ⟨index, isPlace⟩ := shifts.aligned block member
  have released := @dividing_free _ _ _ _ offset shifts.geometry positive
    index
  have chosen : ((fun other : ℤ × ℕ =>
      decide (other.1 = block.1 + offset)) ∘
        fun other : ℤ × ℕ => (other.1 + offset, other.2)) =
      fun other : ℤ × ℕ => decide (other.1 = block.1) := by
    funext other
    simp only [Function.comp_apply, add_left_inj]
  unfold Heap.free Heap.dividing
  dsimp only
  rw [List.eraseP_map, chosen, isPlace, released]

theorem created_shifts (mm : EmMemmng) (exponent bnum allocMax : ℕ)
    (origin : Option ℤ) (regions : EmMemmngRegions) :
    (created mm (2 ^ exponent) bnum allocMax origin regions).Shifts
      (2 ^ exponent) bnum
      (created mm (2 ^ exponent) bnum allocMax origin
        regions).manager.memory := by
  refine ⟨emMemmngCreate_isBshiftable, Geometry.of_create, ?_⟩
  intro block member
  cases member

theorem Shifts.step (shifts : heap.Shifts unit bnum memory)
    {event : HeapEvent} (taken : Step unit heap event after) :
    after.Shifts unit bnum memory := by
  cases taken with
  | malloc =>
      rename_i size _
      obtain ⟨geometry, kept, given⟩ := shifts.geometry.malloc size
      refine ⟨kept.trans shifts.isBshiftable, geometry, ?_⟩
      intro block member
      unfold Heap.malloc at member
      dsimp only at member
      cases result : (emMalloc heap.manager size).1 with
      | none =>
          rw [result] at member
          exact shifts.aligned block member
      | some addr =>
          rw [result] at member
          rcases List.mem_cons.mp member with rfl | older
          · exact given addr result
          · exact shifts.aligned block older
  | free =>
      refine ⟨emFreeMerge_isBshiftable.trans shifts.isBshiftable,
        shifts.geometry.free _, ?_⟩
      intro block member
      exact shifts.aligned block (List.mem_of_mem_eraseP member)

/-- Each call of the manager that shifts is one of the manager that divides. -/
theorem Shifts.dividing_step (shifts : heap.Shifts unit bnum memory)
    (positive : 0 < unit) {event : HeapEvent}
    (taken : Step unit heap event after) :
    Step unit (heap.dividing offset) (event.moved offset)
      (after.dividing offset) := by
  cases taken with
  | malloc fits =>
      rw [← dividing_of_malloc shifts positive fits]
      apply Step.malloc_of_eq fits
      exact congrArg Prod.fst (dividing_malloc shifts.geometry positive fits)
  | free isLive =>
      rw [← dividing_of_free shifts positive isLive]
      apply Step.free
      obtain ⟨block, member, rfl⟩ := List.mem_map.mp isLive
      exact List.mem_map.mpr ⟨_, List.mem_map_of_mem member, rfl⟩

/-- Each call of the manager that divides comes from one of the manager that
shifts. -/
theorem Shifts.step_of_dividing (shifts : heap.Shifts unit bnum memory)
    (positive : 0 < unit) {event : HeapEvent}
    (taken : Step unit (heap.dividing offset) event after) :
    ∃ original before, Step unit heap original before ∧
      original.moved offset = event ∧ before.dividing offset = after := by
  cases taken with
  | malloc fits =>
      rename_i size
      refine ⟨_, _, .malloc fits, ?_,
        (dividing_of_malloc shifts positive fits).symm⟩
      have called := @dividing_malloc _ _ _ _ offset shifts.geometry positive
        size fits
      exact congrArg (HeapEvent.malloc size) (congrArg Prod.fst called).symm
  | free isLive =>
      obtain ⟨image, imageMember, rfl⟩ := List.mem_map.mp isLive
      obtain ⟨block, member, rfl⟩ := List.mem_map.mp imageMember
      have blockLive := List.mem_map_of_mem (f := Prod.fst) member
      exact ⟨_, _, .free blockLive, rfl,
        (dividing_of_free shifts positive blockLive).symm⟩

/-- Shifts and divisions give the same runs: the managers differ in the flag
and the place of the arena, the calls in the place of the arena alone. -/
theorem bshift_equals_division (mm : EmMemmng)
    (exponent bnum allocMax : ℕ) (origin : Option ℤ)
    (regions : EmMemmngRegions) (offset : ℤ) :
    let start := created mm (2 ^ exponent) bnum allocMax origin regions
    (∀ events heap, Run (Step (2 ^ exponent)) start events heap →
      heap.manager.isBshiftable = true ∧
        Run (Step (2 ^ exponent)) (start.dividing offset)
          (events.map (HeapEvent.moved offset)) (heap.dividing offset)) ∧
    (∀ events heap,
      Run (Step (2 ^ exponent)) (start.dividing offset) events heap →
        heap.manager.isBshiftable = false ∧
        ∃ originals before, Run (Step (2 ^ exponent)) start originals before ∧
          originals.map (HeapEvent.moved offset) = events ∧
          before.dividing offset = heap) := by
  have positive : 0 < 2 ^ exponent := Nat.two_pow_pos exponent
  have initially := created_shifts mm exponent bnum allocMax origin regions
  generalize (created mm (2 ^ exponent) bnum allocMax origin
    regions).manager.memory = memory at initially
  have kept : ∀ (before : Heap) event after,
      before.Shifts (2 ^ exponent) bnum memory →
        Step (2 ^ exponent) before event after →
          after.Shifts (2 ^ exponent) bnum memory :=
    fun _ _ _ shifts taken => shifts.step taken
  constructor
  · intro events heap run
    have final := run.invariant _ initially kept
    refine ⟨final.isBshiftable, ?_⟩
    apply run.translate (Heap.dividing · offset) _ _ initially kept
    intro before event after shifts taken
    exact shifts.dividing_step positive taken
  · intro events heap run
    obtain ⟨originals, before, earlier, isMoved, rfl⟩ :=
      Run.reflect (Heap.dividing · offset) (HeapEvent.moved offset) _
        initially kept
        (fun _ _ _ shifts taken => shifts.step_of_dividing positive taken) run
    exact ⟨rfl, originals, before, earlier, isMoved, rfl⟩

/-- Two allocations and a release, with the other arena at 8000. -/
theorem bshift_equals_division_three_calls :
    ∃ heap,
      Run (Step (2 ^ 4))
        ((created default (2 ^ 4) 8 4 none ⟨1000, 2000, 5000⟩).dividing 3000)
        [.malloc 16 (some 8000), .malloc 40 (some 8016), .free 8000] heap ∧
      heap.manager.isBshiftable = false := by
  have run : Run (Step (2 ^ 4))
      (created default (2 ^ 4) 8 4 none ⟨1000, 2000, 5000⟩)
      [.malloc 16 (some 5000), .malloc 40 (some 5016), .free 5000] _ :=
    .cons (.malloc_of_eq (by decide) (by decide +kernel))
    (.cons (.malloc_of_eq (by decide) (by decide +kernel))
    (.cons (.free (by decide +kernel)) .nil))
  have same := bshift_equals_division default 4 8 4 none
    ⟨1000, 2000, 5000⟩ 3000
  exact ⟨_, (same.1 _ _ run).2, rfl⟩

end Heap

end EmbeddedMiddle
