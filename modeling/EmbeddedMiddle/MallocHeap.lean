import EmbeddedMiddle.MallocArena
import EmbeddedMiddle.Foundation.Transition

/-!
# Runs of the block allocator

A manager together with the allocations that are live in it.  As long as every
release reads a right back link, live allocations lie apart and no unit of the
arena is lost.
-/

namespace EmbeddedMiddle

open Foundation EmMemmng

/-- A manager and the pointers returned and not freed since, with the sizes
they were requested for. -/
structure Heap where
  manager : EmMemmng
  live : List (ℤ × ℕ)

inductive HeapEvent where
  | malloc (size : ℕ) (result : Option ℤ)
  | free (addr : ℤ)
  deriving DecidableEq, Repr

namespace Heap

/-- The heap after `em_malloc`. -/
def malloc (heap : Heap) (size : ℕ) : Heap where
  manager := (emMalloc heap.manager size).2
  live :=
    match (emMalloc heap.manager size).1 with
    | none => heap.live
    | some addr => (addr, size) :: heap.live

/-- The heap after `em_free`. -/
def free (heap : Heap) (addr : ℤ) : Heap where
  manager := emFree heap.manager addr
  live := heap.live.eraseP (fun block => block.1 = addr)

/-- The calls callers may make: requests whose unit count is an `int`, and
releases of live pointers. -/
inductive Step (unit : ℕ) : Heap → HeapEvent → Heap → Prop where
  | malloc {heap : Heap} {size : ℕ} :
      unitCount unit size ≤ intMax →
      Step unit heap (.malloc size (emMalloc heap.manager size).1)
        (heap.malloc size)
  | free {heap : Heap} {addr : ℤ} :
      addr ∈ heap.live.map Prod.fst →
      Step unit heap (.free addr) (heap.free addr)

/-- The record that a release removes names its predecessor in the chain. -/
def Linked (heap : Heap) : HeapEvent → Prop
  | .malloc _ _ => True
  | .free addr =>
      let del := heap.manager.minfoPtr (heap.manager.unitIndex addr)
      heap.manager.Precedes (heap.manager.record del).backMeminfo del

theorem Step.malloc_of_eq {unit : ℕ} {heap : Heap} {size : ℕ}
    {result : Option ℤ} (fits : unitCount unit size ≤ intMax)
    (returned : (emMalloc heap.manager size).1 = result) :
    Step unit heap (.malloc size result) (heap.malloc size) :=
  returned ▸ .malloc fits

def created (mm : EmMemmng) (unit bnum allocMax : ℕ) (memory : Option ℤ)
    (regions : EmMemmngRegions) : Heap :=
  ⟨emMemmngCreate mm unit bnum allocMax memory regions, []⟩

/-- The address of an allocation with its units. -/
def extent (unit : ℕ) (block : ℤ × ℕ) : ℤ × ℤ :=
  (block.1, unitCount unit block.2)

/-- The address and the units of a cell. -/
def place (unit : ℕ) (memory : ℤ) (cell : Cell) : ℤ × ℤ :=
  (memory + unit * cell.index, cell.length)

def takenPlaces (unit : ℕ) (memory : ℤ) (cells : List Cell) : List (ℤ × ℤ) :=
  (cells.filter (fun cell => cell.ptr.isTaken)).map (place unit memory)

/-- The live allocations are the taken cells of a well-formed manager. -/
structure Shows (heap : Heap) (unit bnum allocMax : ℕ) (memory : ℤ)
    (regions : EmMemmngRegions) (cells : List Cell) (used free : Finset ℤ) :
    Prop where
  geometry : heap.manager.Geometry unit bnum memory
  chain : heap.manager.Chain allocMax regions cells used free
  nonempty : ∀ block, block ∈ heap.live → 0 < block.2
  listed : (heap.live.map (extent unit)).Perm (takenPlaces unit memory cells)

/-- A heap shown by some chain. -/
def Sound (heap : Heap) (unit bnum allocMax : ℕ) (memory : ℤ) : Prop :=
  ∃ regions cells used free,
    heap.Shows unit bnum allocMax memory regions cells used free

variable {heap : Heap} {unit bnum allocMax : ℕ} {memory : ℤ}
  {regions : EmMemmngRegions} {cells : List Cell} {used free : Finset ℤ}

/-! ## What one call preserves -/

@[simp] theorem takenPlaces_append {left right : List Cell} :
    takenPlaces unit memory (left ++ right) =
      takenPlaces unit memory left ++ takenPlaces unit memory right := by
  simp only [takenPlaces, List.filter_append, List.map_append]

theorem takenPlaces_cons_taken {cell : Cell} {right : List Cell}
    (taken : cell.ptr.isTaken = true) :
    takenPlaces unit memory (cell :: right) =
      place unit memory cell :: takenPlaces unit memory right := by
  simp [takenPlaces, taken]

theorem takenPlaces_cons_free {cell : Cell} {right : List Cell}
    (isFree : cell.ptr.isFree = true) :
    takenPlaces unit memory (cell :: right) =
      takenPlaces unit memory right := by
  obtain ⟨address, isAddress⟩ := Cell.exists_free_address isFree
  simp [takenPlaces, isAddress, MeminfoPtr.isTaken]

theorem takenPlaces_free {middle : List Cell}
    (allFree : ∀ cell, cell ∈ middle → cell.ptr.isFree = true) :
    takenPlaces unit memory middle = [] := by
  induction middle with
  | nil => rfl
  | cons cell middle induction =>
      rw [takenPlaces_cons_free (allFree cell (by simp))]
      apply induction
      intro other member
      exact allFree other (List.mem_cons_of_mem cell member)

theorem Sound.malloc (sound : heap.Sound unit bnum allocMax memory)
    (positive : 0 < unit) {size : ℕ} (fits : unitCount unit size ≤ intMax) :
    (heap.malloc size).Sound unit bnum allocMax memory := by
  obtain ⟨regions, cells, used, free, shows⟩ := sound
  rcases Nat.eq_zero_or_pos size with rfl | nonempty
  · exact ⟨regions, cells, used, free, shows⟩
  obtain ⟨geometry, refused | granted⟩ :=
    shows.chain.malloc shows.geometry positive nonempty fits
  · obtain ⟨isNull, refused⟩ := refused
    have same : (heap.malloc size).live = heap.live := by
      simp only [Heap.malloc, isNull]
    refine ⟨regions, cells, used, free, geometry, refused.chain, ?_, ?_⟩
    · rw [same]
      exact shows.nonempty
    · rw [same]
      exact shows.listed
  · obtain ⟨cell, new, isAddress, granted⟩ := granted
    obtain ⟨left, right, rest, freeAfter, rfl, restFree, chain⟩ :=
      granted.chain
    have grown : (heap.malloc size).live =
        (memory + unit * cell.index, size) :: heap.live := by
      simp only [Heap.malloc, isAddress]
    refine ⟨regions, _, _, freeAfter, geometry, chain, ?_, ?_⟩
    · rw [grown]
      intro block member
      rcases List.mem_cons.mp member with rfl | older
      · exact nonempty
      · exact shows.nonempty block older
    · have old := shows.listed
      rw [takenPlaces_append, takenPlaces_cons_free granted.isFree] at old
      rw [grown, List.map_cons, takenPlaces_append, takenPlaces_cons_taken rfl,
        takenPlaces_append, takenPlaces_free restFree, List.nil_append]
      exact (old.cons _).trans List.perm_middle.symm

/-- The cell of a live allocation. -/
theorem Shows.exists_cell
    (shows : heap.Shows unit bnum allocMax memory regions cells used free)
    {block : ℤ × ℕ} (member : block ∈ heap.live) :
    ∃ cell address, cell ∈ cells ∧ cell.ptr = .used address ∧
      block.1 = memory + unit * cell.index ∧
      cell.length = unitCount unit block.2 := by
  have listed := shows.listed.mem_iff.mp (List.mem_map_of_mem member)
  obtain ⟨cell, cellMember, equality⟩ := List.mem_map.mp listed
  obtain ⟨cellMember, taken⟩ := List.mem_filter.mp cellMember
  obtain ⟨isAddress, isLength⟩ := Prod.mk.inj equality
  cases ptr_eq : cell.ptr with
  | used address =>
      exact ⟨cell, address, cellMember, ptr_eq, isAddress.symm, isLength⟩
  | _ => simp [MeminfoPtr.isTaken, ptr_eq] at taken

theorem Shows.freed
    (shows : heap.Shows unit bnum allocMax memory regions cells used free)
    (positive : 0 < unit) (representable : bnum ≤ intMax) {addr : ℤ}
    (isLive : addr ∈ heap.live.map Prod.fst)
    (linked : heap.Linked (.free addr)) :
    (heap.free addr).Sound unit bnum allocMax memory := by
  obtain ⟨known, knownMember, isAddr⟩ := List.mem_map.mp isLive
  obtain ⟨block, before, beyond, _, found, split, erased⟩ :=
    @List.exists_of_eraseP _ (fun block : ℤ × ℕ => block.1 = addr) _ _
      knownMember (decide_eq_true isAddr)
  have blockAddr : block.1 = addr := of_decide_eq_true found
  have blockMember : block ∈ heap.live := by simp [split]
  obtain ⟨cell, address, member, isUsed, place_eq, length_eq⟩ :=
    shows.exists_cell blockMember
  have addr_eq : addr = memory + unit * cell.index :=
    blockAddr.symm.trans place_eq
  subst addr_eq
  have taken : cell.ptr.isTaken = true := by
    rw [isUsed]
    rfl
  have entry := shows.chain.entry shows.geometry positive representable member
    taken
  have precedes : heap.manager.Precedes
      (heap.manager.record cell.ptr).backMeminfo cell.ptr := by
    have linked := linked
    simp only [Linked, entry] at linked
    exact linked
  obtain ⟨geometry, remaining, freeAfter, left, right, rfl, chain, filtered⟩ :=
    shows.chain.freed shows.geometry positive representable member isUsed
      precedes
  have live : (heap.free (memory + unit * cell.index)).live =
      before ++ beyond := erased
  refine ⟨regions, remaining, _, freeAfter, geometry, chain, ?_, ?_⟩
  · rw [live]
    intro other otherMember
    apply shows.nonempty other
    rw [split]
    rcases List.mem_append.mp otherMember with earlier | later
    · exact List.mem_append_left _ earlier
    · exact List.mem_append_right _ (List.mem_cons_of_mem _ later)
  · have listed := shows.listed
    have same : extent unit block = place unit memory cell :=
      Prod.ext place_eq length_eq.symm
    have remains : takenPlaces unit memory remaining =
        takenPlaces unit memory (left ++ right) := by
      rw [takenPlaces, filtered, takenPlaces]
    rw [split, takenPlaces_append, takenPlaces_cons_taken taken,
      List.map_append, List.map_cons, same] at listed
    rw [live, remains, takenPlaces_append, List.map_append]
    exact (List.perm_middle.symm.trans
      (listed.trans List.perm_middle)).cons_inv

/-- One call of a run. -/
theorem Sound.step (sound : heap.Sound unit bnum allocMax memory)
    (positive : 0 < unit) (representable : bnum ≤ intMax)
    {event : HeapEvent} {after : Heap}
    (taken : Guarded Linked (Step unit) heap event after) :
    after.Sound unit bnum allocMax memory := by
  obtain ⟨linked, taken⟩ := taken
  cases taken with
  | malloc fits => exact sound.malloc positive fits
  | free isLive =>
      obtain ⟨regions, cells, used, free, shows⟩ := sound
      exact shows.freed positive representable isLive linked

theorem created_sound (mm : EmMemmng) {origin : Option ℤ}
    (blocks : 0 < bnum) (nonempty : 0 < allocMax)
    (representable : allocMax ≤ intMax) (fit : PoolsFit origin allocMax)
    (regions : EmMemmngRegions) :
    (created mm unit bnum allocMax origin regions).Sound unit bnum allocMax
      (created mm unit bnum allocMax origin regions).manager.memory := by
  obtain ⟨geometry, placed, address, chain⟩ := emMemmngCreate_chain
    blocks nonempty representable fit regions
  refine ⟨placed, _, _, _, geometry, chain, ?_, ?_⟩
  · intro block member
    cases member
  · simp [created, takenPlaces, firstCell, lastCell, MeminfoPtr.isTaken]

theorem run_sound (mm : EmMemmng) {origin : Option ℤ}
    (positive : 0 < unit) (blocks : 0 < bnum) (nonempty : 0 < allocMax)
    (arena : unit * bnum ≤ intMax) (representable : allocMax ≤ intMax)
    (fit : PoolsFit origin allocMax) {regions : EmMemmngRegions}
    {events : List HeapEvent}
    (run : Run (Guarded Linked (Step unit))
      (created mm unit bnum allocMax origin regions) events heap) :
    heap.Sound unit bnum allocMax
      (created mm unit bnum allocMax origin regions).manager.memory := by
  have indices : bnum ≤ intMax :=
    (Nat.le_mul_of_pos_left bnum positive).trans arena
  apply run.invariant (fun heap => heap.Sound unit bnum allocMax _)
  · exact created_sound mm blocks nonempty representable fit regions
  · intro before event after sound taken
    exact sound.step positive indices taken

/-! ## Live allocations lie apart -/

/-- Every live allocation lies in the arena. -/
def Within (heap : Heap) (memory : ℤ) (size : ℕ) : Prop :=
  ∀ block, block ∈ heap.live →
    memory ≤ block.1 ∧ block.1 + block.2 ≤ memory + size

/-- The byte ranges of the live allocations are pairwise disjoint. -/
def Apart (heap : Heap) : Prop :=
  heap.live.Pairwise (fun left right : ℤ × ℕ =>
    left.1 + (left.2 : ℤ) ≤ right.1 ∨ right.1 + (right.2 : ℤ) ≤ left.1)

theorem Shows.within
    (shows : heap.Shows unit bnum allocMax memory regions cells used free)
    (positive : 0 < unit) : heap.Within memory (unit * bnum) := by
  intro block member
  obtain ⟨cell, address, cellMember, isUsed, place_eq, length_eq⟩ :=
    shows.exists_cell member
  obtain ⟨nonneg, below⟩ :=
    shows.chain.within cellMember (isBlock_of_used isUsed)
  rw [shows.geometry.bnum_eq] at below
  have covers : ((block.2 : ℕ) : ℤ) ≤ unit * cell.length := by
    rw [length_eq]
    exact_mod_cast size_le_units positive
  have scaled : (unit : ℤ) * (cell.index + cell.length) ≤ unit * bnum :=
    mul_le_mul_of_nonneg_left below (Int.natCast_nonneg unit)
  have lower : 0 ≤ (unit : ℤ) * cell.index :=
    mul_nonneg (Int.natCast_nonneg unit) nonneg
  rw [mul_add] at scaled
  push_cast
  constructor
  · omega
  · omega

/-- Extents of whole units that do not meet. -/
def Clear (unit : ℕ) (left right : ℤ × ℤ) : Prop :=
  left.1 + unit * left.2 ≤ right.1 ∨ right.1 + unit * right.2 ≤ left.1

theorem Shows.apart
    (shows : heap.Shows unit bnum allocMax memory regions cells used free)
    (positive : 0 < unit) : heap.Apart := by
  have places : (takenPlaces unit memory cells).Pairwise (Clear unit) := by
    apply List.pairwise_map.mpr
    apply (shows.chain.ordered.filter _).imp
    intro left right ordered
    have scaled : (unit : ℤ) * (left.index + left.length) ≤
        unit * right.index :=
      mul_le_mul_of_nonneg_left ordered (Int.natCast_nonneg unit)
    rw [mul_add] at scaled
    left
    simp only [place]
    omega
  have extents : (heap.live.map (extent unit)).Pairwise (Clear unit) :=
    (shows.listed.pairwise_iff fun clear => clear.symm).mpr places
  refine (List.pairwise_map.mp extents).imp ?_
  intro left right clear
  have leftCovers : (left.2 : ℤ) ≤ unit * unitCount unit left.2 := by
    exact_mod_cast size_le_units positive
  have rightCovers : (right.2 : ℤ) ≤ unit * unitCount unit right.2 := by
    exact_mod_cast size_le_units positive
  rcases clear with earlier | later
  · left
    simp only [extent] at earlier
    omega
  · right
    simp only [extent] at later
    omega

/-! ## No unit is lost -/

/-- Some byte of the unit belongs to a live allocation. -/
def Covered (heap : Heap) (unit : ℕ) (memory index : ℤ) : Prop :=
  ∃ block, block ∈ heap.live ∧ block.1 < memory + unit * (index + 1) ∧
    memory + unit * index < block.1 + block.2

/-- `count` units in a row that no live allocation covers. -/
def HasRun (heap : Heap) (unit bnum : ℕ) (memory : ℤ) (count : ℕ) : Prop :=
  ∃ start : ℤ, 0 ≤ start ∧ start + count ≤ bnum ∧
    ∀ index, start ≤ index → index < start + count →
      ¬ heap.Covered unit memory index

/-- The covered units are those of the taken cells. -/
theorem Shows.covered_iff
    (shows : heap.Shows unit bnum allocMax memory regions cells used free)
    (positive : 0 < unit) {index : ℤ} :
    heap.Covered unit memory index ↔
      ∃ cell, cell ∈ cells ∧ cell.ptr.isTaken = true ∧
        cell.index ≤ index ∧ index < cell.index + cell.length := by
  have unitPositive : (0 : ℤ) < unit := Int.natCast_pos.mpr positive
  constructor
  · intro covered
    obtain ⟨block, member, below, above⟩ := covered
    obtain ⟨cell, address, cellMember, isUsed, place_eq, length_eq⟩ :=
      shows.exists_cell member
    have covers : (block.2 : ℤ) ≤ unit * cell.length := by
      rw [length_eq]
      exact_mod_cast size_le_units positive
    refine ⟨cell, cellMember, by rw [isUsed]; rfl, ?_, ?_⟩
    · have scaled : (unit : ℤ) * cell.index < unit * (index + 1) := by omega
      exact Int.lt_add_one_iff.mp (lt_of_mul_lt_mul_left scaled unitPositive.le)
    · have scaled : (unit : ℤ) * index < unit * (cell.index + cell.length) := by
        rw [mul_add]
        omega
      exact lt_of_mul_lt_mul_left scaled unitPositive.le
  · intro present
    obtain ⟨cell, cellMember, taken, lower, upper⟩ := present
    have listed : place unit memory cell ∈ takenPlaces unit memory cells :=
      List.mem_map_of_mem (List.mem_filter.mpr ⟨cellMember, taken⟩)
    obtain ⟨block, member, same⟩ :=
      List.mem_map.mp (shows.listed.mem_iff.mpr listed)
    obtain ⟨place_eq, length_eq⟩ := Prod.mk.inj same
    have nonempty := shows.nonempty block member
    have short : (unit : ℤ) * (cell.length - 1) < block.2 := by
      have units := units_lt_size positive nonempty
      have count := unitCount_pos positive nonempty
      rw [← length_eq]
      have cast : ((unitCount unit block.2 : ℕ) : ℤ) - 1 =
          ((unitCount unit block.2 - 1 : ℕ) : ℤ) := by omega
      rw [cast]
      exact_mod_cast units
    have lowerScaled : (unit : ℤ) * cell.index ≤ unit * index :=
      mul_le_mul_of_nonneg_left lower unitPositive.le
    have upperScaled : (unit : ℤ) * index ≤
        unit * (cell.index + (cell.length - 1)) :=
      mul_le_mul_of_nonneg_left (by omega) unitPositive.le
    rw [mul_add] at upperScaled
    refine ⟨block, member, ?_, ?_⟩
    · rw [place_eq, mul_add, mul_one]
      omega
    · rw [place_eq]
      omega

theorem Shows.length_live
    (shows : heap.Shows unit bnum allocMax memory regions cells used free) :
    heap.live.length = used.card := by
  have counted := shows.listed.length_eq
  rw [List.length_map, takenPlaces, List.length_map,
    ← List.countP_eq_length_filter] at counted
  rw [counted, shows.chain.card_used]

/-- A free cell offers its units. -/
theorem Shows.hasRun_of_cell
    (shows : heap.Shows unit bnum allocMax memory regions cells used free)
    (positive : 0 < unit) {cell : Cell} (member : cell ∈ cells)
    (isFree : cell.ptr.isFree = true) {count : ℕ}
    (fits : (count : ℤ) ≤ cell.length) :
    heap.HasRun unit bnum memory count := by
  have block : cell.ptr.isBlock = true := by
    simp [MeminfoPtr.isBlock, isFree]
  obtain ⟨nonneg, below⟩ := shows.chain.within member block
  rw [shows.geometry.bnum_eq] at below
  refine ⟨cell.index, nonneg, by omega, ?_⟩
  intro index lower upper covered
  obtain ⟨other, otherMember, taken, otherLower, otherUpper⟩ :=
    (shows.covered_iff positive).mp covered
  have different : cell ≠ other := by
    intro same
    obtain ⟨address, isAddress⟩ := Cell.exists_free_address isFree
    rw [← same, isAddress] at taken
    exact Bool.false_ne_true taken
  rcases shows.chain.apart member otherMember different with earlier | later
  · omega
  · omega

/-- A run of uncovered units lies in one free cell. -/
theorem Shows.cell_of_hasRun
    (shows : heap.Shows unit bnum allocMax memory regions cells used free)
    (positive : 0 < unit) {count : ℕ} (nonempty : 0 < count)
    (hasRun : heap.HasRun unit bnum memory count) :
    ∃ cell, cell ∈ cells ∧ cell.ptr.isFree = true ∧
      (count : ℤ) ≤ cell.length := by
  obtain ⟨start, nonneg, below, uncovered⟩ := hasRun
  have bnum_eq := shows.geometry.bnum_eq
  obtain ⟨left, cell, right, split, block, starts, stops⟩ :=
    shows.chain.exists_block nonneg (by rw [bnum_eq]; omega)
  have member : cell ∈ cells := by simp [split]
  have isFree : cell.ptr.isFree = true := by
    cases taken : cell.ptr.isTaken with
    | false => simpa [MeminfoPtr.isBlock, taken] using block
    | true =>
        exact absurd ((shows.covered_iff positive).mpr
          ⟨cell, member, taken, starts, stops⟩)
          (uncovered start (le_refl _) (by omega))
  refine ⟨cell, member, isFree, ?_⟩
  by_contra short
  -- The unit behind the cell is in the run, but it cannot be free.
  obtain ⟨next, right, rfl⟩ := shows.chain.exists_beyond split block
  have follows : heap.manager.Follows cell next :=
    shows.chain.follows _ right split
  have touch := follows.touch
  have nextTaken := follows.apart isFree
  have nextMember : next ∈ cells := by simp [split]
  cases ptr_eq : next.ptr with
  | null =>
      exact shows.chain.notNull (ptr_eq ▸ List.mem_map_of_mem nextMember)
  | first =>
      have isFirst := shows.chain.eq_firstCell nextMember ptr_eq
      rw [isFirst] at touch
      simp only [firstCell] at touch
      omega
  | last =>
      have isLast := shows.chain.eq_lastCell nextMember ptr_eq
      rw [isLast] at touch
      simp only [lastCell, bnum_eq] at touch
      omega
  | used address =>
      have extent := (shows.chain.described next nextMember).positive
        (isBlock_of_used ptr_eq)
      apply uncovered next.index (by omega) (by omega)
      apply (shows.covered_iff positive).mpr
      exact ⟨next, nextMember, by rw [ptr_eq]; rfl, le_refl _, by omega⟩
  | free address =>
      rw [ptr_eq] at nextTaken
      exact Bool.false_ne_true nextTaken.symm

/-- A request is met exactly when a record is left and enough units lie next
to each other. -/
theorem Shows.malloc_iff
    (shows : heap.Shows unit bnum allocMax memory regions cells used free)
    (positive : 0 < unit) {size : ℕ} (nonempty : 0 < size)
    (fits : unitCount unit size ≤ intMax) :
    (emMalloc heap.manager size).1 ≠ none ↔
      heap.live.length < allocMax ∧
        heap.HasRun unit bnum memory (unitCount unit size) := by
  obtain ⟨_, refused | granted⟩ :=
    shows.chain.malloc shows.geometry positive nonempty fits
  · obtain ⟨isNull, refused⟩ := refused
    constructor
    · intro notNull
      exact absurd isNull notNull
    · intro room
      obtain ⟨room, hasRun⟩ := room
      obtain ⟨cell, member, isFree, long⟩ := shows.cell_of_hasRun positive
        (unitCount_pos positive nonempty) hasRun
      rw [shows.length_live] at room
      rcases refused.why with full | short
      · omega
      · have tooShort := short cell member isFree
        omega
  · obtain ⟨cell, new, isAddress, granted⟩ := granted
    have room := granted.room
    obtain ⟨left, right, rest, freeAfter, split, _, _⟩ := granted.chain
    rw [shows.length_live]
    constructor
    · intro _
      exact ⟨room, shows.hasRun_of_cell positive (by simp [split])
        granted.isFree granted.fits⟩
    · intro _
      rw [isAddress]
      exact Option.some_ne_none _

/-- `em_malloc` returns a pointer that is not NULL. -/
def Grants (heap : Heap) (size : ℕ) : Prop :=
  ∃ addr, (emMalloc heap.manager size).1 = some addr ∧ addr ≠ 0

/-- Where the arena was obtained no allocation in it has the address NULL. -/
theorem Shows.grants_iff
    (shows : heap.Shows unit bnum allocMax memory regions cells used free)
    (obtained : 0 < memory) (positive : 0 < unit) {size : ℕ}
    (nonempty : 0 < size) (fits : unitCount unit size ≤ intMax) :
    heap.Grants size ↔ (emMalloc heap.manager size).1 ≠ none := by
  constructor
  · rintro ⟨addr, returned, -⟩
    rw [returned]
    exact Option.some_ne_none addr
  · intro notNone
    obtain ⟨_, ⟨isNone, -⟩ | ⟨cell, new, isAddress, granted⟩⟩ :=
      shows.chain.malloc shows.geometry positive nonempty fits
    · exact absurd isNone notNone
    · obtain ⟨left, right, rest, freeAfter, split, _, _⟩ := granted.chain
      obtain ⟨nonneg, -⟩ := shows.chain.within (by simp [split])
        (show cell.ptr.isBlock = true by simp [MeminfoPtr.isBlock,
          granted.isFree])
      have inside : 0 ≤ (unit : ℤ) * cell.index :=
        mul_nonneg (Int.natCast_nonneg unit) nonneg
      exact ⟨_, isAddress, by omega⟩

end Heap

/-- In a run whose releases all read a right back link, live allocations lie
in the arena and never overlap. -/
theorem live_allocations_apart (mm : EmMemmng) (unit bnum allocMax : ℕ)
    (origin : Option ℤ) (regions : EmMemmngRegions)
    (positive : 1 ≤ unit) (blocks : 1 ≤ bnum) (nonempty : 1 ≤ allocMax)
    (arena : unit * bnum ≤ intMax) (representable : allocMax ≤ intMax)
    (fit : PoolsFit origin allocMax)
    {events : List HeapEvent} {heap : Heap}
    (run : Run (Guarded Heap.Linked (Heap.Step unit))
      (Heap.created mm unit bnum allocMax origin regions) events heap) :
    heap.manager.memory =
        (emMemmngCreate mm unit bnum allocMax origin regions).memory ∧
      heap.Within heap.manager.memory (unit * bnum) ∧ heap.Apart := by
  have sound := Heap.run_sound mm positive blocks nonempty arena
    representable fit run
  obtain ⟨placed, cells, used, free, shows⟩ := sound
  rw [shows.geometry.memory_eq]
  exact ⟨rfl, shows.within positive, shows.apart positive⟩

/-- Three units, three allocations of one each: an exact fit in the middle
leaves the third record with an old back link, and its release makes two
allocations overlap. -/
theorem live_allocations_overlap :
    ∃ heap, Run (Heap.Step 16)
        (Heap.created default 16 3 4 none ⟨1000, 2000, 5000⟩)
        [.malloc 16 (some 5000), .malloc 16 (some 5016),
          .malloc 16 (some 5032), .free 5016, .malloc 16 (some 5016),
          .free 5000, .free 5032, .malloc 32 (some 5000)] heap ∧
      ¬ heap.Apart := by
  refine ⟨_,
    .cons (.malloc_of_eq (by decide) (by decide +kernel))
    (.cons (.malloc_of_eq (by decide) (by decide +kernel))
    (.cons (.malloc_of_eq (by decide) (by decide +kernel))
    (.cons (.free (by decide +kernel))
    (.cons (.malloc_of_eq (by decide) (by decide +kernel))
    (.cons (.free (by decide +kernel))
    (.cons (.free (by decide +kernel))
    (.cons (.malloc_of_eq (by decide) (by decide +kernel)) .nil))))))), ?_⟩
  have live : (((((((((Heap.created default 16 3 4 none
      ⟨1000, 2000, 5000⟩).malloc 16).malloc 16).malloc 16).free 5016).malloc
        16).free 5000).free 5032).malloc 32).live =
          [(5000, 32), (5016, 16)] := by decide +kernel
  rw [Heap.Apart, live]
  decide

/-- One allocation is made and freed again. -/
theorem live_allocations_apart_run :
    ∃ heap, Run (Guarded Heap.Linked (Heap.Step 16))
        (Heap.created default 16 3 4 none ⟨1000, 2000, 5000⟩)
        [.malloc 16 (some 5000), .malloc 32 (some 5016), .free 5000] heap ∧
      heap.Within heap.manager.memory 48 ∧ heap.Apart := by
  have run : Run (Guarded Heap.Linked (Heap.Step 16))
      (Heap.created default 16 3 4 none ⟨1000, 2000, 5000⟩)
      [.malloc 16 (some 5000), .malloc 32 (some 5016), .free 5000] _ :=
    .cons ⟨trivial, .malloc_of_eq (by decide) (by decide +kernel)⟩
    (.cons ⟨trivial, .malloc_of_eq (by decide) (by decide +kernel)⟩
    (.cons ⟨.of_first (by decide +kernel) (by decide +kernel),
      .free (by decide +kernel)⟩ .nil))
  have holds := live_allocations_apart default 16 3 4 none
    ⟨1000, 2000, 5000⟩ (by decide) (by decide) (by decide) (by decide)
    (by decide) (by decide) run
  exact ⟨_, run, holds.2⟩

/-- In a run whose releases all read a right back link, a request succeeds
exactly when a record is left and the uncovered units hold a long enough run;
when nothing is live the whole arena can be allocated. -/
theorem no_unit_lost (mm : EmMemmng) (unit bnum allocMax : ℕ)
    (origin : Option ℤ) (regions : EmMemmngRegions)
    (positive : 1 ≤ unit) (blocks : 1 ≤ bnum) (nonempty : 1 ≤ allocMax)
    (arena : unit * bnum ≤ intMax) (representable : allocMax ≤ intMax)
    (fit : PoolsFit origin allocMax)
    (obtained :
      0 < (emMemmngCreate mm unit bnum allocMax origin regions).memory)
    {events : List HeapEvent} {heap : Heap}
    (run : Run (Guarded Heap.Linked (Heap.Step unit))
      (Heap.created mm unit bnum allocMax origin regions) events heap) :
    (∀ size, 1 ≤ size → unitCount unit size ≤ intMax →
      (heap.Grants size ↔
        heap.live.length < allocMax ∧
          heap.HasRun unit bnum heap.manager.memory
            (unitCount unit size))) ∧
      (heap.live = [] → heap.Grants (unit * bnum)) := by
  have sound := Heap.run_sound mm positive blocks nonempty arena
    representable fit run
  obtain ⟨placed, cells, used, free, shows⟩ := sound
  rw [shows.geometry.memory_eq]
  have requests : ∀ size, 1 ≤ size → unitCount unit size ≤ intMax →
      (heap.Grants size ↔
        heap.live.length < allocMax ∧
          heap.HasRun unit bnum _ (unitCount unit size)) :=
    fun size nonempty fits =>
      (shows.grants_iff obtained positive nonempty fits).trans
        (shows.malloc_iff positive nonempty fits)
  refine ⟨requests, ?_⟩
  intro noneLive
  have whole : unitCount unit (unit * bnum) = bnum := by
    rw [unitCount_eq positive, Nat.mul_div_cancel_left _ positive,
      Nat.mul_mod_right, if_pos rfl, Nat.add_zero]
  have indices : bnum ≤ intMax :=
    (Nat.le_mul_of_pos_left bnum positive).trans arena
  apply (requests (unit * bnum) (Nat.mul_pos positive blocks)
    (whole.symm ▸ indices)).mpr
  refine ⟨by rw [noneLive]; exact nonempty, 0, le_refl 0, ?_, ?_⟩
  · rw [whole, zero_add]
  · intro index _ _ covered
    obtain ⟨block, member, _⟩ := covered
    rw [noneLive] at member
    cases member

/-- The same old back link makes a release keep units that nothing owns: with
nothing live the arena cannot be allocated again. -/
theorem units_lost :
    ∃ heap, Run (Heap.Step 16)
        (Heap.created default 16 3 4 none ⟨1000, 2000, 5000⟩)
        [.malloc 16 (some 5000), .malloc 16 (some 5016),
          .malloc 16 (some 5032), .free 5016, .malloc 16 (some 5016),
          .free 5032, .free 5016, .free 5000] heap ∧
      heap.live = [] ∧ (emMalloc heap.manager 48).1 = none :=
  ⟨_,
    .cons (.malloc_of_eq (by decide) (by decide +kernel))
    (.cons (.malloc_of_eq (by decide) (by decide +kernel))
    (.cons (.malloc_of_eq (by decide) (by decide +kernel))
    (.cons (.free (by decide +kernel))
    (.cons (.malloc_of_eq (by decide) (by decide +kernel))
    (.cons (.free (by decide +kernel))
    (.cons (.free (by decide +kernel))
    (.cons (.free (by decide +kernel)) .nil))))))),
    by decide +kernel, by decide +kernel⟩

theorem no_unit_lost_run :
    ∃ heap, Run (Guarded Heap.Linked (Heap.Step 16))
        (Heap.created default 16 3 4 none ⟨1000, 2000, 5000⟩)
        [.malloc 16 (some 5000), .free 5000] heap ∧ heap.Grants 48 := by
  have run : Run (Guarded Heap.Linked (Heap.Step 16))
      (Heap.created default 16 3 4 none ⟨1000, 2000, 5000⟩)
      [.malloc 16 (some 5000), .free 5000] _ :=
    .cons ⟨trivial, .malloc_of_eq (by decide) (by decide +kernel)⟩
    (.cons ⟨.of_first (by decide +kernel) (by decide +kernel),
      .free (by decide +kernel)⟩ .nil)
  have holds := no_unit_lost default 16 3 4 none
    ⟨1000, 2000, 5000⟩ (by decide) (by decide) (by decide) (by decide)
    (by decide) (by decide) (by decide +kernel) run
  exact ⟨_, run, holds.2 (by decide +kernel)⟩

end EmbeddedMiddle
