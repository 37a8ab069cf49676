import EmbeddedMiddle.MallocRelease
import EmbeddedMiddle.Units
import Mathlib.Data.Nat.Bitwise
import Mathlib.Data.Nat.Log

/-!
# The two calls of the block allocator

Units and addresses of the arena, and what `em_malloc` and `em_free` do to a
well-formed manager as a whole.
-/

namespace EmbeddedMiddle

open Foundation

namespace EmMemmng

/-- The unit, the size and the place of the arena. -/
structure Geometry (mm : EmMemmng) (unit bnum : ℕ) (memory : ℤ) : Prop where
  unit_eq : mm.memUnitSize = unit
  bnum_eq : mm.memTotalBnum = bnum
  memory_eq : mm.memory = memory
  shift : mm.isBshiftable = true → unit = 2 ^ mm.memUnitBshift

namespace Geometry

variable {mm : EmMemmng} {unit bnum : ℕ} {memory : ℤ}

/-- Rounding up by a test of the remainder. -/
theorem rounded_eq {unit size : ℕ} (positive : 0 < unit) :
    (if size % unit ≠ 0 then toInt32 (toInt32 ((size / unit : ℕ) : ℤ) + 1)
      else toInt32 ((size / unit : ℕ) : ℤ)) =
        toInt32 (unitCount unit size : ℕ) := by
  rw [unitCount_eq positive]
  by_cases whole : size % unit = 0
  · rw [if_neg (not_not_intro whole), if_pos whole, Nat.add_zero]
  · rw [if_pos whole, if_neg whole, toInt32_toInt32_add]
    push_cast
    rfl

/-- The unit count as it is stored, for every request. -/
theorem blength_toInt32 (geometry : mm.Geometry unit bnum memory)
    (positive : 0 < unit) {size : ℕ} :
    emMallocBlength mm size = toInt32 (unitCount unit size : ℕ) := by
  rw [← rounded_eq positive]
  cases shiftable : mm.isBshiftable with
  | true =>
      have power := geometry.shift shiftable
      simp only [emMallocBlength, shiftable, ↓reduceIte, geometry.unit_eq,
        Nat.shiftRight_eq_div_pow, power, Nat.and_two_pow_sub_one_eq_mod]
  | false =>
      simp only [emMallocBlength, shiftable, Bool.false_eq_true, ↓reduceIte,
        geometry.unit_eq]

theorem blength_eq (geometry : mm.Geometry unit bnum memory)
    (positive : 0 < unit) {size : ℕ}
    (fits : unitCount unit size ≤ intMax) :
    emMallocBlength mm size = unitCount unit size := by
  rw [geometry.blength_toInt32 positive, toInt32_natCast fits]

theorem unitAddress_eq (geometry : mm.Geometry unit bnum memory)
    (index : ℤ) : mm.unitAddress index = memory + unit * index := by
  rw [unitAddress, geometry.unit_eq, geometry.memory_eq]
  cases shiftable : mm.isBshiftable with
  | true =>
      rw [if_pos rfl, geometry.shift shiftable, Int.shiftLeft_eq]
      push_cast
      rw [mul_comm]
  | false => rw [if_neg Bool.false_ne_true, mul_comm]

/-- A multiple of the unit is shifted and divided to the same index. -/
theorem unitIndex_multiple (geometry : mm.Geometry unit bnum memory)
    (positive : 0 < unit) (index : ℤ) :
    mm.unitIndex (memory + unit * index) = toInt32 index := by
  have offset : memory + unit * index - mm.memory = unit * index := by
    rw [geometry.memory_eq]
    omega
  have nonzero : (unit : ℤ) ≠ 0 := by omega
  rw [unitIndex, offset, geometry.unit_eq]
  cases shiftable : mm.isBshiftable with
  | true =>
      have divided := Int.mul_ediv_cancel_left index nonzero
      rw [if_pos rfl, Int.shiftRight_eq_div_pow]
      rw [geometry.shift shiftable] at divided ⊢
      rw [divided]
  | false =>
      rw [if_neg Bool.false_ne_true, Int.mul_tdiv_cancel_left _ nonzero]

theorem unitIndex_eq (geometry : mm.Geometry unit bnum memory)
    (positive : 0 < unit) {index : ℤ} (nonneg : 0 ≤ index)
    (fits : index ≤ intMax) :
    mm.unitIndex (memory + unit * index) = index := by
  unfold intMax at fits
  rw [geometry.unitIndex_multiple positive,
    toInt32_of_range (by omega) fits]

theorem of_assign (geometry : mm.Geometry unit bnum memory)
    (target : MeminfoPtr) (change : EmMeminfo → EmMeminfo) :
    (mm.assign target change).Geometry unit bnum memory :=
  ⟨geometry.unit_eq, geometry.bnum_eq, geometry.memory_eq, geometry.shift⟩

theorem of_mpFree (geometry : mm.Geometry unit bnum memory)
    (mpFree : EmMpool) :
    Geometry { mm with mpFree } unit bnum memory :=
  ⟨geometry.unit_eq, geometry.bnum_eq, geometry.memory_eq, geometry.shift⟩

theorem of_mpUsed (geometry : mm.Geometry unit bnum memory)
    (mpUsed : EmMpool) (memUsedBsize : ℤ) :
    Geometry { mm with memUsedBsize, mpUsed } unit bnum memory :=
  ⟨geometry.unit_eq, geometry.bnum_eq, geometry.memory_eq, geometry.shift⟩

end Geometry

/-! ## What the work on records leaves alone -/

/-- A property that depends neither on the records nor on `mp_free`. -/
structure Untouched (property : EmMemmng → Prop) : Prop where
  assign : ∀ mm target change,
    property mm → property (EmMemmng.assign mm target change)
  mpFree : ∀ mm mpFree, property mm → property { mm with mpFree }

namespace Untouched

variable {property : EmMemmng → Prop} {mm : EmMemmng}

theorem carve (untouched : Untouched property) (holds : property mm)
    {new old : MeminfoPtr} {blength : ℤ} :
    property (emMallocCarve mm new old blength) := by
  simp only [emMallocCarve]
  split
  · apply untouched.mpFree
    apply untouched.assign
    apply untouched.assign
    apply untouched.assign
    exact holds
  · apply untouched.assign
    apply untouched.assign
    apply untouched.assign
    apply untouched.assign
    exact holds

/-- One case for each of the four merges of `em_free`. -/
theorem merge (untouched : Untouched property) (holds : property mm)
    {del : MeminfoPtr} : property (emFreeMerge mm del) := by
  simp only [emFreeMerge]
  split
  · split
    · split
      · exact untouched.mpFree _ _ holds
      · apply untouched.assign
        apply untouched.assign
        apply untouched.assign
        apply untouched.assign
        exact untouched.mpFree _ _ holds
    · apply untouched.assign
      apply untouched.assign
      apply untouched.assign
      exact holds
  · split
    · apply untouched.assign
      apply untouched.assign
      exact holds
    · apply untouched.mpFree
      apply untouched.assign
      apply untouched.assign
      apply untouched.assign
      apply untouched.assign
      exact holds

theorem linkInitial (untouched : Untouched property) (holds : property mm)
    {initial : MeminfoPtr} : property (emMemmngLinkInitial mm initial) := by
  simp only [emMemmngLinkInitial]
  apply untouched.assign
  apply untouched.assign
  apply untouched.assign
  exact holds

end Untouched

theorem Geometry.untouched {unit bnum : ℕ} {memory : ℤ} :
    Untouched (fun mm => mm.Geometry unit bnum memory) where
  assign _ target change geometry := geometry.of_assign target change
  mpFree _ mpFree geometry := geometry.of_mpFree mpFree

variable {mm : EmMemmng} {allocMax : ℕ} {regions : EmMemmngRegions}
  {cells : List Cell} {used free : Finset ℤ}

/-! ## Allocation -/

/-- The search looks at every free cell. -/
theorem Chain.search_some (chain : mm.Chain allocMax regions cells used free)
    {blength address : ℤ}
    (found : emMallocSearch mm blength mm.mpFree.numUsed = some address) :
    ∃ cell, cell ∈ cells ∧ cell.ptr = .free address ∧
      blength ≤ cell.length := by
  obtain ⟨slot, bound, isAddress, fits⟩ := emMallocSearch_some found
  have live : address ∈ free := isAddress ▸ chain.freeHeld.slot_mem bound
  obtain ⟨cell, member, isFree⟩ := chain.exists_free live
  have describes := chain.described cell member
  have length := describes.length_eq (isBlock_of_free isFree)
  rw [isFree] at length
  exact ⟨cell, member, isFree, length ▸ fits⟩

theorem Chain.search_none (chain : mm.Chain allocMax regions cells used free)
    {blength : ℤ}
    (missing : emMallocSearch mm blength mm.mpFree.numUsed = none)
    {cell : Cell} (member : cell ∈ cells) (isFree : cell.ptr.isFree = true) :
    cell.length < blength := by
  have length := (chain.described cell member).length_eq
    (by simp [MeminfoPtr.isBlock, isFree])
  cases ptr_eq : cell.ptr with
  | free address =>
      obtain ⟨slot, bound, isAddress⟩ :=
        chain.freeHeld.exists_slot (chain.mem_free member ptr_eq)
      have short := emMallocSearch_none missing bound
      rw [isAddress, ← ptr_eq, length] at short
      exact short
  | _ => simp [MeminfoPtr.isFree, ptr_eq] at isFree

/-- A refused request changes no record. -/
theorem Chain.of_pool {bsize : ℤ} {mpUsed : EmMpool}
    (chain : mm.Chain allocMax regions cells used free)
    (held : mpUsed.Holds (usedParams allocMax regions) used) :
    Chain { mm with memUsedBsize := bsize, mpUsed } allocMax regions cells
      used free where
  starts := chain.starts
  ends := chain.ends
  linked := chain.linked.imp fun _ _ follows => follows.of_links rfl rfl
  described := fun cell member =>
    (chain.described cell member).of_fields rfl rfl rfl fun _ => rfl
  nodup := chain.nodup
  notNull := chain.notNull
  usedHeld := held
  used_iff := chain.used_iff
  freeHeld := chain.freeHeld
  free_iff := chain.free_iff

/-- An allocation that returns NULL. -/
structure Refused (after : EmMemmng) (allocMax : ℕ)
    (regions : EmMemmngRegions) (cells : List Cell) (used free : Finset ℤ)
    (blength : ℤ) : Prop where
  chain : after.Chain allocMax regions cells used free
  why : used.card = allocMax ∨
    ∀ cell, cell ∈ cells → cell.ptr.isFree = true → cell.length < blength

/-- An allocation from `cell`; `rest` is what stays free of it. -/
structure Granted (after : EmMemmng) (allocMax : ℕ)
    (regions : EmMemmngRegions) (cells : List Cell) (used : Finset ℤ)
    (blength : ℤ) (cell : Cell) (new : ℤ) : Prop where
  isFree : cell.ptr.isFree = true
  fits : blength ≤ cell.length
  room : used.card < allocMax
  chain : ∃ left right rest freeAfter,
    cells = left ++ cell :: right ∧
      (∀ other, other ∈ rest → other.ptr.isFree = true) ∧
      after.Chain allocMax regions
        (left ++ ⟨.used new, cell.index, blength⟩ :: (rest ++ right))
        (insert new used) freeAfter

theorem alloc_no_wait {params : PoolParams} {mp : EmMpool}
    {live : Finset ℤ} (held : mp.Holds params live) :
    (live.card = params.capacity ∧ emMpoolAllocBlockNoWait mp = (none, mp)) ∨
      ∃ address after, live.card < params.capacity ∧
        emMpoolAllocBlockNoWait mp = (some address, after) ∧
        address ∉ live ∧ after.Holds params (insert address live) := by
  rcases held.card_le.eq_or_lt with full | room
  · left
    refine ⟨full, ?_⟩
    rw [emMpoolAllocBlockNoWait, held.alloc_full full]
    rfl
  · right
    obtain ⟨address, after, called, unused, kept⟩ := held.alloc_room room
    refine ⟨address, after, room, ?_, unused, kept⟩
    rw [emMpoolAllocBlockNoWait, called]
    rfl

/-- Carving the request off a free cell that is long enough. -/
theorem Chain.grant (chain : mm.Chain allocMax regions cells used free)
    {cell : Cell} (member : cell ∈ cells) {address newAddress : ℤ}
    (isFree : cell.ptr = .free address) (unused : newAddress ∉ used)
    {blength : ℤ} (bsize : ℤ) (positive : 0 < blength)
    (fits : blength ≤ cell.length) (room : used.card < allocMax)
    {mpUsed : EmMpool}
    (held : mpUsed.Holds (usedParams allocMax regions)
      (insert newAddress used)) :
    ((emMallocCarve { mm with memUsedBsize := bsize, mpUsed }
      (.used newAddress) (.free address) blength).registered
        (.used newAddress)).Granted allocMax regions cells used blength
          cell newAddress := by
  obtain ⟨left, before, next, right, rfl⟩ :=
    chain.exists_around member (isBlock_of_free isFree)
  refine ⟨isFree_of_free isFree, fits, room, ?_⟩
  rw [← isFree]
  have split : left ++ before :: ([cell] ++ next :: right) =
      (left ++ [before]) ++ cell :: next :: right := by simp
  rcases fits.eq_or_lt with exact | longer
  · have granted := chain.grant_exact bsize isFree unused exact.symm held
    refine ⟨left ++ [before], next :: right, [], free.erase address, split,
      by simp, ?_⟩
    simpa using granted
  · have granted :=
      chain.grant_split bsize isFree unused positive longer held
    refine ⟨left ++ [before], next :: right,
      [⟨.free address, cell.index + blength, cell.length - blength⟩],
      free, split, by simp [MeminfoPtr.isFree], ?_⟩
    simpa using granted

theorem Granted.index_eq {after : EmMemmng} {blength new : ℤ} {cell : Cell}
    (granted : after.Granted allocMax regions cells used blength cell new) :
    (after.record (.used new)).memIndex = cell.index := by
  obtain ⟨left, right, rest, freeAfter, split, restFree, chain⟩ :=
    granted.chain
  exact (chain.described ⟨.used new, cell.index, blength⟩
    (by simp)).index_eq rfl

theorem Geometry.of_carve {unit bnum : ℕ} {memory : ℤ}
    (geometry : mm.Geometry unit bnum memory) (new old : MeminfoPtr)
    (blength : ℤ) :
    (emMallocCarve mm new old blength).Geometry unit bnum memory :=
  Geometry.untouched.carve geometry

/-- The manager after `blength` units were carved off the free record at
`address` for the new record at `newAddress`. -/
def granted (mm : EmMemmng) (mpUsed : EmMpool) (newAddress address : ℤ)
    (blength : ℕ) : EmMemmng :=
  (emMallocCarve { mm with memUsedBsize := mm.memUsedBsize + blength, mpUsed }
    (.used newAddress) (.free address) blength).registered (.used newAddress)

theorem malloc_missing {size count : ℕ} (nonempty : 0 < size)
    (blength : emMallocBlength mm size = count)
    (search : emMallocSearch mm count mm.mpFree.numUsed = none) :
    emMalloc mm size = (none, mm) := by
  have notEmpty : ¬ size ≤ 0 := Nat.not_le.mpr nonempty
  simp only [emMalloc, emMallocUnlocked, notEmpty, ↓reduceIte, blength, search]

theorem malloc_full {size count : ℕ} {address : ℤ} {mpUsed : EmMpool}
    (nonempty : 0 < size) (blength : emMallocBlength mm size = count)
    (search : emMallocSearch mm count mm.mpFree.numUsed = some address)
    (taken : emMpoolAllocBlockNoWait mm.mpUsed = (none, mpUsed)) :
    emMalloc mm size =
      (none, { mm with memUsedBsize := mm.memUsedBsize + count, mpUsed }) := by
  have notEmpty : ¬ size ≤ 0 := Nat.not_le.mpr nonempty
  simp only [emMalloc, emMallocUnlocked, notEmpty, ↓reduceIte, blength, search,
    taken]

theorem malloc_granted {size count : ℕ} {address newAddress : ℤ}
    {mpUsed : EmMpool} (nonempty : 0 < size)
    (blength : emMallocBlength mm size = count)
    (search : emMallocSearch mm count mm.mpFree.numUsed = some address)
    (taken : emMpoolAllocBlockNoWait mm.mpUsed = (some newAddress, mpUsed)) :
    emMalloc mm size =
      (some ((mm.granted mpUsed newAddress address count).unitAddress
          ((mm.granted mpUsed newAddress address count).record
            (.used newAddress)).memIndex),
        mm.granted mpUsed newAddress address count) := by
  have notEmpty : ¬ size ≤ 0 := Nat.not_le.mpr nonempty
  simp only [emMalloc, emMallocUnlocked, notEmpty, ↓reduceIte, blength, search,
    taken, registered, granted]

/-- The three ends of `_em_malloc`: no free record is long enough, there is no
record left for a taken range, or the request is carved off. -/
theorem Chain.malloc_cases
    (chain : mm.Chain allocMax regions cells used free)
    {unit bnum : ℕ} {memory : ℤ} (geometry : mm.Geometry unit bnum memory)
    (positive : 0 < unit) {size : ℕ} (nonempty : 0 < size)
    (fits : unitCount unit size ≤ intMax) :
    (emMallocSearch mm (unitCount unit size) mm.mpFree.numUsed = none ∧
        emMalloc mm size = (none, mm)) ∨
      ∃ address,
        emMallocSearch mm (unitCount unit size) mm.mpFree.numUsed =
          some address ∧
        ((used.card = allocMax ∧ emMalloc mm size = (none,
            { mm with memUsedBsize := mm.memUsedBsize + unitCount unit size,
                      mpUsed := mm.mpUsed })) ∨
          ∃ newAddress mpUsed, used.card < allocMax ∧ newAddress ∉ used ∧
            mpUsed.Holds (usedParams allocMax regions)
              (insert newAddress used) ∧
            emMalloc mm size =
              (some ((mm.granted mpUsed newAddress address
                  (unitCount unit size)).unitAddress
                ((mm.granted mpUsed newAddress address
                  (unitCount unit size)).record (.used newAddress)).memIndex),
                mm.granted mpUsed newAddress address
                  (unitCount unit size))) := by
  have blength := geometry.blength_eq positive fits
  cases search : emMallocSearch mm (unitCount unit size)
      mm.mpFree.numUsed with
  | none =>
      left
      exact ⟨rfl, malloc_missing nonempty blength search⟩
  | some address =>
      right
      refine ⟨address, rfl, ?_⟩
      rcases alloc_no_wait chain.usedHeld with full | room
      · obtain ⟨full, taken⟩ := full
        left
        exact ⟨full, malloc_full nonempty blength search taken⟩
      · obtain ⟨newAddress, mpUsed, room, taken, unused, held⟩ := room
        right
        exact ⟨newAddress, mpUsed, room, unused, held,
          malloc_granted nonempty blength search taken⟩

theorem Geometry.of_granted {unit bnum : ℕ} {memory : ℤ}
    (geometry : mm.Geometry unit bnum memory) (mpUsed : EmMpool)
    (newAddress address : ℤ) (blength : ℕ) :
    (mm.granted mpUsed newAddress address blength).Geometry unit bnum
      memory := by
  have handed : EmMemmng.Geometry
      { mm with memUsedBsize := mm.memUsedBsize + blength, mpUsed } unit bnum
      memory := geometry.of_mpUsed _ _
  have carved := handed.of_carve (.used newAddress) (.free address) blength
  exact ⟨carved.unit_eq, carved.bnum_eq, carved.memory_eq, carved.shift⟩

/-- `em_malloc` on a well-formed manager. -/
theorem Chain.malloc (chain : mm.Chain allocMax regions cells used free)
    {unit bnum : ℕ} {memory : ℤ} (geometry : mm.Geometry unit bnum memory)
    (positive : 0 < unit) {size : ℕ} (nonempty : 0 < size)
    (fits : unitCount unit size ≤ intMax) :
    (emMalloc mm size).2.Geometry unit bnum memory ∧
      (((emMalloc mm size).1 = none ∧
          Refused (emMalloc mm size).2 allocMax regions cells used free
            (unitCount unit size)) ∨
        ∃ cell new,
          (emMalloc mm size).1 = some (memory + unit * cell.index) ∧
            (emMalloc mm size).2.Granted allocMax regions cells used
              (unitCount unit size) cell new) := by
  have needed : (0 : ℤ) < unitCount unit size :=
    Int.natCast_pos.mpr (unitCount_pos positive nonempty)
  rcases chain.malloc_cases geometry positive nonempty fits with none | found
  · obtain ⟨search, called⟩ := none
    rw [called]
    refine ⟨geometry, .inl ⟨rfl, chain, .inr ?_⟩⟩
    intro cell member isFree
    exact chain.search_none search member isFree
  · obtain ⟨address, search, full | room⟩ := found
    · obtain ⟨full, called⟩ := full
      rw [called]
      exact ⟨geometry.of_mpUsed _ _,
        .inl ⟨rfl, chain.of_pool chain.usedHeld, .inl full⟩⟩
    · obtain ⟨newAddress, mpUsed, room, unused, held, called⟩ := room
      obtain ⟨cell, member, isFree, long⟩ := chain.search_some search
      have granted := chain.grant member isFree unused
        (mm.memUsedBsize + unitCount unit size) needed long room held
      have final := geometry.of_granted mpUsed newAddress address
        (unitCount unit size)
      rw [called, final.unitAddress_eq]
      refine ⟨final, .inr ⟨cell, newAddress, ?_, granted⟩⟩
      rw [← granted.index_eq]
      rfl

/-! ## Release -/

theorem Cell.exists_free_address {cell : Cell}
    (isFree : cell.ptr.isFree = true) :
    ∃ address, cell.ptr = .free address := by
  cases ptr_eq : cell.ptr with
  | free address => exact ⟨address, rfl⟩
  | _ => simp [MeminfoPtr.isFree, ptr_eq] at isFree

/-- What a release comes to in every case: the released cell and its free
neighbours, `front` and `rear`, become one free cell between taken ones. -/
structure Coalesced (mm after : EmMemmng) (allocMax : ℕ)
    (regions : EmMemmngRegions) (usedAfter : Finset ℤ) (left : List Cell)
    (first : Cell) (front : List Cell) (cell : Cell) (rear : List Cell)
    (last : Cell) (right : List Cell) (merged : Cell) : Prop where
  frontFree : ∀ other, other ∈ front → other.ptr.isFree = true
  rearFree : ∀ other, other ∈ rear → other.ptr.isFree = true
  firstTaken : first.ptr.isFree = false
  lastTaken : last.ptr.isFree = false
  mergedFree : merged.ptr.isFree = true
  writes : Merged mm after left first merged last right
  leaves : ∃ removed, (front ++ cell :: rear).getLast? = some removed ∧
    Leaves mm after cell removed merged last
  chain : ∃ freeAfter, after.Chain allocMax regions
    (left ++ first :: ([merged] ++ last :: right)) usedAfter freeAfter

/-- The taken cells that remain are the old ones without the released one. -/
theorem Coalesced.filter_taken {after : EmMemmng} {usedAfter : Finset ℤ}
    {left front rear right : List Cell} {first cell last merged : Cell}
    (coalesced : Coalesced mm after allocMax regions usedAfter left first
      front cell rear last right merged) :
    (left ++ first :: ([merged] ++ last :: right)).filter
        (fun cell => cell.ptr.isTaken) =
      ((left ++ first :: front) ++ (rear ++ last :: right)).filter
        (fun cell => cell.ptr.isTaken) := by
  have freeTaken : ∀ {other : Cell}, other.ptr.isFree = true →
      other.ptr.isTaken = false := by
    intro other isFree
    obtain ⟨address, isAddress⟩ := Cell.exists_free_address isFree
    rw [isAddress]
    rfl
  have none_taken : ∀ {cells : List Cell},
      (∀ other, other ∈ cells → other.ptr.isFree = true) →
        cells.filter (fun cell => cell.ptr.isTaken) = [] := by
    intro cells allFree
    apply List.filter_eq_nil_iff.mpr
    intro other member taken
    exact Bool.false_ne_true ((freeTaken (allFree other member)).symm.trans
      taken)
  simp [List.filter_cons, none_taken coalesced.frontFree,
    none_taken coalesced.rearFree, freeTaken coalesced.mergedFree]

/-- The pool of the free records has room for the one that a range between
taken ones needs. -/
theorem Chain.free_alloc {left right : List Cell} {before cell next : Cell}
    {address : ℤ}
    (chain : mm.Chain allocMax regions
      (left ++ before :: ([cell] ++ next :: right)) used free)
    (isUsed : cell.ptr = .used address)
    (beforeTaken : before.ptr.isFree = false)
    (nextTaken : next.ptr.isFree = false) :
    ∃ newAddress mpFree,
      emMpoolAllocBlockNoWait mm.mpFree = (some newAddress, mpFree) ∧
        newAddress ∉ free ∧
        mpFree.Holds (freeParams allocMax regions)
          (insert newAddress free) := by
  rcases alloc_no_wait chain.freeHeld with full | room
  · have room := chain.free_room isUsed beforeTaken nextTaken
    have bound := chain.usedHeld.card_le
    have full := full.1
    simp only [usedParams, freeParams] at bound full
    omega
  · obtain ⟨newAddress, mpFree, _, taken, unused, freeHeld⟩ := room
    exact ⟨newAddress, mpFree, taken, unused, freeHeld⟩

/-- The four cases of a release. -/
theorem Chain.release {left right : List Cell} {before cell next : Cell}
    {address : ℤ}
    (chain : mm.Chain allocMax regions
      (left ++ before :: ([cell] ++ next :: right)) used free)
    (isUsed : cell.ptr = .used address)
    (back : (mm.record cell.ptr).backMeminfo = before.ptr) (bsize : ℤ) :
    ∃ outer first front rear last beyond merged,
      left ++ before :: ([cell] ++ next :: right) =
        outer ++ first :: (front ++ cell :: (rear ++ last :: beyond)) ∧
      Coalesced mm (released (emFreeMerge mm cell.ptr)
          (emMpoolFreeRecord mm.mpUsed cell.ptr) bsize) allocMax regions
        (used.erase address) outer first front cell rear last beyond
        merged := by
  have live : address ∈ used := chain.mem_used (by simp) isUsed
  have usedHeld := chain.usedHeld.freeRecord (.inl isUsed) live
  generalize emMpoolFreeRecord mm.mpUsed cell.ptr = mpUsed at usedHeld ⊢
  cases beforeFree : before.ptr.isFree with
  | false =>
      cases nextFree : next.ptr.isFree with
      | false =>
          obtain ⟨newAddress, mpFree, taken, unused, freeHeld⟩ :=
            chain.free_alloc isUsed beforeFree nextFree
          obtain ⟨writes, leaves, same⟩ := chain.writes_alone bsize isUsed
            back beforeFree nextFree taken unused
          have kept := chain.release_alone bsize isUsed beforeFree nextFree
            unused writes (same ▸ freeHeld) usedHeld
          exact ⟨left, before, [], [], next, right,
            ⟨.free newAddress, cell.index, cell.length⟩, rfl, by simp,
            by simp, beforeFree, nextFree, rfl, writes, ⟨cell, rfl, leaves⟩,
            _, kept⟩
      | true =>
          obtain ⟨nextAddress, isNext⟩ := Cell.exists_free_address nextFree
          have shape : left ++ before :: ([cell] ++ next :: right) =
              (left ++ before :: [cell]) ++ next :: right := by simp
          obtain ⟨last, right, rfl⟩ :=
            chain.exists_beyond shape (isBlock_of_free isNext)
          have beyond : mm.Follows next last :=
            chain.follows (left ++ [before, cell]) right (by simp)
          obtain ⟨writes, leaves, same⟩ := @Chain.writes_into_next _ _ _ _ _
            left right before cell next address bsize mpUsed last chain isUsed
            back beforeFree nextAddress isNext
          have kept := @Chain.release_into_next _ _ _ _ _ left right before
            cell next address bsize mpUsed last chain isUsed beforeFree
            nextAddress isNext writes (same ▸ chain.freeHeld) usedHeld
          exact ⟨left, before, [], [next], last, right,
            ⟨next.ptr, cell.index, next.length + cell.length⟩, by simp,
            by simp, by simp [nextFree], beforeFree, beyond.apart nextFree,
            nextFree, writes, ⟨next, rfl, leaves⟩, _, kept⟩
  | true =>
      obtain ⟨beforeAddress, isBefore⟩ := Cell.exists_free_address beforeFree
      obtain ⟨left, first, rfl⟩ :=
        chain.exists_before rfl (isBlock_of_free isBefore)
      have shape : (left ++ [first]) ++ before :: ([cell] ++ next :: right) =
          left ++ first :: ([before, cell] ++ next :: right) := by simp
      rw [shape] at chain ⊢
      have entered : mm.Follows first before := chain.follows left _ rfl
      have firstTaken := entered.left_taken beforeFree
      cases nextFree : next.ptr.isFree with
      | false =>
          obtain ⟨writes, leaves, same⟩ := @Chain.writes_into_before _ _ _ _ _
            left right before cell next address bsize mpUsed first chain
            isUsed back beforeAddress isBefore nextFree
          have kept := chain.release_into_before bsize isUsed isBefore
            firstTaken nextFree writes (same ▸ chain.freeHeld) usedHeld
          exact ⟨left, first, [before], [], next, right,
            ⟨before.ptr, before.index, before.length + cell.length⟩, by simp,
            by simp [beforeFree], by simp, firstTaken, nextFree, beforeFree,
            writes, ⟨cell, rfl, leaves⟩, _, kept⟩
      | true =>
          obtain ⟨nextAddress, isNext⟩ := Cell.exists_free_address nextFree
          have place : left ++ first :: ([before, cell] ++ next :: right) =
              (left ++ [first, before, cell]) ++ next :: right := by simp
          obtain ⟨last, right, rfl⟩ :=
            chain.exists_beyond place (isBlock_of_free isNext)
          have between : left ++ first ::
              ([before, cell] ++ next :: last :: right) =
                left ++ first ::
                  ([before, cell, next] ++ last :: right) := by simp
          rw [between] at chain ⊢
          have beyond : mm.Follows next last :=
            chain.follows (left ++ [first, before, cell]) right (by simp)
          obtain ⟨writes, leaves, same⟩ := @Chain.writes_between _ _ _ _ _
            left right before cell next address bsize mpUsed first last chain
            isUsed back beforeAddress nextAddress isBefore isNext
          have freeHeld := chain.freeHeld.freeRecord (.inr isNext)
            (chain.mem_free (by simp) isNext)
          have kept := chain.release_between bsize isUsed isBefore isNext
            firstTaken writes (same ▸ freeHeld) usedHeld
          exact ⟨left, first, [before], [next], last, right,
            ⟨before.ptr, before.index,
              before.length + cell.length + next.length⟩, by simp,
            by simp [beforeFree], by simp [nextFree], firstTaken,
            beyond.apart nextFree, beforeFree, writes, ⟨next, rfl, leaves⟩,
            _, kept⟩

theorem Geometry.of_merge {unit bnum : ℕ} {memory : ℤ}
    (geometry : mm.Geometry unit bnum memory) (del : MeminfoPtr) :
    (emFreeMerge mm del).Geometry unit bnum memory :=
  Geometry.untouched.merge geometry

theorem emFreeMerge_mpUsed (del : MeminfoPtr) :
    (emFreeMerge mm del).mpUsed = mm.mpUsed :=
  @Untouched.merge (fun after => after.mpUsed = mm.mpUsed) _
    ⟨fun _ _ _ same => same, fun _ _ same => same⟩ rfl _

/-- Neighbours on the walk along `next_meminfo` from the first sentinel to the
last. -/
inductive Precedes (mm : EmMemmng) : MeminfoPtr → MeminfoPtr → Prop where
  | first : Precedes mm .first (mm.record .first).nextMeminfo
  | next {left right : MeminfoPtr} : Precedes mm left right →
      right ≠ .last → Precedes mm right (mm.record right).nextMeminfo

theorem Precedes.of_first {left right : MeminfoPtr} (isFirst : left = .first)
    (next : (mm.record .first).nextMeminfo = right) :
    mm.Precedes left right := by
  subst isFirst next
  exact .first

/-- The walk meets the cells one after the other. -/
theorem Chain.exists_neighbours
    (chain : mm.Chain allocMax regions cells used free)
    {left right : MeminfoPtr} (precedes : mm.Precedes left right) :
    ∃ front before next rear, cells = front ++ before :: next :: rear ∧
      before.ptr = left ∧ next.ptr = right := by
  induction precedes with
  | first =>
      have starts := chain.starts
      have ends := chain.ends
      have linked := chain.linked
      match cells, starts, ends, linked with
      | first :: next :: rear, starts, ends, linked =>
          cases Option.some.inj starts
          have follows := (List.isChain_cons_cons.mp linked).1
          exact ⟨[], firstCell, next, rear, rfl, rfl, follows.next_eq.symm⟩
      | [first], starts, ends, linked =>
          cases Option.some.inj starts
          have same := congrArg Cell.ptr (Option.some.inj ends)
          exact absurd same (by simp [firstCell, lastCell])
  | next precedes notLast induction =>
      obtain ⟨front, before, next, rear, split, isLeft, isRight⟩ := induction
      have ends := chain.ends
      cases rear with
      | nil =>
          have place : cells = (front ++ [before]) ++ [next] := by simp [split]
          rw [place, List.getLast?_append_cons, List.getLast?_singleton] at ends
          have same := congrArg Cell.ptr (Option.some.inj ends)
          exact absurd (isRight.symm.trans same) notLast
      | cons beyond rear =>
          have place : cells =
              (front ++ [before]) ++ next :: beyond :: rear := by
            simp [split]
          have follows := chain.follows (front ++ [before]) rear place
          refine ⟨front ++ [before], next, beyond, rear, place, isRight, ?_⟩
          rw [← isRight]
          exact follows.next_eq.symm

theorem Chain.eq_firstCell (chain : mm.Chain allocMax regions cells used free)
    {cell : Cell} (member : cell ∈ cells) (isFirst : cell.ptr = .first) :
    cell = firstCell :=
  List.inj_on_of_nodup_map chain.nodup member
    (List.mem_of_mem_head? chain.starts) isFirst

theorem Chain.eq_lastCell (chain : mm.Chain allocMax regions cells used free)
    {cell : Cell} (member : cell ∈ cells) (isLast : cell.ptr = .last) :
    cell = lastCell mm.memTotalBnum :=
  List.inj_on_of_nodup_map chain.nodup member
    (List.mem_of_mem_getLast? chain.ends) isLast

/-- Every unit of the arena belongs to a block. -/
theorem Chain.exists_block (chain : mm.Chain allocMax regions cells used free)
    {index : ℤ} (nonneg : 0 ≤ index) (below : index < mm.memTotalBnum) :
    ∃ left cell right, cells = left ++ cell :: right ∧
      cell.ptr.isBlock = true ∧ cell.index ≤ index ∧
      index < cell.index + cell.length := by
  obtain ⟨front, isLast⟩ := List.getLast?_eq_some_iff.mp chain.ends
  have touching : (front ++ [lastCell mm.memTotalBnum]).IsChain
      (Touches Cell.index Cell.length) := by
    rw [← isLast]
    exact chain.linked.imp fun _ _ follows => follows.touch
  have lower : ∀ first,
      (front ++ [lastCell mm.memTotalBnum]).head? = some first →
        first.index ≤ index := by
    intro first isFirst
    rw [← isLast, chain.starts] at isFirst
    cases Option.some.inj isFirst
    exact nonneg
  obtain ⟨before, cell, beyond, split, starts, stops⟩ :=
    exists_covering touching lower below
  have place : cells = before ++ cell :: (beyond ++ [lastCell mm.memTotalBnum])
      := by simp [isLast, split]
  refine ⟨before, cell, _, place, ?_, starts, stops⟩
  have member : cell ∈ cells := by simp [place]
  cases ptr_eq : cell.ptr with
  | null => exact absurd (ptr_eq ▸ List.mem_map_of_mem member) chain.notNull
  | first =>
      rw [chain.eq_firstCell member ptr_eq] at starts stops
      simp only [firstCell] at starts stops
      omega
  | last =>
      rw [chain.eq_lastCell member ptr_eq] at starts stops
      simp only [lastCell] at starts stops
      omega
  | used address => rfl
  | free address => rfl

theorem Chain.within (chain : mm.Chain allocMax regions cells used free)
    {cell : Cell} (member : cell ∈ cells) (block : cell.ptr.isBlock = true) :
    0 ≤ cell.index ∧ cell.index + cell.length ≤ mm.memTotalBnum := by
  have ordered := chain.ordered
  have starts := chain.starts
  constructor
  · cases cells with
    | nil => cases member
    | cons first rest =>
        cases Option.some.inj starts
        rcases List.mem_cons.mp member with isFirst | later
        · rw [isFirst] at block
          exact absurd block Bool.false_ne_true
        · exact (List.pairwise_cons.mp ordered).1 cell later
  · obtain ⟨front, isLast⟩ := List.getLast?_eq_some_iff.mp chain.ends
    rw [isLast] at ordered member
    rcases List.mem_append.mp member with earlier | atEnd
    · exact (List.pairwise_append.mp ordered).2.2 cell earlier
        (lastCell mm.memTotalBnum) (by simp)
    · rw [List.mem_singleton.mp atEnd] at block
      exact absurd block Bool.false_ne_true

/-- `minfo_ptr` finds the record of a taken cell by its address. -/
theorem Chain.entry (chain : mm.Chain allocMax regions cells used free)
    {unit bnum : ℕ} {memory : ℤ} (geometry : mm.Geometry unit bnum memory)
    (positive : 0 < unit) (representable : bnum ≤ intMax)
    {cell : Cell} (member : cell ∈ cells)
    (taken : cell.ptr.isTaken = true) :
    mm.minfoPtr (mm.unitIndex (memory + unit * cell.index)) = cell.ptr := by
  have describes := chain.described cell member
  obtain ⟨nonneg, below⟩ := chain.within member
    (by simp [MeminfoPtr.isBlock, taken])
  have extent := describes.nonneg
  rw [geometry.bnum_eq] at below
  have bound : (bnum : ℤ) ≤ intMax := Int.ofNat_le.mpr representable
  have index_le : cell.index ≤ bnum := by omega
  rw [geometry.unitIndex_eq positive nonneg (index_le.trans bound)]
  exact describes.table taken

/-- `em_free` of the range of a taken cell whose back link is right. -/
theorem Chain.freed (chain : mm.Chain allocMax regions cells used free)
    {unit bnum : ℕ} {memory : ℤ} (geometry : mm.Geometry unit bnum memory)
    (positive : 0 < unit) (representable : bnum ≤ intMax)
    {cell : Cell} (member : cell ∈ cells) {address : ℤ}
    (isUsed : cell.ptr = .used address)
    (linked : mm.Precedes (mm.record cell.ptr).backMeminfo cell.ptr) :
    (emFree mm (memory + unit * cell.index)).Geometry unit bnum memory ∧
      ∃ remaining freeAfter left right,
        cells = left ++ cell :: right ∧
          (emFree mm (memory + unit * cell.index)).Chain allocMax regions
            remaining (used.erase address) freeAfter ∧
          remaining.filter (fun cell => cell.ptr.isTaken) =
            (left ++ right).filter (fun cell => cell.ptr.isTaken) := by
  have block := isBlock_of_used isUsed
  have taken : cell.ptr.isTaken = true := by
    rw [isUsed]
    rfl
  have entry := chain.entry geometry positive representable member taken
  obtain ⟨front, before, same, rear, split, isBack, isCell⟩ :=
    chain.exists_neighbours linked
  have found : same = cell :=
    List.inj_on_of_nodup_map chain.nodup (by simp [split]) member isCell
  subst found
  have place : cells = (front ++ [before]) ++ same :: rear := by simp [split]
  obtain ⟨next, right, rfl⟩ := chain.exists_beyond place block
  rw [split] at chain
  have called : emFree mm (memory + unit * same.index) =
      released (emFreeMerge mm same.ptr)
        (emMpoolFreeRecord mm.mpUsed same.ptr)
        ((emFreeMerge mm same.ptr).memUsedBsize -
          ((emFreeMerge mm same.ptr).record same.ptr).memLength) := by
    simp only [emFree, entry, emFreeMerge_mpUsed, released]
  rw [called]
  refine ⟨(geometry.of_merge same.ptr).of_mpUsed _ _, ?_⟩
  obtain ⟨outer, first, near, far, last, beyond, merged, apart, coalesced⟩ :=
    Chain.release chain isUsed isBack.symm
      ((emFreeMerge mm same.ptr).memUsedBsize -
        ((emFreeMerge mm same.ptr).record same.ptr).memLength)
  obtain ⟨freeAfter, kept⟩ := coalesced.chain
  refine ⟨_, freeAfter, outer ++ first :: near, far ++ last :: beyond, ?_,
    kept, coalesced.filter_taken⟩
  have split' := split.trans apart
  simpa using split'

/-! ## Creation -/

/-- The sizes of the pools do not overflow: `em_mpool_calc_memsize` for a
buffer of the caller, the request to `malloc` otherwise. -/
def PoolsFit (memory : Option ℤ) (allocMax : ℕ) : Prop :=
  match memory with
  | some _ =>
      (sizeofPtr + sizeofBlkinfo + sizeofMeminfo + sizeofPtr) * allocMax ≤
        intMax
  | none => sizeofMeminfo * allocMax < 4294967296

instance : (memory : Option ℤ) → Decidable (PoolsFit memory allocMax)
  | some _ => inferInstanceAs (Decidable (_ ≤ intMax))
  | none => inferInstanceAs (Decidable (_ < 4294967296))

theorem Geometry.of_linkInitial {unit bnum : ℕ} {memory : ℤ}
    (geometry : mm.Geometry unit bnum memory) (initial : MeminfoPtr) :
    (emMemmngLinkInitial mm initial).Geometry unit bnum memory :=
  Geometry.untouched.linkInitial geometry

theorem linkInitial_chain {address : ℤ} {bnum : ℕ}
    (bnum_eq : mm.memTotalBnum = bnum) (nonempty : 0 < bnum)
    (usedHeld : mm.mpUsed.Holds (usedParams allocMax regions) ∅)
    (freeHeld : mm.mpFree.Holds (freeParams allocMax regions) {address}) :
    (emMemmngLinkInitial mm (.free address)).Chain allocMax regions
      [firstCell, ⟨.free address, 0, bnum⟩, lastCell bnum] ∅ {address} := by
  subst bnum_eq
  have first : (emMemmngLinkInitial mm (.free address)).record .first =
      ⟨-1, 0, true, .free address, .null⟩ := by
    simp [emMemmngLinkInitial]
  have last : (emMemmngLinkInitial mm (.free address)).record .last =
      ⟨-2, 0, true, .null, .free address⟩ := by
    simp [emMemmngLinkInitial]
  have initial : (emMemmngLinkInitial mm (.free address)).record
      (.free address) = ⟨0, mm.memTotalBnum, false, .last, .first⟩ := by
    simp [emMemmngLinkInitial]
  have positive : (0 : ℤ) < mm.memTotalBnum := Int.natCast_pos.mpr nonempty
  constructor
  · rfl
  · rfl
  · apply List.isChain_cons_cons.mpr
    constructor
    · constructor
      · exact congrArg EmMeminfo.nextMeminfo first
      · intro _
        exact congrArg EmMeminfo.backMeminfo initial
      · rfl
      · intro isFree
        exact absurd isFree Bool.false_ne_true
    · apply List.isChain_cons_cons.mpr
      refine ⟨?_, .singleton _⟩
      constructor
      · exact congrArg EmMeminfo.nextMeminfo initial
      · intro isFree
        exact absurd isFree Bool.false_ne_true
      · exact Int.zero_add _
      · intro _
        rfl
  · intro cell member
    simp only [List.mem_cons, List.not_mem_nil, or_false] at member
    rcases member with rfl | rfl | rfl
    · exact .of_sentinel rfl (congrArg EmMeminfo.isUsed first)
    · apply Describes.of_free rfl
      · exact congrArg EmMeminfo.isUsed initial
      · exact congrArg EmMeminfo.memIndex initial
      · exact congrArg EmMeminfo.memLength initial
      · exact positive
    · exact .of_sentinel rfl (congrArg EmMeminfo.isUsed last)
  · simp [firstCell, lastCell]
  · simp [firstCell, lastCell]
  · exact usedHeld
  · intro other
    simp [firstCell, lastCell]
  · exact freeHeld
  · intro other
    simp [firstCell, lastCell]

theorem PoolsFit.distinct {memory : Option ℤ} (fit : PoolsFit memory allocMax)
    (rawdata : ℤ) : PoolParams.Distinct ⟨allocMax, sizeofMeminfo, rawdata⟩ := by
  refine ⟨Nat.zero_lt_succ 31, ?_⟩
  cases memory with
  | none => exact fit
  | some memory =>
      simp only [PoolsFit, sizeofPtr, sizeofBlkinfo, sizeofMeminfo, intMax] at *
      omega

/-- Both pools start without live records. -/
theorem emMemmngPools_holds (mm : EmMemmng) {memory : Option ℤ}
    (nonempty : 0 < allocMax) (representable : allocMax ≤ intMax)
    (fit : PoolsFit memory allocMax) (regions : EmMemmngRegions) :
    ∃ placed : EmMemmngRegions,
      (emMemmngPools mm allocMax memory regions).mpUsed.Holds
          (usedParams allocMax placed) ∅ ∧
        (emMemmngPools mm allocMax memory regions).mpFree.Holds
          (freeParams allocMax placed) ∅ := by
  cases memory with
  | none =>
      exact ⟨regions,
        emMpoolCreate_holds _ nonempty representable (fit.distinct _),
        emMpoolCreate_holds _ nonempty representable (fit.distinct _)⟩
  | some memory =>
      obtain ⟨rawUsed, usedHeld⟩ := emMpoolCreateWithMem2_holds mm.mpUsed
        memory nonempty representable fit.distinct
      obtain ⟨rawFree, freeHeld⟩ := emMpoolCreateWithMem2_holds mm.mpFree
        (memory + emMpoolCalcMemsize sizeofMeminfo allocMax) nonempty
        representable fit.distinct
      exact ⟨⟨rawUsed, rawFree, 0⟩, usedHeld, freeHeld⟩

theorem emMemmngPools_geometry (mm : EmMemmng) (allocMax : ℕ)
    (regions : EmMemmngRegions) (memory : Option ℤ) {unit bnum : ℕ}
    (unit_eq : mm.memUnitSize = unit) (bnum_eq : mm.memTotalBnum = bnum)
    (shift : mm.isBshiftable = true → unit = 2 ^ mm.memUnitBshift) :
    (emMemmngPools mm allocMax memory regions).Geometry unit bnum
      (emMemmngPools mm allocMax memory regions).memory := by
  cases memory with
  | none => exact ⟨unit_eq, bnum_eq, rfl, shift⟩
  | some memory => exact ⟨unit_eq, bnum_eq, rfl, shift⟩

theorem shift_of_and {unit : ℕ}
    (single : (!decide (unit ≤ 0 ∨ unit &&& (unit - 1) ≠ 0)) = true) :
    unit = 2 ^ unit.log2 := by
  simp only [Bool.not_eq_true', decide_eq_false_iff_not, not_or,
    not_not] at single
  obtain ⟨positive, noBits⟩ := single
  have power := (Nat.and_sub_one_eq_zero_iff_isPowerOfTwo (by omega)).mp noBits
  obtain ⟨exponent, rfl⟩ := power
  rw [Nat.log2_two_pow]

/-- What `em_memmng_create` sets before it lays out the pools. -/
def opened (mm : EmMemmng) (unit bnum : ℕ) : EmMemmng :=
  { mm with
    isBshiftable := !decide (unit ≤ 0 ∨ unit &&& (unit - 1) ≠ 0)
    memTotalSize := unit * bnum
    memUnitSize := unit
    memTotalBnum := bnum
    memUnitBshift := unit.log2
    memUsedBsize := 0 }

theorem Geometry.of_opened {origin : Option ℤ} {regions : EmMemmngRegions}
    {unit bnum : ℕ} :
    (emMemmngPools (mm.opened unit bnum) allocMax origin regions).Geometry
      unit bnum
      (emMemmngPools (mm.opened unit bnum) allocMax origin regions).memory :=
  emMemmngPools_geometry _ allocMax regions origin rfl rfl shift_of_and

/-- After the pools `em_memmng_create` takes the first record and links it. -/
theorem Untouched.create {property : EmMemmng → Prop}
    (untouched : Untouched property) {origin : Option ℤ}
    {regions : EmMemmngRegions} {unit bnum : ℕ}
    (holds : property
      (emMemmngPools (mm.opened unit bnum) allocMax origin regions)) :
    property (emMemmngCreate mm unit bnum allocMax origin regions) := by
  unfold emMemmngCreate
  dsimp only
  split
  · exact untouched.linkInitial (untouched.mpFree _ _ holds)
  · exact untouched.mpFree _ _ holds

theorem emMemmngCreate_memory {origin : Option ℤ} {regions : EmMemmngRegions}
    {unit bnum : ℕ} :
    (emMemmngCreate mm unit bnum allocMax origin regions).memory =
      (emMemmngPools (mm.opened unit bnum) allocMax origin regions).memory :=
  @Untouched.create _ _ (fun after => after.memory = _)
    ⟨fun _ _ _ same => same, fun _ _ same => same⟩ _ _ _ _ rfl

theorem emMemmngCreate_mpUsed {origin : Option ℤ} {regions : EmMemmngRegions}
    {unit bnum : ℕ} :
    (emMemmngCreate mm unit bnum allocMax origin regions).mpUsed =
      (emMemmngPools (mm.opened unit bnum) allocMax origin regions).mpUsed :=
  @Untouched.create _ _ (fun after => after.mpUsed = _)
    ⟨fun _ _ _ same => same, fun _ _ same => same⟩ _ _ _ _ rfl

theorem Geometry.of_create {origin : Option ℤ} {regions : EmMemmngRegions}
    {unit bnum : ℕ} :
    (emMemmngCreate mm unit bnum allocMax origin regions).Geometry unit bnum
      (emMemmngCreate mm unit bnum allocMax origin regions).memory := by
  rw [emMemmngCreate_memory]
  exact Geometry.untouched.create Geometry.of_opened

/-- `em_memmng_create` links one free record between the sentinels. -/
theorem emMemmngCreate_linked {unit bnum : ℕ} {memory : Option ℤ}
    (nonempty : 0 < allocMax) (representable : allocMax ≤ intMax)
    (fit : PoolsFit memory allocMax) (regions : EmMemmngRegions) :
    ∃ opened placed address,
      emMemmngCreate mm unit bnum allocMax memory regions =
          emMemmngLinkInitial opened (.free address) ∧
        opened.Geometry unit bnum opened.memory ∧
        opened.mpUsed.Holds (usedParams allocMax placed) ∅ ∧
        opened.mpFree.Holds (freeParams allocMax placed) {address} := by
  obtain ⟨placed, usedHeld, freeHeld⟩ := emMemmngPools_holds
    (mm.opened unit bnum) nonempty representable fit regions
  have geometry := @Geometry.of_opened mm allocMax memory regions unit bnum
  rcases alloc_no_wait freeHeld with full | room
  · have noBlocks : 0 = allocMax := full.1
    omega
  · obtain ⟨address, mpFree, _, taken, _, kept⟩ := room
    refine ⟨{ emMemmngPools (mm.opened unit bnum) allocMax memory regions with
      mpFree }, placed, address, ?_, geometry.of_mpFree mpFree, usedHeld, kept⟩
    unfold opened at taken
    simp only [emMemmngCreate]
    rw [taken]
    rfl

/-- The manager of `em_memmng_create`: one free record covers the arena. -/
theorem emMemmngCreate_chain {unit bnum : ℕ} {memory : Option ℤ}
    (blocks : 0 < bnum) (nonempty : 0 < allocMax)
    (representable : allocMax ≤ intMax) (fit : PoolsFit memory allocMax)
    (regions : EmMemmngRegions) :
    (emMemmngCreate mm unit bnum allocMax memory regions).Geometry unit bnum
        (emMemmngCreate mm unit bnum allocMax memory regions).memory ∧
      ∃ placed address,
        (emMemmngCreate mm unit bnum allocMax memory regions).Chain allocMax
          placed [firstCell, ⟨.free address, 0, bnum⟩, lastCell bnum] ∅
            {address} := by
  obtain ⟨opened, placed, address, created, geometry, usedHeld, freeHeld⟩ :=
    @emMemmngCreate_linked mm allocMax unit bnum memory nonempty representable
      fit regions
  rw [created]
  constructor
  · exact geometry.of_linkInitial (.free address)
  · exact ⟨placed, address,
      linkInitial_chain geometry.bnum_eq blocks usedHeld freeHeld⟩

end EmMemmng

end EmbeddedMiddle
