import EmbeddedMiddle.MallocArena

/-!
# Reverse links of the block allocator

The well-formed manager with links in both directions.  `em_free` keeps it
in all four merge cases.  `_em_malloc` keeps it unless it takes a free record
whole: the successor of that record is then not told of the new one.
-/

namespace EmbeddedMiddle

open Foundation

namespace EmMemmng

def LinkedBack (mm : EmMemmng) (left right : Cell) : Prop :=
  (mm.record right.ptr).backMeminfo = left.ptr

/-- The chain with every back link right, and a unit that suits the way
addresses are computed. -/
structure WellFormed (mm : EmMemmng) (allocMax : ℕ)
    (regions : EmMemmngRegions) (cells : List Cell) (used free : Finset ℤ) :
    Prop where
  chain : mm.Chain allocMax regions cells used free
  back : cells.IsChain mm.LinkedBack
  unit_pos : 0 < mm.memUnitSize
  bnum_le : mm.memTotalBnum ≤ intMax
  shift : mm.isBshiftable = true → mm.memUnitSize = 2 ^ mm.memUnitBshift

/-- Some walk shows that the manager is well-formed. -/
def Intact (mm : EmMemmng) : Prop :=
  ∃ allocMax regions cells used free,
    mm.WellFormed allocMax regions cells used free

variable {mm after : EmMemmng} {allocMax : ℕ}
  {regions : EmMemmngRegions} {cells : List Cell} {used free : Finset ℤ}
  {cell : Cell} {address : ℤ}

/-! ## Back links around a change -/

section Around

variable {left right gone fresh : List Cell} {first next last : Cell}

theorem linkedBack_around
    (linked : (left ++ first :: (gone ++ last :: right)).IsChain
      mm.LinkedBack)
    (kept : ∀ cell, cell ∈ left ++ first :: right →
      (after.record cell.ptr).backMeminfo =
        (mm.record cell.ptr).backMeminfo)
    (relinked : (first :: (fresh ++ [last])).IsChain after.LinkedBack) :
    (left ++ first :: (fresh ++ last :: right)).IsChain
      after.LinkedBack := by
  obtain ⟨before, _, beyond⟩ := isChain_around.mp linked
  apply isChain_around.mpr
  refine ⟨?_, relinked, ?_⟩
  · apply isChain_before before
    intro cell _ neighbour neighbourMember back
    have outer : neighbour ∈ left ++ first :: right := by
      simp only [List.mem_append, List.mem_cons] at *
      tauto
    exact (kept neighbour outer).trans back
  · apply isChain_after beyond
    intro cell _ neighbour neighbourMember back
    exact (kept neighbour (by simp [neighbourMember])).trans back

theorem back_eq_before
    (linked : (left ++ first :: ([cell] ++ next :: right)).IsChain
      mm.LinkedBack) :
    (mm.record cell.ptr).backMeminfo = first.ptr := by
  have back : mm.LinkedBack first cell := isChain_step linked left _ rfl
  exact back

/-- The record behind a part of the chain points back at its end. -/
theorem back_eq_getLast {removed : Cell}
    (linked : (left ++ first :: (gone ++ last :: right)).IsChain
      mm.LinkedBack)
    (isLast : gone.getLast? = some removed) :
    (mm.record last.ptr).backMeminfo = removed.ptr := by
  obtain ⟨front, rfl⟩ := List.getLast?_eq_some_iff.mp isLast
  have shape : left ++ first :: ((front ++ [removed]) ++ last :: right) =
      (left ++ first :: front) ++ removed :: last :: right := by simp
  have back : mm.LinkedBack removed last :=
    isChain_step linked _ right shape
  exact back

end Around

theorem WellFormed.geometry
    (wellFormed : mm.WellFormed allocMax regions cells used free) :
    mm.Geometry mm.memUnitSize mm.memTotalBnum mm.memory :=
  ⟨rfl, rfl, rfl, wellFormed.shift⟩

/-- A call keeps the unit and the size of the arena. -/
theorem WellFormed.of_geometry {usedAfter freeAfter : Finset ℤ}
    {remaining : List Cell}
    (wellFormed : mm.WellFormed allocMax regions cells used free)
    (chain : after.Chain allocMax regions remaining usedAfter freeAfter)
    (back : remaining.IsChain after.LinkedBack)
    (geometry : after.Geometry mm.memUnitSize mm.memTotalBnum mm.memory) :
    after.WellFormed allocMax regions remaining usedAfter freeAfter := by
  refine ⟨chain, back, ?_, ?_, ?_⟩
  · rw [geometry.unit_eq]
    exact wellFormed.unit_pos
  · rw [geometry.bnum_eq]
    exact wellFormed.bnum_le
  · rw [geometry.unit_eq]
    exact geometry.shift

/-! ## Creation -/

/-- The manager of `em_memmng_create` is well-formed. -/
theorem emMemmngCreate_wellFormed {unit bnum : ℕ} {memory : Option ℤ}
    (positive : 0 < unit) (blocks : 0 < bnum) (bnum_le : bnum ≤ intMax)
    (nonempty : 0 < allocMax) (representable : allocMax ≤ intMax)
    (fit : PoolsFit memory allocMax) (regions : EmMemmngRegions) :
    ∃ placed address,
      (emMemmngCreate mm unit bnum allocMax memory regions).WellFormed allocMax
        placed [firstCell, ⟨.free address, 0, bnum⟩, lastCell bnum] ∅
          {address} := by
  obtain ⟨opened, placed, address, created, geometry, usedHeld, freeHeld⟩ :=
    @emMemmngCreate_linked mm allocMax unit bnum memory nonempty representable
      fit regions
  have linked := geometry.of_linkInitial (.free address)
  refine ⟨placed, address, ?_⟩
  rw [created]
  refine ⟨linkInitial_chain geometry.bnum_eq blocks usedHeld freeHeld, ?_, ?_,
    ?_, ?_⟩
  · apply List.isChain_cons_cons.mpr
    constructor
    · simp [LinkedBack, emMemmngLinkInitial, firstCell]
    · refine List.isChain_cons_cons.mpr ⟨?_, .singleton _⟩
      simp [LinkedBack, emMemmngLinkInitial, lastCell]
  · rw [linked.unit_eq]
    exact positive
  · rw [linked.bnum_eq]
    exact bnum_le
  · rw [linked.unit_eq]
    exact linked.shift

/-! ## Allocation -/

/-- The length of the free record that a slot of the pool leads to. -/
def freeLength (mm : EmMemmng) (slot : ℕ) : ℤ :=
  (mm.record (.free (mm.mpFree.block (mm.mpFree.blockPtr slot)).dataPtr)
    ).memLength

/-- The first free record that the search from the last slot down finds long
enough has exactly the units asked for. -/
def ExactFit (mm : EmMemmng) (blength : ℤ) : Prop :=
  ∃ slot, slot < mm.mpFree.numUsed ∧ mm.freeLength slot = blength ∧
    ∀ later, slot < later → later < mm.mpFree.numUsed →
      mm.freeLength later < blength

theorem emMallocSearch_succ {blength : ℤ} {slots : ℕ} :
    emMallocSearch mm blength (slots + 1) =
      if blength ≤ mm.freeLength slots then
        some (mm.mpFree.block (mm.mpFree.blockPtr slots)).dataPtr
      else emMallocSearch mm blength slots := rfl

theorem emMallocSearch_exact {blength : ℤ} {slots : ℕ} :
    (∃ slot, slot < slots ∧ mm.freeLength slot = blength ∧
      ∀ later, slot < later → later < slots →
        mm.freeLength later < blength) ↔
      ∃ address, emMallocSearch mm blength slots = some address ∧
        (mm.record (.free address)).memLength = blength := by
  induction slots with
  | zero => simp [emMallocSearch]
  | succ slots induction =>
      rw [emMallocSearch_succ]
      by_cases fits : blength ≤ mm.freeLength slots
      · rw [if_pos fits]
        constructor
        · intro exact
          obtain ⟨slot, bound, length, shorter⟩ := exact
          have isLast : slot = slots := by
            by_contra different
            have short := shorter slots (by omega) (Nat.lt_succ_self slots)
            omega
          exact ⟨_, rfl, isLast ▸ length⟩
        · intro found
          obtain ⟨address, isAddress, length⟩ := found
          cases isAddress
          exact ⟨slots, Nat.lt_succ_self slots, length, by omega⟩
      · rw [if_neg fits, ← induction]
        constructor
        · intro exact
          obtain ⟨slot, bound, length, shorter⟩ := exact
          have notLast : slot ≠ slots := by
            rintro rfl
            omega
          exact ⟨slot, by omega, length,
            fun later after below => shorter later after (by omega)⟩
        · intro exact
          obtain ⟨slot, bound, length, shorter⟩ := exact
          refine ⟨slot, by omega, length, ?_⟩
          intro later after below
          rcases Nat.lt_succ_iff_lt_or_eq.mp below with earlier | rfl
          · exact shorter later after earlier
          · exact not_le.mp fits

theorem exactFit_iff {blength : ℤ} :
    mm.ExactFit blength ↔
      ∃ address, emMallocSearch mm blength mm.mpFree.numUsed =
          some address ∧
        (mm.record (.free address)).memLength = blength :=
  emMallocSearch_exact

/-- The records of a grant, seen from the chain before it. -/
theorem Chain.granted_carved {left right : List Cell} {next before : Cell}
    {newAddress : ℤ} {blength : ℕ} {rest : MeminfoPtr} {mpUsed : EmMpool}
    (carved : Carved mm (emMallocCarve mm (.used newAddress) cell.ptr blength)
      (.used newAddress) cell.ptr rest blength)
    (chain : mm.Chain allocMax regions
      (left ++ before :: ([cell] ++ next :: right)) used free)
    (isFree : cell.ptr = .free address) (unused : newAddress ∉ used) :
    ((mm.granted mpUsed newAddress address blength).record
        (.used newAddress)).nextMeminfo = rest ∧
      ((mm.granted mpUsed newAddress address blength).record
        (.used newAddress)).backMeminfo = before.ptr ∧
      ∀ other, other ∈ left ++ before :: next :: right →
        ((mm.granted mpUsed newAddress address blength).record
            other.ptr).backMeminfo =
          (mm.record other.ptr).backMeminfo := by
  have handed := carved.handed (mm.memUsedBsize + blength) mpUsed
  have same : ∀ ptr, (mm.granted mpUsed newAddress address blength).record
      ptr = (emMallocCarve mm (.used newAddress) cell.ptr blength).record
        ptr := by
    intro ptr
    rw [granted, emMallocCarve_handed, isFree]
    rfl
  have back : (mm.record cell.ptr).backMeminfo = before.ptr :=
    chain.follows_before.back_eq (isFree_of_free isFree)
  refine ⟨?_, ?_, ?_⟩
  · rw [same, carved.newRecord]
  · rw [same, carved.newRecord, back]
  · intro other member
    have separate := separate_of_nodup chain.nodup
    have notCell : other.ptr ≠ cell.ptr := by
      have gone := separate.not_mem_kept (List.mem_singleton_self cell)
      exact fun equal => gone (equal ▸ List.mem_map_of_mem member)
    by_cases isBefore : other.ptr = before.ptr
    · have backRecord := carved.backRecord
      rw [back] at backRecord
      rw [same, isBefore, backRecord]
    · rw [same, carved.others]
      · exact chain.new_ne unused (mem_around.mpr (.inl member))
      · exact notCell
      · rw [back]
        exact isBefore

/-- A longer free record keeps the rest, and both links of the new record are
made. -/
theorem WellFormed.split {left right : List Cell} {next before : Cell}
    {newAddress : ℤ} {blength : ℕ} {mpUsed : EmMpool}
    (wellFormed : mm.WellFormed allocMax regions
      (left ++ before :: ([cell] ++ next :: right)) used free)
    (isFree : cell.ptr = .free address) (unused : newAddress ∉ used)
    (positive : 0 < blength) (longer : (blength : ℤ) < cell.length)
    (held : mpUsed.Holds (usedParams allocMax regions)
      (insert newAddress used)) :
    (mm.granted mpUsed newAddress address blength).WellFormed allocMax regions
      (left ++ before ::
        ([⟨.used newAddress, cell.index, blength⟩,
          ⟨.free address, cell.index + blength, cell.length - blength⟩] ++
            next :: right))
      (insert newAddress used) free := by
  have chain := wellFormed.chain
  have needed : (0 : ℤ) < blength := Int.natCast_pos.mpr positive
  obtain ⟨carved, _, restRecord⟩ :=
    chain.carved_split isFree unused longer.ne'
  obtain ⟨_, newBack, kept⟩ := @Chain.granted_carved _ _ _ _ _ cell address
    left right next before newAddress blength cell.ptr mpUsed carved chain
    isFree unused
  have granted := chain.grant_split (mm.memUsedBsize + blength) isFree unused
    needed longer held
  rw [isFree] at granted
  apply wellFormed.of_geometry granted
  · apply linkedBack_around wellFormed.back
    · intro other member
      apply kept
      simp only [List.mem_append, List.mem_cons] at *
      tauto
    · apply List.isChain_cons_cons.mpr
      refine ⟨newBack, List.isChain_cons_cons.mpr ⟨?_, ?_⟩⟩
      · change (registered (emMallocCarve _ _ _ _) _ |>.record _).backMeminfo =
          _
        rw [emMallocCarve_handed, ← isFree]
        simp only [registered, restRecord]
      · refine List.isChain_cons_cons.mpr ⟨?_, .singleton next⟩
        change ((mm.granted mpUsed newAddress address blength).record
          next.ptr).backMeminfo = .free address
        rw [kept next (by simp), ← isFree]
        exact back_eq_getLast wellFormed.back List.getLast?_singleton
  · exact wellFormed.geometry.of_granted mpUsed newAddress address blength

/-- The successor of a free record that was taken whole still leads back to
it. -/
theorem WellFormed.exact_breaks {left right : List Cell} {next before : Cell}
    {newAddress : ℤ} {blength : ℕ} {mpUsed : EmMpool}
    (wellFormed : mm.WellFormed allocMax regions
      (left ++ before :: ([cell] ++ next :: right)) used free)
    (isFree : cell.ptr = .free address) (unused : newAddress ∉ used)
    (exact : cell.length = blength)
    (held : mpUsed.Holds (usedParams allocMax regions)
      (insert newAddress used)) :
    ¬ (mm.granted mpUsed newAddress address blength).Intact := by
  have chain := wellFormed.chain
  obtain ⟨carved, _⟩ := chain.carved_exact isFree unused exact
  obtain ⟨newNext, _, kept⟩ := @Chain.granted_carved _ _ _ _ _ cell address
    left right next before newAddress blength next.ptr mpUsed carved chain
    isFree unused
  have granted := chain.grant_exact (mm.memUsedBsize + blength) isFree unused
    exact held
  rw [isFree] at granted
  intro intact
  obtain ⟨_, _, cells, usedAfter, _, again⟩ := intact
  have live : newAddress ∈ usedAfter := by
    rw [← granted.usedHeld.unique again.chain.usedHeld]
    exact Finset.mem_insert_self _ _
  obtain ⟨new, member, isNew⟩ :=
    List.mem_map.mp ((again.chain.used_iff newAddress).mp live)
  obtain ⟨front, _, beyond, rear, rfl⟩ :=
    again.chain.exists_around member (isBlock_of_used isNew)
  have isNext : beyond.ptr = next.ptr := by
    rw [← again.chain.follows_next.next_eq, isNew, newNext]
  have back := back_eq_getLast again.back List.getLast?_singleton
  have old := back_eq_getLast wellFormed.back List.getLast?_singleton
  rw [isNext, kept next (by simp), old, isFree, isNew] at back
  cases back

theorem WellFormed.malloc_exact
    (wellFormed : mm.WellFormed allocMax regions cells used free) {size : ℕ}
    (nonempty : 0 < size) (fits : unitCount mm.memUnitSize size ≤ intMax)
    (exact : mm.ExactFit (unitCount mm.memUnitSize size))
    (room : used.card < allocMax) : ¬ (emMalloc mm size).2.Intact := by
  obtain ⟨address, search, length⟩ := exactFit_iff.mp exact
  have chain := wellFormed.chain
  rcases chain.malloc_cases wellFormed.geometry wellFormed.unit_pos nonempty
    fits with none | found
  · rw [none.1] at search
    cases search
  · obtain ⟨_, search', full | granted⟩ := found
    · omega
    · obtain ⟨newAddress, mpUsed, _, unused, held, called⟩ := granted
      rw [search] at search'
      cases search'
      obtain ⟨cell, member, isFree, _⟩ := chain.search_some search
      have described := (chain.described cell member).length_eq
        (isBlock_of_free isFree)
      rw [isFree, length] at described
      obtain ⟨left, before, next, right, rfl⟩ :=
        chain.exists_around member (isBlock_of_free isFree)
      rw [called]
      exact wellFormed.exact_breaks isFree unused described.symm held

theorem WellFormed.malloc_kept
    (wellFormed : mm.WellFormed allocMax regions cells used free) {size : ℕ}
    (nonempty : 0 < size) (fits : unitCount mm.memUnitSize size ≤ intMax)
    (longer : mm.ExactFit (unitCount mm.memUnitSize size) →
      used.card = allocMax) : (emMalloc mm size).2.Intact := by
  have chain := wellFormed.chain
  have positive := wellFormed.unit_pos
  rcases chain.malloc_cases wellFormed.geometry positive nonempty fits with
    none | found
  · rw [none.2]
    exact ⟨_, _, _, _, _, wellFormed⟩
  · obtain ⟨address, search, full | granted⟩ := found
    · rw [full.2]
      exact ⟨allocMax, regions, cells, used, free,
        chain.of_pool chain.usedHeld, wellFormed.back, positive,
        wellFormed.bnum_le, wellFormed.shift⟩
    · obtain ⟨newAddress, mpUsed, room, unused, held, called⟩ := granted
      obtain ⟨cell, member, isFree, long⟩ := chain.search_some search
      have described := (chain.described cell member).length_eq
        (isBlock_of_free isFree)
      have notExact : (unitCount mm.memUnitSize size : ℤ) ≠ cell.length := by
        intro same
        rw [isFree, ← same] at described
        have full := longer (exactFit_iff.mpr ⟨address, search, described⟩)
        omega
      obtain ⟨left, before, next, right, rfl⟩ :=
        chain.exists_around member (isBlock_of_free isFree)
      rw [called]
      exact ⟨_, _, _, _, _, wellFormed.split isFree unused
        (unitCount_pos positive nonempty) (lt_of_le_of_ne long notExact) held⟩

/-- `_em_malloc` keeps the manager well-formed unless it takes a free record
whole, which it does when the first record it finds long enough fits exactly
and a record for the taken range is left. -/
theorem malloc_keeps_links_iff (intact : mm.Intact) {size : ℕ}
    (nonempty : 0 < size) (fits : unitCount mm.memUnitSize size ≤ intMax) :
    (emMallocUnlocked mm size).2.2.Intact ↔
      ¬ (mm.ExactFit (unitCount mm.memUnitSize size) ∧
        mm.mpUsed.numUsed < mm.mpUsed.numMax) := by
  obtain ⟨allocMax, regions, cells, used, free, wellFormed⟩ := intact
  have numUsed := wellFormed.chain.usedHeld.numUsed_eq
  have numMax : mm.mpUsed.numMax = allocMax :=
    wellFormed.chain.usedHeld.numMax_eq
  have bound : used.card ≤ allocMax := wellFormed.chain.usedHeld.card_le
  rw [numUsed, numMax]
  constructor
  · intro kept taken
    exact wellFormed.malloc_exact nonempty fits taken.1 taken.2 kept
  · intro notTaken
    apply wellFormed.malloc_kept nonempty fits
    intro exact
    by_contra notFull
    exact notTaken ⟨exact, by omega⟩

/-- A new manager of two units of eight bytes. -/
def twoUnits : EmMemmng := emMemmngCreate default 8 2 4 none default

theorem twoUnits_wellFormed : ∃ placed address, twoUnits.WellFormed 4 placed
    [firstCell, ⟨.free address, 0, 2⟩, lastCell 2] ∅ {address} :=
  emMemmngCreate_wellFormed (by decide) (by decide) (by decide) (by decide)
    (by decide) (by decide) default

theorem twoUnits_slots : twoUnits.mpFree.numUsed = 1 ∧
    twoUnits.freeLength 0 = 2 ∧ twoUnits.memUnitSize = 8 := by
  decide +kernel

/-- A request for both units leaves the last record leading back to the record
that was given back to its pool. -/
theorem malloc_breaks_link : twoUnits.Intact ∧
    unitCount twoUnits.memUnitSize 16 ≤ intMax ∧
    ¬ (emMallocUnlocked twoUnits 16).2.2.Intact := by
  obtain ⟨placed, address, wellFormed⟩ := twoUnits_wellFormed
  obtain ⟨numUsed, length, unit⟩ := twoUnits_slots
  have fits : unitCount twoUnits.memUnitSize 16 = 2 := by
    rw [unit]
    rfl
  have representable : unitCount twoUnits.memUnitSize 16 ≤ intMax := by
    rw [fits]
    decide
  refine ⟨⟨_, _, _, _, _, wellFormed⟩, representable, ?_⟩
  apply wellFormed.malloc_exact (by decide) representable ?_ (by decide)
  rw [fits]
  refine ⟨0, by omega, length, ?_⟩
  intro later after below
  omega

/-- A request for the first of them is carved off. -/
theorem twoUnits_longer : ¬ twoUnits.ExactFit (unitCount 8 8) := by
  intro exact
  obtain ⟨slot, below, exactly, _⟩ := exact
  obtain ⟨numUsed, length, _⟩ := twoUnits_slots
  have isFirst : slot = 0 := by omega
  rw [isFirst, length] at exactly
  exact absurd exactly (by decide)

theorem malloc_keeps_links_first_unit :
    (emMallocUnlocked twoUnits 8).2.2.Intact := by
  obtain ⟨placed, address, wellFormed⟩ := twoUnits_wellFormed
  obtain ⟨_, _, unit⟩ := twoUnits_slots
  have fits : unitCount twoUnits.memUnitSize 8 ≤ intMax := by
    rw [unit]
    decide
  apply (malloc_keeps_links_iff ⟨_, _, _, _, _, wellFormed⟩ (by decide)
    fits).mpr
  rw [unit]
  exact fun taken => twoUnits_longer taken.1

/-! ## Release -/

/-- What `em_free` makes of a walk: `cell` and its free neighbours become one
free record between records that are not free; of those two one link is
written, and no other record changes. -/
structure Absorbed (mm after : EmMemmng) (left : List Cell) (first : Cell)
    (front : List Cell) (cell : Cell) (rear : List Cell) (last : Cell)
    (right : List Cell) (merged : Cell) : Prop where
  frontFree : ∀ other, other ∈ front → other.ptr.isFree = true
  rearFree : ∀ other, other ∈ rear → other.ptr.isFree = true
  firstTaken : first.ptr.isFree = false
  lastTaken : last.ptr.isFree = false
  mergedFree : merged.ptr.isFree = true
  starts : first.index + first.length = merged.index
  stops : merged.index + merged.length = last.index
  outer : ∀ other, other ∈ left ++ right →
    after.record other.ptr = mm.record other.ptr
  firstRecord : after.record first.ptr =
    { mm.record first.ptr with nextMeminfo := merged.ptr }
  lastRecord : after.record last.ptr =
    { mm.record last.ptr with backMeminfo := merged.ptr }
  table : after.minfoPtr = mm.minfoPtr
  bsize : after.memUsedBsize = mm.memUsedBsize - cell.length

theorem emFreeMerge_memUsedBsize (del : MeminfoPtr) :
    (emFreeMerge mm del).memUsedBsize = mm.memUsedBsize :=
  @Untouched.merge (fun after => after.memUsedBsize = mm.memUsedBsize) _
    ⟨fun _ _ _ same => same, fun _ _ same => same⟩ rfl _

/-- The back links of a release. -/
theorem Coalesced.linkedBack {usedAfter : Finset ℤ}
    {left front rear right : List Cell} {first last merged : Cell}
    (coalesced : Coalesced mm after allocMax regions usedAfter left first
      front cell rear last right merged)
    (linked : (left ++ first :: (front ++ cell :: (rear ++ last :: right))
      ).IsChain mm.LinkedBack) :
    (left ++ first :: ([merged] ++ last :: right)).IsChain
        after.LinkedBack ∧
      after.record last.ptr =
        { mm.record last.ptr with backMeminfo := merged.ptr } := by
  obtain ⟨removed, isLast, leaves⟩ := coalesced.leaves
  have writes := coalesced.writes
  have shape : left ++ first :: (front ++ cell :: (rear ++ last :: right)) =
      left ++ first :: ((front ++ cell :: rear) ++ last :: right) := by simp
  rw [shape] at linked
  have lastBack := leaves.lastBack (back_eq_getLast linked isLast)
  constructor
  · apply linkedBack_around linked
    · intro other member
      by_cases outer : other ∈ left ++ right
      · rw [writes.kept other outer]
      · have isFirst : other = first := by
          simp only [List.mem_append, List.mem_cons] at member outer
          tauto
        rw [isFirst, writes.firstRecord]
    · apply List.isChain_cons_cons.mpr
      refine ⟨?_, List.isChain_cons_cons.mpr ⟨lastBack, .singleton last⟩⟩
      simp only [LinkedBack, writes.freshRecord]
  · obtain ⟨back, lastRecord⟩ := writes.lastRecord
    rw [lastRecord] at lastBack ⊢
    rw [← lastBack]

theorem Coalesced.touches {usedAfter : Finset ℤ}
    {left front rear right : List Cell} {first last merged : Cell}
    (coalesced : Coalesced mm after allocMax regions usedAfter left first
      front cell rear last right merged) :
    first.index + first.length = merged.index ∧
      merged.index + merged.length = last.index := by
  obtain ⟨freeAfter, chain⟩ := coalesced.chain
  exact ⟨chain.follows_before.touch, chain.follows_next.touch⟩

/-- `em_free` finds the record of a taken range by its address. -/
theorem WellFormed.entry
    (wellFormed : mm.WellFormed allocMax regions cells used free)
    (member : cell ∈ cells) (isUsed : cell.ptr = .used address) :
    mm.minfoPtr (mm.unitIndex (mm.unitAddress cell.index)) = cell.ptr := by
  have geometry := wellFormed.geometry
  have taken : cell.ptr.isTaken = true := by
    rw [isUsed]
    rfl
  rw [geometry.unitAddress_eq]
  exact wellFormed.chain.entry geometry wellFormed.unit_pos wellFormed.bnum_le
    member taken

/-- The pool of the free records has room whenever `em_free` needs one. -/
theorem WellFormed.free_record
    (wellFormed : mm.WellFormed allocMax regions cells used free)
    (member : cell ∈ cells) (isUsed : cell.ptr = .used address)
    (backUsed : (mm.record (mm.record cell.ptr).backMeminfo).isUsed = true)
    (nextUsed : (mm.record (mm.record cell.ptr).nextMeminfo).isUsed = true) :
    ∃ new, (emMpoolAllocBlockNoWait mm.mpFree).1 = some new := by
  obtain ⟨left, before, next, right, rfl⟩ :=
    wellFormed.chain.exists_around member (isBlock_of_used isUsed)
  rw [back_eq_before wellFormed.back] at backUsed
  rw [wellFormed.chain.follows_next.next_eq] at nextUsed
  rw [(wellFormed.chain.described before (by simp)).flag] at backUsed
  rw [(wellFormed.chain.described next (by simp)).flag] at nextUsed
  obtain ⟨new, mpFree, taken, _⟩ := wellFormed.chain.free_alloc isUsed
    (by simpa using backUsed) (by simpa using nextUsed)
  exact ⟨new, by rw [taken]⟩

/-- `em_free` in all four merge cases: it finds the record, never lacks one
for the free range, and leaves a well-formed manager in which the range is part
of one free record between records that are not free. -/
theorem free_coalesces
    (wellFormed : mm.WellFormed allocMax regions cells used free)
    (member : cell ∈ cells) (isUsed : cell.ptr = .used address) :
    mm.minfoPtr (mm.unitIndex (mm.unitAddress cell.index)) = cell.ptr ∧
      ((mm.record (mm.record cell.ptr).backMeminfo).isUsed = true →
        (mm.record (mm.record cell.ptr).nextMeminfo).isUsed = true →
          ∃ new, (emMpoolAllocBlockNoWait mm.mpFree).1 = some new) ∧
      ∃ left first front rear last right merged freeAfter,
        cells = left ++ first :: (front ++ cell :: (rear ++ last :: right)) ∧
        (emFree mm (mm.unitAddress cell.index)).WellFormed allocMax regions
          (left ++ first :: ([merged] ++ last :: right)) (used.erase address)
          freeAfter ∧
        Absorbed mm (emFree mm (mm.unitAddress cell.index)) left first front
          cell rear last right merged := by
  have found := wellFormed.entry member isUsed
  refine ⟨found, wellFormed.free_record member isUsed, ?_⟩
  obtain ⟨outer, before, next, beyond, rfl⟩ :=
    wellFormed.chain.exists_around member (isBlock_of_used isUsed)
  have called : emFree mm (mm.unitAddress cell.index) =
      released (emFreeMerge mm cell.ptr) (emMpoolFreeRecord mm.mpUsed cell.ptr)
        (mm.memUsedBsize - ((emFreeMerge mm cell.ptr).record
          cell.ptr).memLength) := by
    simp only [emFree, found, emFreeMerge_mpUsed, emFreeMerge_memUsedBsize,
      released]
  obtain ⟨left, first, front, rear, last, right, merged, split, coalesced⟩ :=
    Chain.release wellFormed.chain isUsed (back_eq_before wellFormed.back)
      (mm.memUsedBsize - ((emFreeMerge mm cell.ptr).record
        cell.ptr).memLength)
  rw [← called] at coalesced
  have linked := wellFormed.back
  rw [split] at linked
  obtain ⟨linkedAfter, lastRecord⟩ := coalesced.linkedBack linked
  obtain ⟨starts, stops⟩ := coalesced.touches
  obtain ⟨freeAfter, kept⟩ := coalesced.chain
  have geometry : (emFree mm (mm.unitAddress cell.index)).Geometry
      mm.memUnitSize mm.memTotalBnum mm.memory := by
    rw [called]
    exact (wellFormed.geometry.of_merge cell.ptr).of_mpUsed _ _
  have writes := coalesced.writes
  obtain ⟨removed, _, leaves⟩ := coalesced.leaves
  have length : (mm.record cell.ptr).memLength = cell.length :=
    (wellFormed.chain.described cell (by simp)).length_eq
      (isBlock_of_used isUsed)
  have bsize : (emFree mm (mm.unitAddress cell.index)).memUsedBsize =
      mm.memUsedBsize - cell.length := by
    have cellRecord := leaves.cellRecord
    rw [called] at cellRecord ⊢
    simp only [released] at cellRecord ⊢
    rw [cellRecord, length]
  exact ⟨left, first, front, rear, last, right, merged, freeAfter, split,
    wellFormed.of_geometry kept linkedAfter geometry,
    coalesced.frontFree, coalesced.rearFree, coalesced.firstTaken,
    coalesced.lastTaken, coalesced.mergedFree, starts, stops, writes.kept,
    writes.firstRecord, lastRecord, writes.table, bsize⟩

/-- Giving the first unit back. -/
theorem free_coalesces_first_unit :
    ∃ (mm : EmMemmng) (cell : Cell) (address : ℤ),
      mm = (emMallocUnlocked twoUnits 8).2.2 ∧ cell.ptr = .used address ∧
        mm.minfoPtr (mm.unitIndex (mm.unitAddress cell.index)) = cell.ptr ∧
        (emFree mm (mm.unitAddress cell.index)).Intact := by
  obtain ⟨_, _, opened⟩ := twoUnits_wellFormed
  obtain ⟨_, _, unit⟩ := twoUnits_slots
  have fits : unitCount twoUnits.memUnitSize 8 ≤ intMax := by
    rw [unit]
    decide
  have longer : ¬ twoUnits.ExactFit (unitCount twoUnits.memUnitSize 8) := by
    rw [unit]
    exact twoUnits_longer
  obtain ⟨_, _, cells, used, _, wellFormed⟩ :=
    opened.malloc_kept (by decide) fits (fun exact => absurd exact longer)
  have numUsed : (emMalloc twoUnits 8).2.mpUsed.numUsed = 1 := by
    decide +kernel
  rw [wellFormed.chain.usedHeld.numUsed_eq] at numUsed
  obtain ⟨address, isOnly⟩ := Finset.card_eq_one.mp numUsed
  have live : address ∈ used := by
    rw [isOnly]
    exact Finset.mem_singleton_self address
  obtain ⟨cell, member, isUsed⟩ :=
    List.mem_map.mp ((wellFormed.chain.used_iff address).mp live)
  obtain ⟨found, _, left, first, front, rear, last, right, merged, freeAfter,
    _, after, _⟩ := free_coalesces wellFormed member isUsed
  exact ⟨_, cell, address, rfl, isUsed, found, _, _, _, _, _, after⟩

end EmMemmng

end EmbeddedMiddle
