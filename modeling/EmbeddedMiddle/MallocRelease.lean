import EmbeddedMiddle.MallocAllocation

/-!
# Release on the record chain

What the four cases of `em_free` do to the cells, as long as the back link read
from the released record is the right one.
-/

namespace EmbeddedMiddle

open Foundation

namespace EmMemmng

variable {mm after : EmMemmng} {allocMax : ℕ}
  {regions : EmMemmngRegions} {cells : List Cell} {used free : Finset ℤ}

section Release

variable {left right : List Cell} {before cell next : Cell}
  {address : ℤ} (bsize : ℤ) {mpUsed : EmMpool}

theorem isUsed_of_taken (chain : mm.Chain allocMax regions cells used free)
    (member : cell ∈ cells) (taken : cell.ptr.isFree = false) :
    (mm.record cell.ptr).isUsed = true := by
  rw [(chain.described cell member).flag, taken]
  rfl

theorem isUsed_of_free (chain : mm.Chain allocMax regions cells used free)
    (member : cell ∈ cells) (isFree : cell.ptr.isFree = true) :
    (mm.record cell.ptr).isUsed = false := by
  rw [(chain.described cell member).flag, isFree]
  rfl

/-- What every release writes: one free record lies between two taken ones. -/
structure Merged (mm after : EmMemmng) (left : List Cell) (first fresh : Cell)
    (last : Cell) (right : List Cell) : Prop where
  bnum : after.memTotalBnum = mm.memTotalBnum
  table : after.minfoPtr = mm.minfoPtr
  kept : ∀ cell, cell ∈ left ++ right →
    after.record cell.ptr = mm.record cell.ptr
  firstRecord : after.record first.ptr =
    { mm.record first.ptr with nextMeminfo := fresh.ptr }
  freshRecord : after.record fresh.ptr =
    ⟨fresh.index, fresh.length, false, last.ptr, first.ptr⟩
  lastRecord : ∃ back, after.record last.ptr =
    { mm.record last.ptr with backMeminfo := back }

/-- The chain when one free cell takes the place of the removed ones. -/
theorem Chain.merge {gone : List Cell} {first fresh last : Cell}
    {usedAfter freeAfter : Finset ℤ}
    (chain : mm.Chain allocMax regions
      (left ++ first :: (gone ++ last :: right)) used free)
    (merged : Merged mm after left first fresh last right)
    (isFree : fresh.ptr.isFree = true)
    (apart : fresh.ptr ∉ (left ++ first :: last :: right).map Cell.ptr)
    (firstTaken : first.ptr.isFree = false)
    (lastTaken : last.ptr.isFree = false)
    (starts : first.index + first.length = fresh.index)
    (stops : fresh.index + fresh.length = last.index)
    (positive : 0 < fresh.length)
    (usedHeld : after.mpUsed.Holds (usedParams allocMax regions) usedAfter)
    (used_iff : ∀ address, address ∈ usedAfter ↔
      (address ∈ used ∧ .used address ∉ gone.map Cell.ptr) ∨
        .used address ∈ [fresh].map Cell.ptr)
    (freeHeld : after.mpFree.Holds (freeParams allocMax regions) freeAfter)
    (free_iff : ∀ address, address ∈ freeAfter ↔
      (address ∈ free ∧ .free address ∉ gone.map Cell.ptr) ∨
        .free address ∈ [fresh].map Cell.ptr) :
    after.Chain allocMax regions
      (left ++ first :: ([fresh] ++ last :: right)) usedAfter freeAfter := by
  have keeps : mm.Keeps after left first last right :=
    ⟨merged.bnum, merged.kept, ⟨fresh.ptr, merged.firstRecord⟩,
      merged.lastRecord, fun cell _ _ => by rw [merged.table]⟩
  apply chain.splice keeps ?_ ?_ usedHeld used_iff freeHeld free_iff
  · apply List.isChain_cons_cons.mpr
    refine ⟨⟨?_, ?_, starts, ?_⟩, ?_⟩
    · rw [merged.firstRecord]
    · intro _
      rw [merged.freshRecord]
    · intro firstFree
      exact absurd (firstTaken.symm.trans firstFree) Bool.false_ne_true
    · apply List.isChain_cons_cons.mpr
      refine ⟨⟨?_, ?_, stops, fun _ => lastTaken⟩, .singleton last⟩
      · rw [merged.freshRecord]
      · intro lastFree
        exact absurd (lastTaken.symm.trans lastFree) Bool.false_ne_true
  · refine ⟨?_, by simp, ?_, ?_⟩
    · intro cell member
      cases List.mem_singleton.mp member
      apply Describes.of_free isFree
      · rw [merged.freshRecord]
      · rw [merged.freshRecord]
      · rw [merged.freshRecord]
      · exact positive
    · intro cell member
      cases List.mem_singleton.mp member
      exact apart
    · intro cell member
      cases List.mem_singleton.mp member
      simp [MeminfoPtr.isBlock, isFree]

/-- The manager after a release that merged as `merged` says. -/
def released (merged : EmMemmng) (mpUsed : EmMpool) (bsize : ℤ) : EmMemmng :=
  { merged with mpUsed, memUsedBsize := bsize }

/-- What every release leaves behind: the record that ends the range is told
of the free one if it knew the `removed` one, and the released record keeps
what it holds. -/
structure Leaves (mm after : EmMemmng) (cell removed fresh last : Cell) :
    Prop where
  lastBack : (mm.record last.ptr).backMeminfo = removed.ptr →
    (after.record last.ptr).backMeminfo = fresh.ptr
  cellRecord : after.record cell.ptr = mm.record cell.ptr

/-- No neighbour is free: what is written to the records. -/
theorem Chain.writes_alone
    (chain : mm.Chain allocMax regions
      (left ++ before :: ([cell] ++ next :: right)) used free)
    (isUsed : cell.ptr = .used address)
    (back : (mm.record cell.ptr).backMeminfo = before.ptr)
    (beforeTaken : before.ptr.isFree = false)
    (nextTaken : next.ptr.isFree = false)
    {newAddress : ℤ} {mpFree : EmMpool}
    (taken : emMpoolAllocBlockNoWait mm.mpFree = (some newAddress, mpFree))
    (unused : newAddress ∉ free) :
    Merged mm (released (emFreeMerge mm cell.ptr) mpUsed bsize) left before
        ⟨.free newAddress, cell.index, cell.length⟩ next right ∧
      Leaves mm (released (emFreeMerge mm cell.ptr) mpUsed bsize) cell cell
        ⟨.free newAddress, cell.index, cell.length⟩ next ∧
      (emFreeMerge mm cell.ptr).mpFree = mpFree := by
  have separate := separate_of_nodup chain.nodup
  obtain ⟨cellIndex, cellLength, _⟩ :=
    (chain.described cell (by simp)).block (isBlock_of_used isUsed)
  have followed := chain.follows_next
  have backUsed := isUsed_of_taken chain (by simp) beforeTaken
  have nextUsed := isUsed_of_taken chain (by simp) nextTaken
  have notNew : ∀ other, other ∈ left ++ before :: ([cell] ++ next :: right) →
      other.ptr ≠ .free newAddress :=
    fun other member same => unused (chain.mem_free member same)
  have beforeNotNew := notNew before (by simp)
  have nextNotNew := notNew next (by simp)
  have merged : emFreeMerge mm cell.ptr =
      (((EmMemmng.assign { mm with mpFree } (.free newAddress)
        (fun _ => { mm.record cell.ptr with isUsed := false })).assign
          before.ptr (fun old =>
            { old with nextMeminfo := .free newAddress })).assign
          next.ptr (fun old =>
            { old with backMeminfo := .free newAddress })) := by
    simp only [emFreeMerge, back, followed.next_eq, backUsed, nextUsed, taken,
      ↓reduceIte, assign_assign]
  have cellNotNew := notNew cell (by simp)
  have cellNotBefore := separate.middleFirst cell (by simp)
  have cellNotNext := separate.middleLast cell (by simp)
  rw [merged]
  refine ⟨⟨rfl, rfl, ?_, ?_, ?_, .free newAddress, ?_⟩, ⟨?_, ?_⟩, rfl⟩
  · intro other member
    have notBefore := separate.outerFirst other member
    have notNext := separate.outerLast other member
    have otherNotNew := notNew other
      (by simp only [List.mem_append, List.mem_cons] at *; tauto)
    simp [released, notBefore, notNext, otherNotNew]
  · simp [released, separate.edges, beforeNotNew]
  · simp [released, beforeNotNew.symm, nextNotNew.symm, back,
      followed.next_eq, cellIndex, cellLength]
  · simp [released, separate.edges.symm, nextNotNew]
  · intro _
    simp [released]
  · simp [released, cellNotNext, cellNotBefore, cellNotNew]

/-- No neighbour is free: a new free record takes the place of the old one. -/
theorem Chain.release_alone
    (chain : mm.Chain allocMax regions
      (left ++ before :: ([cell] ++ next :: right)) used free)
    (isUsed : cell.ptr = .used address)
    (beforeTaken : before.ptr.isFree = false)
    (nextTaken : next.ptr.isFree = false)
    {newAddress : ℤ} (unused : newAddress ∉ free)
    (writes : Merged mm (released (emFreeMerge mm cell.ptr) mpUsed bsize)
      left before ⟨.free newAddress, cell.index, cell.length⟩ next right)
    (freeHeld : (emFreeMerge mm cell.ptr).mpFree.Holds
      (freeParams allocMax regions) (insert newAddress free))
    (usedHeld : mpUsed.Holds (usedParams allocMax regions)
      (used.erase address)) :
    (released (emFreeMerge mm cell.ptr) mpUsed bsize).Chain allocMax regions
      (left ++ before ::
        ([⟨.free newAddress, cell.index, cell.length⟩] ++ next :: right))
      (used.erase address) (insert newAddress free) := by
  obtain ⟨_, _, positive⟩ :=
    (chain.described cell (by simp)).block (isBlock_of_used isUsed)
  apply chain.merge writes rfl ?_ beforeTaken nextTaken
    chain.follows_before.touch chain.follows_next.touch positive usedHeld ?_
    freeHeld ?_
  · intro known
    obtain ⟨other, member, same⟩ := List.mem_map.mp known
    have live := chain.mem_free (mem_around.mpr (.inl member)) same
    exact unused live
  · intro other
    simp [isUsed, and_comm]
  · intro other
    simp [isUsed, or_comm]

/-- The range goes to the free record behind it: what is written. -/
theorem Chain.writes_into_next {last : Cell}
    (chain : mm.Chain allocMax regions
      (left ++ before :: ([cell, next] ++ last :: right)) used free)
    (isUsed : cell.ptr = .used address)
    (back : (mm.record cell.ptr).backMeminfo = before.ptr)
    (beforeTaken : before.ptr.isFree = false)
    {nextAddress : ℤ} (nextFree : next.ptr = .free nextAddress) :
    Merged mm (released (emFreeMerge mm cell.ptr) mpUsed bsize) left before
        ⟨next.ptr, cell.index, next.length + cell.length⟩ last right ∧
      Leaves mm (released (emFreeMerge mm cell.ptr) mpUsed bsize) cell next
        ⟨next.ptr, cell.index, next.length + cell.length⟩ last ∧
      (emFreeMerge mm cell.ptr).mpFree = mm.mpFree := by
  have separate := separate_of_nodup chain.nodup
  have followed : mm.Follows cell next :=
    chain.follows (left ++ [before]) (last :: right) (by simp)
  have beyond : mm.Follows next last :=
    chain.follows (left ++ [before, cell]) right (by simp)
  obtain ⟨cellIndex, cellLength, _⟩ :=
    (chain.described cell (by simp)).block (isBlock_of_used isUsed)
  obtain ⟨_, nextLength, _⟩ :=
    (chain.described next (by simp)).block (isBlock_of_free nextFree)
  have nextIsFree := isFree_of_free nextFree
  have backUsed := isUsed_of_taken chain (by simp) beforeTaken
  have nextUnused := isUsed_of_free chain (by simp) nextIsFree
  have nextNotBefore := separate.middleFirst next (by simp)
  have nextNotLast := separate.middleLast next (by simp)
  have nextNotCell : next.ptr ≠ cell.ptr := by simp [isUsed, nextFree]
  have merged : emFreeMerge mm cell.ptr =
      (((mm.assign next.ptr (fun old =>
          { old with
            memIndex := (mm.record cell.ptr).memIndex
            memLength := old.memLength + (mm.record cell.ptr).memLength
          })).assign before.ptr (fun old =>
          { old with nextMeminfo := next.ptr })).assign next.ptr (fun old =>
          { old with backMeminfo := before.ptr })) := by
    simp [emFreeMerge, back, followed.next_eq, backUsed, nextUnused]
  have cellNotBefore := separate.middleFirst cell (by simp)
  rw [merged]
  refine ⟨⟨rfl, rfl, ?_, ?_, ?_, (mm.record last.ptr).backMeminfo, ?_⟩,
    ⟨?_, ?_⟩, rfl⟩
  · intro other member
    have notBefore := separate.outerFirst other member
    have notNext := separate.outerMiddle other member next (by simp)
    simp [released, notBefore, notNext]
  · simp [released, nextNotBefore.symm]
  · simp [released, nextNotBefore, nextUnused, cellIndex, cellLength,
      nextLength, beyond.next_eq]
  · simp [released, separate.edges.symm, nextNotLast.symm]
  · intro known
    simp [released, separate.edges.symm, nextNotLast.symm, known]
  · simp [released, nextNotCell.symm, cellNotBefore]

/-- The range goes to the free record behind it. -/
theorem Chain.release_into_next {last : Cell}
    (chain : mm.Chain allocMax regions
      (left ++ before :: ([cell, next] ++ last :: right)) used free)
    (isUsed : cell.ptr = .used address)
    (beforeTaken : before.ptr.isFree = false)
    {nextAddress : ℤ} (nextFree : next.ptr = .free nextAddress)
    (writes : Merged mm (released (emFreeMerge mm cell.ptr) mpUsed bsize)
      left before ⟨next.ptr, cell.index, next.length + cell.length⟩ last
      right)
    (freeHeld : (emFreeMerge mm cell.ptr).mpFree.Holds
      (freeParams allocMax regions) free)
    (usedHeld : mpUsed.Holds (usedParams allocMax regions)
      (used.erase address)) :
    (released (emFreeMerge mm cell.ptr) mpUsed bsize).Chain allocMax regions
      (left ++ before ::
        ([⟨next.ptr, cell.index, next.length + cell.length⟩] ++
          last :: right))
      (used.erase address) free := by
  have separate := separate_of_nodup chain.nodup
  have follows : mm.Follows before cell := chain.follows left _ rfl
  have followed : mm.Follows cell next :=
    chain.follows (left ++ [before]) (last :: right) (by simp)
  have beyond : mm.Follows next last :=
    chain.follows (left ++ [before, cell]) right (by simp)
  obtain ⟨_, _, positive⟩ :=
    (chain.described cell (by simp)).block (isBlock_of_used isUsed)
  obtain ⟨_, _, nextPositive⟩ :=
    (chain.described next (by simp)).block (isBlock_of_free nextFree)
  have nextIsFree := isFree_of_free nextFree
  have touch := followed.touch
  have touchLast := beyond.touch
  have inMiddle : next ∈ [cell, next] := by simp
  have nextGone := separate.not_mem_kept inMiddle
  have lastTaken := beyond.apart nextIsFree
  apply chain.merge writes nextIsFree nextGone beforeTaken lastTaken
    follows.touch ?_ ?_ usedHeld ?_ freeHeld ?_
  · simp only
    omega
  · simp only
    omega
  · intro other
    simp [isUsed, nextFree, and_comm]
  · intro other
    have live := chain.mem_free (by simp) nextFree
    by_cases same : other = nextAddress
    · simp [same, isUsed, nextFree, live]
    · simp [same, isUsed, nextFree]

/-- The range goes to the free record before it: what is written. -/
theorem Chain.writes_into_before {first : Cell}
    (chain : mm.Chain allocMax regions
      (left ++ first :: ([before, cell] ++ next :: right)) used free)
    (isUsed : cell.ptr = .used address)
    (back : (mm.record cell.ptr).backMeminfo = before.ptr)
    {beforeAddress : ℤ} (beforeFree : before.ptr = .free beforeAddress)
    (nextTaken : next.ptr.isFree = false) :
    Merged mm (released (emFreeMerge mm cell.ptr) mpUsed bsize) left first
        ⟨before.ptr, before.index, before.length + cell.length⟩ next right ∧
      Leaves mm (released (emFreeMerge mm cell.ptr) mpUsed bsize) cell cell
        ⟨before.ptr, before.index, before.length + cell.length⟩ next ∧
      (emFreeMerge mm cell.ptr).mpFree = mm.mpFree := by
  have separate := separate_of_nodup chain.nodup
  have entered : mm.Follows first before := chain.follows left _ rfl
  have followed : mm.Follows cell next :=
    chain.follows (left ++ [first, before]) right (by simp)
  obtain ⟨_, cellLength, _⟩ :=
    (chain.described cell (by simp)).block (isBlock_of_used isUsed)
  obtain ⟨beforeIndex, beforeLength, _⟩ :=
    (chain.described before (by simp)).block (isBlock_of_free beforeFree)
  have beforeIsFree := isFree_of_free beforeFree
  have beforeUnused := isUsed_of_free chain (by simp) beforeIsFree
  have nextUsed := isUsed_of_taken chain (by simp) nextTaken
  have beforeNotFirst := separate.middleFirst before (by simp)
  have beforeNotNext := separate.middleLast before (by simp)
  have merged : emFreeMerge mm cell.ptr =
      ((mm.assign before.ptr (fun old =>
          { old with
            memLength := old.memLength + (mm.record cell.ptr).memLength
            nextMeminfo := next.ptr })).assign next.ptr (fun old =>
          { old with backMeminfo := before.ptr })) := by
    simp [emFreeMerge, back, followed.next_eq, beforeUnused, nextUsed]
  have cellNotNext := separate.middleLast cell (by simp)
  have cellNotBefore : cell.ptr ≠ before.ptr := by simp [isUsed, beforeFree]
  rw [merged]
  refine ⟨⟨rfl, rfl, ?_, ?_, ?_, before.ptr, ?_⟩, ⟨?_, ?_⟩, rfl⟩
  · intro other member
    have notNext := separate.outerLast other member
    have notBefore := separate.outerMiddle other member before (by simp)
    simp [released, notBefore, notNext]
  · simp only [released]
    rw [assign_record_of_ne separate.edges,
      assign_record_of_ne beforeNotFirst.symm, ← entered.next_eq]
  · simp [released, beforeNotNext, beforeUnused, beforeIndex, cellLength,
      beforeLength, entered.back_eq beforeIsFree]
  · simp [released, beforeNotNext.symm]
  · intro _
    simp [released]
  · simp [released, cellNotNext, cellNotBefore]

/-- The range goes to the free record before it. -/
theorem Chain.release_into_before {first : Cell}
    (chain : mm.Chain allocMax regions
      (left ++ first :: ([before, cell] ++ next :: right)) used free)
    (isUsed : cell.ptr = .used address)
    {beforeAddress : ℤ} (beforeFree : before.ptr = .free beforeAddress)
    (firstTaken : first.ptr.isFree = false)
    (nextTaken : next.ptr.isFree = false)
    (writes : Merged mm (released (emFreeMerge mm cell.ptr) mpUsed bsize)
      left first ⟨before.ptr, before.index, before.length + cell.length⟩ next
      right)
    (freeHeld : (emFreeMerge mm cell.ptr).mpFree.Holds
      (freeParams allocMax regions) free)
    (usedHeld : mpUsed.Holds (usedParams allocMax regions)
      (used.erase address)) :
    (released (emFreeMerge mm cell.ptr) mpUsed bsize).Chain allocMax regions
      (left ++ first ::
        ([⟨before.ptr, before.index, before.length + cell.length⟩] ++
          next :: right))
      (used.erase address) free := by
  have separate := separate_of_nodup chain.nodup
  have entered : mm.Follows first before := chain.follows left _ rfl
  have follows : mm.Follows before cell :=
    chain.follows (left ++ [first]) (next :: right) (by simp)
  have followed : mm.Follows cell next :=
    chain.follows (left ++ [first, before]) right (by simp)
  obtain ⟨_, _, positive⟩ :=
    (chain.described cell (by simp)).block (isBlock_of_used isUsed)
  obtain ⟨_, _, beforePositive⟩ :=
    (chain.described before (by simp)).block (isBlock_of_free beforeFree)
  have beforeIsFree := isFree_of_free beforeFree
  have touch := follows.touch
  have touchNext := followed.touch
  have inMiddle : before ∈ [before, cell] := by simp
  have beforeGone := separate.not_mem_kept inMiddle
  apply chain.merge writes beforeIsFree beforeGone firstTaken nextTaken
    entered.touch ?_ ?_ usedHeld ?_ freeHeld ?_
  · simp only
    omega
  · simp only
    omega
  · intro other
    simp [isUsed, beforeFree, and_comm]
  · intro other
    have live := chain.mem_free (by simp) beforeFree
    by_cases same : other = beforeAddress
    · simp [same, isUsed, beforeFree, live]
    · simp [same, isUsed, beforeFree]

theorem Chain.before_ne_next {first last : Cell}
    (chain : mm.Chain allocMax regions
      (left ++ first :: ([before, cell, next] ++ last :: right)) used free) :
    next.ptr ≠ before.ptr := by
  have nodup := chain.nodup
  simp only [List.map_append, List.map_cons, List.nodup_append,
    List.nodup_cons, List.mem_cons, List.mem_append] at nodup
  grind

/-- Both neighbours are free: what is written to the records. -/
theorem Chain.writes_between {first last : Cell}
    (chain : mm.Chain allocMax regions
      (left ++ first :: ([before, cell, next] ++ last :: right)) used free)
    (isUsed : cell.ptr = .used address)
    (back : (mm.record cell.ptr).backMeminfo = before.ptr)
    {beforeAddress nextAddress : ℤ}
    (beforeFree : before.ptr = .free beforeAddress)
    (nextFree : next.ptr = .free nextAddress) :
    Merged mm (released (emFreeMerge mm cell.ptr) mpUsed bsize) left first
        ⟨before.ptr, before.index, before.length + cell.length + next.length⟩
        last right ∧
      Leaves mm (released (emFreeMerge mm cell.ptr) mpUsed bsize) cell next
        ⟨before.ptr, before.index, before.length + cell.length + next.length⟩
        last ∧
      (emFreeMerge mm cell.ptr).mpFree =
        emMpoolFreeRecord mm.mpFree next.ptr := by
  have separate := separate_of_nodup chain.nodup
  have entered : mm.Follows first before := chain.follows left _ rfl
  have followed : mm.Follows cell next :=
    chain.follows (left ++ [first, before]) (last :: right) (by simp)
  have beyond : mm.Follows next last :=
    chain.follows (left ++ [first, before, cell]) right (by simp)
  obtain ⟨_, cellLength, _⟩ :=
    (chain.described cell (by simp)).block (isBlock_of_used isUsed)
  obtain ⟨beforeIndex, beforeLength, _⟩ :=
    (chain.described before (by simp)).block (isBlock_of_free beforeFree)
  obtain ⟨_, nextLength, _⟩ :=
    (chain.described next (by simp)).block (isBlock_of_free nextFree)
  have beforeIsFree := isFree_of_free beforeFree
  have nextIsFree := isFree_of_free nextFree
  have beforeUnused := isUsed_of_free chain (by simp) beforeIsFree
  have nextUnused := isUsed_of_free chain (by simp) nextIsFree
  have beforeNotFirst := separate.middleFirst before (by simp)
  have beforeNotLast := separate.middleLast before (by simp)
  have nextNotBefore := chain.before_ne_next
  have cellNotLast := separate.middleLast cell (by simp)
  have cellNotBefore : cell.ptr ≠ before.ptr := by simp [isUsed, beforeFree]
  have merged : emFreeMerge mm cell.ptr =
      { ((mm.assign before.ptr (fun old =>
          { old with
            memLength := old.memLength + (mm.record cell.ptr).memLength +
              (mm.record next.ptr).memLength
            nextMeminfo := last.ptr })).assign last.ptr (fun old =>
          { old with backMeminfo := before.ptr })) with
        mpFree := emMpoolFreeRecord mm.mpFree next.ptr } := by
    simp [emFreeMerge, back, followed.next_eq, beforeUnused, nextUnused,
      nextNotBefore, beyond.next_eq]
  rw [merged]
  refine ⟨⟨rfl, rfl, ?_, ?_, ?_, before.ptr, ?_⟩, ⟨?_, ?_⟩, rfl⟩
  · intro other member
    have notLast := separate.outerLast other member
    have notBefore := separate.outerMiddle other member before (by simp)
    simp [released, notBefore, notLast]
  · simp only [released]
    rw [assign_record_of_ne separate.edges,
      assign_record_of_ne beforeNotFirst.symm, ← entered.next_eq]
  · simp [released, beforeNotLast, beforeUnused, beforeIndex, cellLength,
      beforeLength, nextLength, entered.back_eq beforeIsFree]
  · simp [released, beforeNotLast.symm]
  · intro _
    simp [released]
  · simp [released, cellNotLast, cellNotBefore]

/-- Both neighbours are free: the first of them keeps the whole range. -/
theorem Chain.release_between {first last : Cell}
    (chain : mm.Chain allocMax regions
      (left ++ first :: ([before, cell, next] ++ last :: right)) used free)
    (isUsed : cell.ptr = .used address)
    {beforeAddress nextAddress : ℤ}
    (beforeFree : before.ptr = .free beforeAddress)
    (nextFree : next.ptr = .free nextAddress)
    (firstTaken : first.ptr.isFree = false)
    (writes : Merged mm (released (emFreeMerge mm cell.ptr) mpUsed bsize)
      left first ⟨before.ptr, before.index,
        before.length + cell.length + next.length⟩ last right)
    (freeHeld : (emFreeMerge mm cell.ptr).mpFree.Holds
      (freeParams allocMax regions) (free.erase nextAddress))
    (usedHeld : mpUsed.Holds (usedParams allocMax regions)
      (used.erase address)) :
    (released (emFreeMerge mm cell.ptr) mpUsed bsize).Chain allocMax regions
      (left ++ first ::
        ([⟨before.ptr, before.index,
          before.length + cell.length + next.length⟩] ++ last :: right))
      (used.erase address) (free.erase nextAddress) := by
  have separate := separate_of_nodup chain.nodup
  have entered : mm.Follows first before := chain.follows left _ rfl
  have follows : mm.Follows before cell :=
    chain.follows (left ++ [first]) (next :: last :: right) (by simp)
  have followed : mm.Follows cell next :=
    chain.follows (left ++ [first, before]) (last :: right) (by simp)
  have beyond : mm.Follows next last :=
    chain.follows (left ++ [first, before, cell]) right (by simp)
  obtain ⟨_, _, positive⟩ :=
    (chain.described cell (by simp)).block (isBlock_of_used isUsed)
  obtain ⟨_, _, beforePositive⟩ :=
    (chain.described before (by simp)).block (isBlock_of_free beforeFree)
  obtain ⟨_, _, nextPositive⟩ :=
    (chain.described next (by simp)).block (isBlock_of_free nextFree)
  have beforeIsFree := isFree_of_free beforeFree
  have nextIsFree := isFree_of_free nextFree
  have nextNotBefore := chain.before_ne_next
  have touch := follows.touch
  have touchNext := followed.touch
  have touchLast := beyond.touch
  have inMiddle : before ∈ [before, cell, next] := by simp
  have beforeGone := separate.not_mem_kept inMiddle
  have lastTaken := beyond.apart nextIsFree
  apply chain.merge writes beforeIsFree beforeGone firstTaken lastTaken
    entered.touch ?_ ?_ usedHeld ?_ freeHeld ?_
  · simp only
    omega
  · simp only
    omega
  · intro other
    simp [isUsed, beforeFree, nextFree, and_comm]
  · intro other
    have live := chain.mem_free (by simp) beforeFree
    have notSame : beforeAddress ≠ nextAddress := by
      rintro rfl
      exact nextNotBefore (nextFree.trans beforeFree.symm)
    by_cases same : other = beforeAddress
    · simp [same, isUsed, beforeFree, nextFree, live, notSame]
    · simp [same, isUsed, beforeFree, nextFree, and_comm]

/-- Only the sentinels are neither free nor taken. -/
theorem Chain.countP_not_free
    (chain : mm.Chain allocMax regions cells used free) :
    cells.countP (fun cell => !cell.ptr.isFree) ≤ used.card + 2 := by
  have listed :
      ((cells.map Cell.ptr).filter (fun ptr => !ptr.isFree)).toFinset ⊆
        used.image MeminfoPtr.used ∪ {.first, .last} := by
    intro ptr member
    simp only [List.mem_toFinset, List.mem_filter] at member
    obtain ⟨member, notFree⟩ := member
    cases ptr with
    | null => exact absurd member chain.notNull
    | first => simp
    | last => simp
    | used address =>
        have live := (chain.used_iff address).mpr member
        simp [live]
    | free address => simp [MeminfoPtr.isFree] at notFree
  have bound := Finset.card_le_card listed
  rw [List.toFinset_card_of_nodup (chain.nodup.filter _),
    ← List.countP_eq_length_filter, List.countP_map] at bound
  calc
    cells.countP (fun cell => !cell.ptr.isFree)
      ≤ (used.image MeminfoPtr.used ∪ {.first, .last}).card := bound
    _ ≤ (used.image MeminfoPtr.used).card + 2 := Finset.card_union_le ..
    _ ≤ used.card + 2 := Nat.add_le_add_right Finset.card_image_le 2

/-- Turning a taken cell between taken ones into a free one needs one more
free record, and there is room for it. -/
theorem Chain.free_room
    (chain : mm.Chain allocMax regions
      (left ++ before :: ([cell] ++ next :: right)) used free)
    (isUsed : cell.ptr = .used address)
    (beforeTaken : before.ptr.isFree = false)
    (nextTaken : next.ptr.isFree = false) : free.card < used.card := by
  have alternating : (left ++ before :: ([cell] ++ next :: right)).IsChain
      (fun left right => left.ptr.isFree = true → right.ptr.isFree = false) :=
    chain.linked.imp fun _ _ follows => follows.apart
  obtain ⟨front, _, rear⟩ := isChain_around.mp alternating
  let opened : Cell := ⟨.free 0, cell.index, cell.length⟩
  have exchanged :
      (left ++ before :: ([opened] ++ next :: right)).IsChain
        (fun left right =>
          left.ptr.isFree = true → right.ptr.isFree = false) := by
    apply isChain_around.mpr
    refine ⟨front, ?_, rear⟩
    apply List.isChain_cons_cons.mpr
    refine ⟨fun isFree => absurd (beforeTaken.symm.trans isFree)
      Bool.false_ne_true, ?_⟩
    apply List.isChain_cons_cons.mpr
    exact ⟨fun _ => nextTaken, .singleton next⟩
  have starts : (left ++ before :: ([opened] ++ next :: right)).head? =
      some firstCell := by
    have starts := chain.starts
    cases left with
    | nil => exact starts
    | cons cell left => exact starts
  have ends : (left ++ before :: ([opened] ++ next :: right)).getLast? =
      some (lastCell mm.memTotalBnum) := by
    have ends := chain.ends
    simpa [List.getLast?_append, List.getLast?_cons] using ends
  have fewer := @countP_free_lt _ (fun cell : Cell => cell.ptr.isFree) _ _ _
    exchanged starts ends rfl rfl
  have notFree := chain.countP_not_free
  have openedFree : opened.ptr.isFree = true := rfl
  have cellTaken : cell.ptr.isFree = false := by
    rw [isUsed]
    rfl
  rw [chain.card_free]
  simp only [List.countP_append, List.countP_cons, List.countP_nil,
    openedFree, cellTaken, ↓reduceIte, Bool.not_true, Bool.not_false,
    Bool.false_eq_true] at fewer notFree ⊢
  omega

end Release

end EmMemmng

end EmbeddedMiddle
