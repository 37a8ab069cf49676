import EmbeddedMiddle.Malloc
import EmbeddedMiddle.MempoolAddresses
import EmbeddedMiddle.Foundation.LinkedTiling

/-!
# The record chain of the block allocator

A list of cells describes the chain from `first_meminfo` to `last_meminfo`.
`Chain.splice` exchanges the cells between two records that stay; every path
of `em_malloc` and `em_free` is such an exchange.
-/

namespace EmbeddedMiddle

open Foundation

def MeminfoPtr.isFree : MeminfoPtr → Bool
  | .free _ => true
  | _ => false

def MeminfoPtr.isTaken : MeminfoPtr → Bool
  | .used _ => true
  | _ => false

/-- A record of one of the pools, not a sentinel. -/
def MeminfoPtr.isBlock (ptr : MeminfoPtr) : Bool :=
  ptr.isFree || ptr.isTaken

/-- A record of the chain with the range it describes. -/
structure Cell where
  ptr : MeminfoPtr
  index : ℤ
  length : ℤ

/-- One range ends before the other begins. -/
def Cell.Apart (left right : Cell) : Prop :=
  left.index + left.length ≤ right.index ∨
    right.index + right.length ≤ left.index

instance : Std.Symm Cell.Apart := ⟨fun _ _ => Or.symm⟩

section Kinds

variable {cell : Cell} {address : ℤ}

theorem isBlock_of_used (isUsed : cell.ptr = .used address) :
    cell.ptr.isBlock = true := by
  rw [isUsed]
  rfl

theorem isBlock_of_free (isFree : cell.ptr = .free address) :
    cell.ptr.isBlock = true := by
  rw [isFree]
  rfl

theorem isFree_of_free (isFree : cell.ptr = .free address) :
    cell.ptr.isFree = true := by
  rw [isFree]
  rfl

end Kinds

def firstCell : Cell := ⟨.first, 0, 0⟩

def lastCell (bnum : ℕ) : Cell := ⟨.last, bnum, 0⟩

/-- Giving back the block of a record of either pool. -/
theorem EmMpool.Holds.freeRecord {params : PoolParams} {mp : EmMpool}
    {addresses : Finset ℤ} (holds : mp.Holds params addresses)
    {ptr : MeminfoPtr} {address : ℤ}
    (isRecord : ptr = .used address ∨ ptr = .free address)
    (member : address ∈ addresses) :
    (emMpoolFreeRecord mp ptr).Holds params (addresses.erase address) := by
  obtain ⟨after, called, kept⟩ := holds.free member
  rcases isRecord with rfl | rfl
  · simpa only [emMpoolFreeRecord, called] using kept
  · simpa only [emMpoolFreeRecord, called] using kept

namespace EmMemmng

/-- Two neighbours of the chain.  The back link is asked of free records only:
an exact fit leaves a wrong one behind in a taken record. -/
structure Follows (mm : EmMemmng) (left right : Cell) : Prop where
  next_eq : (mm.record left.ptr).nextMeminfo = right.ptr
  back_eq : right.ptr.isFree = true →
    (mm.record right.ptr).backMeminfo = left.ptr
  touch : left.index + left.length = right.index
  apart : left.ptr.isFree = true → right.ptr.isFree = false

theorem Follows.left_taken {mm : EmMemmng} {left right : Cell}
    (follows : mm.Follows left right) (rightFree : right.ptr.isFree = true) :
    left.ptr.isFree = false := by
  cases leftFree : left.ptr.isFree with
  | false => rfl
  | true => exact absurd (follows.apart leftFree) (by simp [rightFree])

/-- The record of a cell holds the range of the cell. -/
structure Describes (mm : EmMemmng) (cell : Cell) : Prop where
  flag : (mm.record cell.ptr).isUsed = !cell.ptr.isFree
  nonneg : 0 ≤ cell.length
  positive : cell.ptr.isBlock = true → 0 < cell.length
  index_eq : cell.ptr.isBlock = true →
    (mm.record cell.ptr).memIndex = cell.index
  length_eq : cell.ptr.isBlock = true →
    (mm.record cell.ptr).memLength = cell.length
  table : cell.ptr.isTaken = true → mm.minfoPtr cell.index = cell.ptr

def usedParams (allocMax : ℕ) (regions : EmMemmngRegions) : PoolParams :=
  ⟨allocMax, sizeofMeminfo, regions.rawUsed⟩

def freeParams (allocMax : ℕ) (regions : EmMemmngRegions) : PoolParams :=
  ⟨allocMax, sizeofMeminfo, regions.rawFree⟩

/-- The well-formed manager: the chain tiles the arena, no two neighbours are
free, and its records are exactly the live blocks of the pools. -/
structure Chain (mm : EmMemmng) (allocMax : ℕ)
    (regions : EmMemmngRegions) (cells : List Cell) (used free : Finset ℤ) :
    Prop where
  starts : cells.head? = some firstCell
  ends : cells.getLast? = some (lastCell mm.memTotalBnum)
  linked : cells.IsChain mm.Follows
  described : ∀ cell, cell ∈ cells → mm.Describes cell
  nodup : (cells.map Cell.ptr).Nodup
  notNull : .null ∉ cells.map Cell.ptr
  usedHeld : mm.mpUsed.Holds (usedParams allocMax regions) used
  used_iff : ∀ address, address ∈ used ↔ .used address ∈ cells.map Cell.ptr
  freeHeld : mm.mpFree.Holds (freeParams allocMax regions) free
  free_iff : ∀ address, address ∈ free ↔ .free address ∈ cells.map Cell.ptr

variable {mm after : EmMemmng} {allocMax : ℕ}
  {regions : EmMemmngRegions} {cells : List Cell} {used free : Finset ℤ}

/-! ## The pools and the cells -/

theorem card_eq_countP {live : Finset ℤ} {wrap : ℤ → MeminfoPtr}
    {kind : MeminfoPtr → Bool} (injective : Function.Injective wrap)
    (isKind : ∀ ptr, kind ptr = true ↔ ∃ address, wrap address = ptr)
    (nodup : (cells.map Cell.ptr).Nodup)
    (mem_iff : ∀ address,
      address ∈ live ↔ wrap address ∈ cells.map Cell.ptr) :
    live.card = cells.countP (fun cell => kind cell.ptr) := by
  have same : live.map ⟨wrap, injective⟩ =
      ((cells.map Cell.ptr).filter kind).toFinset := by
    ext ptr
    simp only [Finset.mem_map, Function.Embedding.coeFn_mk, List.mem_toFinset,
      List.mem_filter, isKind]
    constructor
    · intro present
      obtain ⟨address, member, rfl⟩ := present
      exact ⟨(mem_iff address).mp member, address, rfl⟩
    · intro present
      obtain ⟨member, address, rfl⟩ := present
      exact ⟨address, (mem_iff address).mpr member, rfl⟩
  have counted := congrArg Finset.card same
  rw [Finset.card_map, List.toFinset_card_of_nodup (nodup.filter kind),
    ← List.countP_eq_length_filter, List.countP_map] at counted
  exact counted

theorem Chain.card_used (chain : mm.Chain allocMax regions cells used free) :
    used.card = cells.countP (fun cell => cell.ptr.isTaken) := by
  apply card_eq_countP ?_ ?_ chain.nodup chain.used_iff
  · intro left right equality
    exact MeminfoPtr.used.inj equality
  · intro ptr
    cases ptr <;> simp [MeminfoPtr.isTaken]

theorem Chain.card_free (chain : mm.Chain allocMax regions cells used free) :
    free.card = cells.countP (fun cell => cell.ptr.isFree) := by
  apply card_eq_countP ?_ ?_ chain.nodup chain.free_iff
  · intro left right equality
    exact MeminfoPtr.free.inj equality
  · intro ptr
    cases ptr <;> simp [MeminfoPtr.isFree]

/-! ## Frames -/

theorem Follows.of_links {left right : Cell}
    (follows : mm.Follows left right)
    (next : (after.record left.ptr).nextMeminfo =
      (mm.record left.ptr).nextMeminfo)
    (back : (after.record right.ptr).backMeminfo =
      (mm.record right.ptr).backMeminfo) :
    after.Follows left right where
  next_eq := next.trans follows.next_eq
  back_eq := fun required => back.trans (follows.back_eq required)
  touch := follows.touch
  apart := follows.apart

theorem Describes.of_fields {cell : Cell} (describes : mm.Describes cell)
    (flag : (after.record cell.ptr).isUsed = (mm.record cell.ptr).isUsed)
    (index : (after.record cell.ptr).memIndex =
      (mm.record cell.ptr).memIndex)
    (length : (after.record cell.ptr).memLength =
      (mm.record cell.ptr).memLength)
    (table : cell.ptr.isTaken = true →
      after.minfoPtr cell.index = mm.minfoPtr cell.index) :
    after.Describes cell where
  flag := flag.trans describes.flag
  nonneg := describes.nonneg
  positive := describes.positive
  index_eq := fun block => index.trans (describes.index_eq block)
  length_eq := fun block => length.trans (describes.length_eq block)
  table := fun taken => (table taken).trans (describes.table taken)

/-- What a record of one of the pools holds. -/
theorem Describes.block {cell : Cell} (describes : mm.Describes cell)
    (isBlock : cell.ptr.isBlock = true) :
    (mm.record cell.ptr).memIndex = cell.index ∧
      (mm.record cell.ptr).memLength = cell.length ∧ 0 < cell.length :=
  ⟨describes.index_eq isBlock, describes.length_eq isBlock,
    describes.positive isBlock⟩

/-- A free record holds any range that has been written to it. -/
theorem Describes.of_free {ptr : MeminfoPtr} {index length : ℤ}
    (isFree : ptr.isFree = true)
    (flag : (after.record ptr).isUsed = false)
    (index_eq : (after.record ptr).memIndex = index)
    (length_eq : (after.record ptr).memLength = length)
    (positive : 0 < length) : after.Describes ⟨ptr, index, length⟩ where
  flag := by rw [flag, isFree]; rfl
  nonneg := positive.le
  positive := fun _ => positive
  index_eq := fun _ => index_eq
  length_eq := fun _ => length_eq
  table := by
    intro taken
    cases ptr <;> simp_all [MeminfoPtr.isFree, MeminfoPtr.isTaken]

/-- A sentinel has no range of its own. -/
theorem Describes.of_sentinel {ptr : MeminfoPtr} {index : ℤ}
    (isSentinel : ptr.isBlock = false)
    (flag : (after.record ptr).isUsed = true) :
    after.Describes ⟨ptr, index, 0⟩ := by
  obtain ⟨notFree, notTaken⟩ := Bool.or_eq_false_iff.mp isSentinel
  refine ⟨?_, le_refl 0, ?_, ?_, ?_, ?_⟩
  · rw [flag, notFree]
    rfl
  · intro block
    exact absurd (isSentinel.symm.trans block) Bool.false_ne_true
  · intro block
    exact absurd (isSentinel.symm.trans block) Bool.false_ne_true
  · intro block
    exact absurd (isSentinel.symm.trans block) Bool.false_ne_true
  · intro taken
    exact absurd (notTaken.symm.trans taken) Bool.false_ne_true

/-! ## Exchanging the middle of the chain -/

section Splice

variable {left right gone fresh : List Cell} {first last : Cell}

/-- What an operation has to show about the records it does not remove. -/
structure Keeps (mm after : EmMemmng) (left : List Cell) (first last : Cell)
    (right : List Cell) : Prop where
  bnum : after.memTotalBnum = mm.memTotalBnum
  kept : ∀ cell, cell ∈ left ++ right →
    after.record cell.ptr = mm.record cell.ptr
  firstKept : ∃ next, after.record first.ptr =
    { mm.record first.ptr with nextMeminfo := next }
  lastKept : ∃ back, after.record last.ptr =
    { mm.record last.ptr with backMeminfo := back }
  table : ∀ cell, cell ∈ left ++ first :: last :: right →
    cell.ptr.isTaken = true →
      after.minfoPtr cell.index = mm.minfoPtr cell.index

/-- What it has to show about the cells it puts in. -/
structure Fresh (after : EmMemmng) (kept fresh : List Cell) : Prop where
  described : ∀ cell, cell ∈ fresh → after.Describes cell
  nodup : (fresh.map Cell.ptr).Nodup
  apart : ∀ cell, cell ∈ fresh → cell.ptr ∉ kept.map Cell.ptr
  blocks : ∀ cell, cell ∈ fresh → cell.ptr.isBlock = true

theorem mem_around {Item : Type*} {item first last : Item}
    {left middle right : List Item} :
    item ∈ left ++ first :: (middle ++ last :: right) ↔
      item ∈ left ++ first :: last :: right ∨ item ∈ middle := by
  simp only [List.mem_append, List.mem_cons]
  tauto

/-- The records around the middle of a chain are all different. -/
structure Separate (left : List Cell) (first : Cell) (middle : List Cell)
    (last : Cell) (right : List Cell) : Prop where
  edges : first.ptr ≠ last.ptr
  outerFirst : ∀ cell, cell ∈ left ++ right → cell.ptr ≠ first.ptr
  outerLast : ∀ cell, cell ∈ left ++ right → cell.ptr ≠ last.ptr
  middleFirst : ∀ cell, cell ∈ middle → cell.ptr ≠ first.ptr
  middleLast : ∀ cell, cell ∈ middle → cell.ptr ≠ last.ptr
  outerMiddle : ∀ outer, outer ∈ left ++ right → ∀ cell, cell ∈ middle →
    outer.ptr ≠ cell.ptr

theorem separate_of_nodup
    (nodup : ((left ++ first :: (gone ++ last :: right)).map
      Cell.ptr).Nodup) :
    Separate left first gone last right := by
  simp only [List.map_append, List.map_cons, List.nodup_append,
    List.nodup_cons, List.mem_append, List.mem_cons, List.mem_map] at nodup
  constructor <;> grind

theorem Separate.not_mem_kept
    (separate : Separate left first gone last right) {cell : Cell}
    (member : cell ∈ gone) :
    cell.ptr ∉ (left ++ first :: last :: right).map Cell.ptr := by
  intro known
  obtain ⟨kept, keptMember, same⟩ := List.mem_map.mp known
  have place : kept ∈ left ++ right ∨ kept = first ∨ kept = last := by
    simp only [List.mem_append, List.mem_cons] at keptMember ⊢
    tauto
  rcases place with outer | rfl | rfl
  · exact separate.outerMiddle kept outer cell member same
  · exact separate.middleFirst cell member same.symm
  · exact separate.middleLast cell member same.symm

theorem linked_around
    (linked : (left ++ first :: (gone ++ last :: right)).IsChain
      mm.Follows)
    (keeps : mm.Keeps after left first last right)
    (relinked : (first :: (fresh ++ [last])).IsChain
      after.Follows) :
    (left ++ first :: (fresh ++ last :: right)).IsChain
      after.Follows := by
  obtain ⟨before, _, beyond⟩ := isChain_around.mp linked
  obtain ⟨next, firstKept⟩ := keeps.firstKept
  obtain ⟨back, lastKept⟩ := keeps.lastKept
  apply isChain_around.mpr
  refine ⟨?_, relinked, ?_⟩
  · apply isChain_before before
    intro cell cellMember neighbour neighbourMember follows
    apply follows.of_links
    · rw [keeps.kept cell (by simp [cellMember])]
    · rcases List.mem_append.mp neighbourMember with inside | atEnd
      · rw [keeps.kept neighbour (by simp [inside])]
      · cases List.mem_singleton.mp atEnd
        rw [firstKept]
  · apply isChain_after beyond
    intro cell cellMember neighbour neighbourMember follows
    apply follows.of_links
    · rcases List.mem_cons.mp cellMember with rfl | inside
      · rw [lastKept]
      · rw [keeps.kept cell (by simp [inside])]
    · rw [keeps.kept neighbour (by simp [neighbourMember])]

theorem described_around
    (described : ∀ cell, cell ∈ left ++ first :: (gone ++ last :: right) →
      mm.Describes cell)
    (keeps : mm.Keeps after left first last right)
    {cell : Cell} (member : cell ∈ left ++ first :: last :: right) :
    after.Describes cell := by
  have old := described cell (mem_around.mpr (.inl member))
  have table := keeps.table cell member
  obtain ⟨next, firstKept⟩ := keeps.firstKept
  obtain ⟨back, lastKept⟩ := keeps.lastKept
  by_cases inside : cell ∈ left ++ right
  · have kept := keeps.kept cell inside
    exact old.of_fields (by rw [kept]) (by rw [kept]) (by rw [kept]) table
  · have atEdge : cell = first ∨ cell = last := by
      simp only [List.mem_append, List.mem_cons] at member inside
      tauto
    rcases atEdge with rfl | rfl
    · exact old.of_fields (by rw [firstKept]) (by rw [firstKept])
        (by rw [firstKept]) table
    · exact old.of_fields (by rw [lastKept]) (by rw [lastKept])
        (by rw [lastKept]) table

theorem nodup_around
    (nodup : ((left ++ first :: (gone ++ last :: right)).map
      Cell.ptr).Nodup)
    (new : after.Fresh (left ++ first :: last :: right) fresh) :
    ((left ++ first :: (fresh ++ last :: right)).map Cell.ptr).Nodup := by
  have rearranged : (left ++ first :: (fresh ++ last :: right)).Perm
      (fresh ++ (left ++ first :: last :: right)) := by
    calc
      left ++ first :: (fresh ++ last :: right)
        = (left ++ [first]) ++ (fresh ++ last :: right) := by simp
      _ = ((left ++ [first]) ++ fresh) ++ last :: right := by simp
      List.Perm _ ((fresh ++ (left ++ [first])) ++ last :: right) :=
        List.perm_append_comm.append_right _
      _ = fresh ++ (left ++ first :: last :: right) := by simp
  have shorter : List.Sublist (left ++ first :: last :: right)
      (left ++ first :: (gone ++ last :: right)) := by
    apply List.Sublist.append_left
    apply List.Sublist.cons_cons
    exact List.sublist_append_right _ _
  rw [(rearranged.map Cell.ptr).nodup_iff, List.map_append]
  apply List.nodup_append.mpr
  refine ⟨new.nodup, nodup.sublist (shorter.map Cell.ptr), ?_⟩
  intro ptr ptrMember other otherMember equality
  obtain ⟨cell, cellMember, rfl⟩ := List.mem_map.mp ptrMember
  exact new.apart cell cellMember (equality ▸ otherMember)

/-- Membership after the exchange, for the two pools alike. -/
theorem mem_spliced {ptr : MeminfoPtr}
    (nodup : ((left ++ first :: (gone ++ last :: right)).map
      Cell.ptr).Nodup) :
    ptr ∈ (left ++ first :: (fresh ++ last :: right)).map Cell.ptr ↔
      (ptr ∈ (left ++ first :: (gone ++ last :: right)).map Cell.ptr ∧
        ptr ∉ gone.map Cell.ptr) ∨ ptr ∈ fresh.map Cell.ptr := by
  have split : ∀ middle : List Cell,
      ptr ∈ (left ++ first :: (middle ++ last :: right)).map Cell.ptr ↔
        ptr ∈ (left ++ first :: last :: right).map Cell.ptr ∨
          ptr ∈ middle.map Cell.ptr := by
    intro middle
    simp only [List.map_append, List.map_cons]
    exact mem_around
  have disjoint : ptr ∈ (left ++ first :: last :: right).map Cell.ptr →
      ptr ∉ gone.map Cell.ptr := by
    intro kept removed
    simp only [List.map_append, List.map_cons, List.nodup_append,
      List.nodup_cons, List.mem_append, List.mem_cons] at nodup kept
    grind
  rw [split, split]
  tauto

/-- The chain after an operation that keeps `left`, `first`, `last` and
`right` and exchanges what lies between. -/
theorem Chain.splice {usedAfter freeAfter : Finset ℤ}
    (chain : mm.Chain allocMax regions
      (left ++ first :: (gone ++ last :: right)) used free)
    (keeps : mm.Keeps after left first last right)
    (relinked : (first :: (fresh ++ [last])).IsChain after.Follows)
    (new : after.Fresh (left ++ first :: last :: right) fresh)
    (usedHeld : after.mpUsed.Holds (usedParams allocMax regions) usedAfter)
    (used_iff : ∀ address, address ∈ usedAfter ↔
      (address ∈ used ∧ .used address ∉ gone.map Cell.ptr) ∨
        .used address ∈ fresh.map Cell.ptr)
    (freeHeld : after.mpFree.Holds (freeParams allocMax regions) freeAfter)
    (free_iff : ∀ address, address ∈ freeAfter ↔
      (address ∈ free ∧ .free address ∉ gone.map Cell.ptr) ∨
        .free address ∈ fresh.map Cell.ptr) :
    after.Chain allocMax regions
      (left ++ first :: (fresh ++ last :: right)) usedAfter freeAfter where
  starts := by
    have starts := chain.starts
    cases left with
    | nil => exact starts
    | cons cell left => exact starts
  ends := by
    have ends := chain.ends
    rw [keeps.bnum]
    simpa [List.getLast?_append, List.getLast?_cons] using ends
  linked := linked_around chain.linked keeps relinked
  described := by
    intro cell member
    rcases mem_around.mp member with kept | inserted
    · exact described_around chain.described keeps kept
    · exact new.described cell inserted
  nodup := nodup_around chain.nodup new
  notNull := by
    intro isNull
    rcases (mem_spliced chain.nodup).mp isNull with old | inserted
    · exact chain.notNull old.1
    · obtain ⟨cell, member, isNull⟩ := List.mem_map.mp inserted
      have block := new.blocks cell member
      rw [isNull] at block
      exact absurd block (by decide)
  usedHeld := usedHeld
  used_iff := by
    intro address
    rw [used_iff, chain.used_iff]
    exact (mem_spliced chain.nodup).symm
  freeHeld := freeHeld
  free_iff := by
    intro address
    rw [free_iff, chain.free_iff]
    exact (mem_spliced chain.nodup).symm

end Splice

end EmMemmng

end EmbeddedMiddle
