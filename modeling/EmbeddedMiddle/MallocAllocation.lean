import EmbeddedMiddle.MallocChain

/-!
# Allocation on the record chain

What `_em_malloc` does to the cells: an exact fit exchanges the free record for
a taken one, any other fit puts the taken record before the rest.
-/

namespace EmbeddedMiddle

open Foundation

namespace EmMemmng

variable {mm after : EmMemmng} {allocMax : ℕ}
  {regions : EmMemmngRegions} {cells : List Cell} {used free : Finset ℤ}

/-! ## The search -/

theorem emMallocSearch_some {blength : ℤ} {address : ℤ} {slots : ℕ}
    (found : emMallocSearch mm blength slots = some address) :
    ∃ slot, slot < slots ∧
      (mm.mpFree.block (mm.mpFree.blockPtr slot)).dataPtr = address ∧
      blength ≤ (mm.record (.free address)).memLength := by
  induction slots with
  | zero => simp [emMallocSearch] at found
  | succ slots induction =>
      simp only [emMallocSearch] at found
      split_ifs at found with fits
      · cases found
        exact ⟨slots, Nat.lt_succ_self slots, rfl, fits⟩
      · obtain ⟨slot, bound, isAddress, fitsThere⟩ := induction found
        exact ⟨slot, Nat.lt_succ_of_lt bound, isAddress, fitsThere⟩

theorem emMallocSearch_none {blength : ℤ} {slots : ℕ}
    (missing : emMallocSearch mm blength slots = none) {slot : ℕ}
    (bound : slot < slots) :
    (mm.record (.free
      (mm.mpFree.block (mm.mpFree.blockPtr slot)).dataPtr)).memLength <
        blength := by
  induction slots with
  | zero => exact absurd bound (Nat.not_lt_zero slot)
  | succ slots induction =>
      simp only [emMallocSearch] at missing
      split_ifs at missing with fits
      rcases Nat.lt_succ_iff_lt_or_eq.mp bound with earlier | rfl
      · exact induction missing earlier
      · exact not_le.mp fits

/-! ## Places in the chain -/

namespace Chain

theorem mem_used (chain : mm.Chain allocMax regions cells used free)
    {cell : Cell} (member : cell ∈ cells) {address : ℤ}
    (isUsed : cell.ptr = .used address) : address ∈ used :=
  (chain.used_iff address).mpr (isUsed ▸ List.mem_map_of_mem member)

theorem mem_free (chain : mm.Chain allocMax regions cells used free)
    {cell : Cell} (member : cell ∈ cells) {address : ℤ}
    (isFree : cell.ptr = .free address) : address ∈ free :=
  (chain.free_iff address).mpr (isFree ▸ List.mem_map_of_mem member)

theorem exists_free (chain : mm.Chain allocMax regions cells used free)
    {address : ℤ} (member : address ∈ free) :
    ∃ cell, cell ∈ cells ∧ cell.ptr = .free address :=
  List.mem_map.mp ((chain.free_iff address).mp member)

theorem exists_before (chain : mm.Chain allocMax regions cells used free)
    {before beyond : List Cell} {cell : Cell}
    (split : cells = before ++ cell :: beyond)
    (block : cell.ptr.isBlock = true) :
    ∃ left neighbour, before = left ++ [neighbour] := by
  rcases List.eq_nil_or_concat before with rfl | concat
  · have starts := chain.starts
    rw [split] at starts
    cases Option.some.inj starts
    exact absurd block (by decide)
  · obtain ⟨left, neighbour, rfl⟩ := concat
    exact ⟨left, neighbour, by simp⟩

theorem exists_beyond (chain : mm.Chain allocMax regions cells used free)
    {before beyond : List Cell} {cell : Cell}
    (split : cells = before ++ cell :: beyond)
    (block : cell.ptr.isBlock = true) :
    ∃ neighbour right, beyond = neighbour :: right := by
  cases beyond with
  | nil =>
      have ends := chain.ends
      rw [split, List.getLast?_append_cons, List.getLast?_singleton] at ends
      cases Option.some.inj ends
      exact absurd block Bool.false_ne_true
  | cons neighbour right => exact ⟨neighbour, right, rfl⟩

/-- A block lies between two records. -/
theorem exists_around (chain : mm.Chain allocMax regions cells used free)
    {cell : Cell} (member : cell ∈ cells)
    (block : cell.ptr.isBlock = true) :
    ∃ left before next right,
      cells = left ++ before :: ([cell] ++ next :: right) := by
  obtain ⟨front, back, split⟩ := List.append_of_mem member
  obtain ⟨left, before, rfl⟩ := chain.exists_before split block
  obtain ⟨next, right, rfl⟩ := chain.exists_beyond split block
  exact ⟨left, before, next, right, by simp [split]⟩

theorem ordered (chain : mm.Chain allocMax regions cells used free) :
    cells.Pairwise (fun left right =>
      left.index + left.length ≤ right.index) := by
  apply pairwise_of_touches
  · exact chain.linked.imp fun _ _ follows => follows.touch
  · exact fun cell member => (chain.described cell member).nonneg

theorem apart (chain : mm.Chain allocMax regions cells used free)
    {cell other : Cell} (member : cell ∈ cells) (otherMember : other ∈ cells)
    (different : cell ≠ other) : cell.Apart other := by
  have pairwise : cells.Pairwise Cell.Apart := chain.ordered.imp Or.inl
  exact pairwise.forall member otherMember different

/-- No other taken record claims the index of a block. -/
theorem index_ne (chain : mm.Chain allocMax regions cells used free)
    {cell other : Cell} (member : cell ∈ cells) (otherMember : other ∈ cells)
    (block : cell.ptr.isBlock = true) (taken : other.ptr.isTaken = true)
    (different : other.ptr ≠ cell.ptr) : other.index ≠ cell.index := by
  have positive := (chain.described cell member).positive block
  have otherBlock : other.ptr.isBlock = true := by
    simp [MeminfoPtr.isBlock, taken]
  have otherPositive :=
    (chain.described other otherMember).positive otherBlock
  intro same
  rcases chain.apart member otherMember
    (fun equal => different (by rw [equal])) with earlier | later
  · omega
  · omega

theorem follows (chain : mm.Chain allocMax regions cells used free)
    {first second : Cell} (left right : List Cell)
    (split : cells = left ++ first :: second :: right) :
    mm.Follows first second :=
  isChain_step chain.linked left right split

variable {left right : List Cell} {before cell next : Cell}

theorem follows_before (chain : mm.Chain allocMax regions
    (left ++ before :: ([cell] ++ next :: right)) used free) :
    mm.Follows before cell :=
  chain.follows left _ rfl

theorem follows_next (chain : mm.Chain allocMax regions
    (left ++ before :: ([cell] ++ next :: right)) used free) :
    mm.Follows cell next :=
  chain.follows (left ++ [before]) right (by simp)

end Chain

/-! ## Carving -/

section Carve

variable {new free : MeminfoPtr} {blength : ℤ}

/-- What carving writes, apart from the rest of the free record. -/
structure Carved (mm after : EmMemmng) (new free rest : MeminfoPtr)
    (blength : ℤ) : Prop where
  newRecord : after.record new =
    ⟨(mm.record free).memIndex, blength, true, rest,
      (mm.record free).backMeminfo⟩
  backRecord : after.record (mm.record free).backMeminfo =
    { mm.record (mm.record free).backMeminfo with nextMeminfo := new }
  others : ∀ ptr, ptr ≠ new → ptr ≠ free →
    ptr ≠ (mm.record free).backMeminfo → after.record ptr = mm.record ptr
  bnum : after.memTotalBnum = mm.memTotalBnum
  table : after.minfoPtr = mm.minfoPtr

theorem emMallocCarve_exact (exact : (mm.record free).memLength = blength)
    (newFree : new ≠ free) (backNew : (mm.record free).backMeminfo ≠ new)
    (backFree : (mm.record free).backMeminfo ≠ free) :
    Carved mm (emMallocCarve mm new free blength) new free
        (mm.record free).nextMeminfo blength ∧
      (emMallocCarve mm new free blength).mpFree =
        emMpoolFreeRecord mm.mpFree free := by
  subst exact
  have carve : emMallocCarve mm new free (mm.record free).memLength =
      { ((mm.assign new (fun old =>
          { old with
            memIndex := (mm.record free).memIndex
            memLength := (mm.record free).memLength
            backMeminfo := (mm.record free).backMeminfo
            isUsed := true })).assign (mm.record free).backMeminfo (fun old =>
          { old with nextMeminfo := new })).assign new (fun old =>
          { old with nextMeminfo := (mm.record free).nextMeminfo }) with
        mpFree := emMpoolFreeRecord mm.mpFree free } := by
    simp [emMallocCarve, newFree.symm, backFree.symm]
  rw [carve]
  refine ⟨⟨?_, ?_, ?_, rfl, rfl⟩, rfl⟩
  · simp [backNew.symm]
  · simp [backNew]
  · intro ptr notNew notFree notBack
    simp [notNew, notBack]

theorem emMallocCarve_split (longer : (mm.record free).memLength ≠ blength)
    (newFree : new ≠ free) (backNew : (mm.record free).backMeminfo ≠ new)
    (backFree : (mm.record free).backMeminfo ≠ free) :
    Carved mm (emMallocCarve mm new free blength) new free free blength ∧
      (emMallocCarve mm new free blength).mpFree = mm.mpFree ∧
      (emMallocCarve mm new free blength).record free =
        { mm.record free with
          memIndex := (mm.record free).memIndex + blength
          memLength := (mm.record free).memLength - blength
          backMeminfo := new } := by
  have carve : emMallocCarve mm new free blength =
      (((mm.assign new (fun old =>
          { old with
            memIndex := (mm.record free).memIndex
            memLength := blength
            backMeminfo := (mm.record free).backMeminfo
            isUsed := true })).assign (mm.record free).backMeminfo (fun old =>
          { old with nextMeminfo := new })).assign new (fun old =>
          { old with nextMeminfo := free })).assign free (fun old =>
          { old with
            memIndex := old.memIndex + blength
            memLength := old.memLength - blength
            backMeminfo := new }) := by
    simp [emMallocCarve, newFree.symm, backFree.symm, longer]
  rw [carve]
  refine ⟨⟨?_, ?_, ?_, ?_, ?_⟩, ?_, ?_⟩
  · simp [newFree, backNew.symm]
  · simp [backFree, backNew]
  · intro ptr notNew notFree notBack
    simp [notNew, notFree, notBack]
  · simp only [assign_memTotalBnum]
  · simp only [assign_minfoPtr]
  · simp only [assign_mpFree]
  · simp [newFree.symm, backFree.symm]

theorem emMallocCarve_handed {bsize : ℤ} {mpUsed : EmMpool} :
    emMallocCarve { mm with memUsedBsize := bsize, mpUsed } new free blength =
      { emMallocCarve mm new free blength with
        memUsedBsize := bsize
        mpUsed } := by
  simp only [emMallocCarve]
  split
  · rename_i exact
    exact (if_pos exact).symm ▸ rfl
  · rename_i longer
    exact (if_neg longer).symm ▸ rfl

theorem Carved.handed {rest : MeminfoPtr}
    (carved : Carved mm after new free rest blength) (bsize : ℤ)
    (mpUsed : EmMpool) :
    Carved mm { after with memUsedBsize := bsize, mpUsed } new free rest
      blength :=
  ⟨carved.newRecord, carved.backRecord, carved.others, carved.bnum,
    carved.table⟩

/-- The manager with the new record entered into `minfo_ptr`. -/
def registered (mm : EmMemmng) (new : MeminfoPtr) : EmMemmng :=
  { mm with
    minfoPtr := Function.update mm.minfoPtr (mm.record new).memIndex new }

end Carve

section Grant

variable {left right : List Cell} {before cell next : Cell}
  {address newAddress blength : ℤ} {rest : MeminfoPtr}

theorem Chain.new_ne (chain : mm.Chain allocMax regions cells used free)
    (unused : newAddress ∉ used) {other : Cell} (member : other ∈ cells) :
    other.ptr ≠ .used newAddress :=
  fun same => unused (chain.mem_used member same)

theorem Chain.keeps_of_carved
    (chain : mm.Chain allocMax regions
      (left ++ before :: ([cell] ++ next :: right)) used free)
    (isFree : cell.ptr = .free address) (unused : newAddress ∉ used)
    (carved : Carved mm after (.used newAddress) cell.ptr rest blength) :
    mm.Keeps (after.registered (.used newAddress)) left before next right := by
  have separate := separate_of_nodup chain.nodup
  have back : (mm.record cell.ptr).backMeminfo = before.ptr :=
    chain.follows_before.back_eq (isFree_of_free isFree)
  have notNew : ∀ other, other ∈ left ++ before :: next :: right →
      other.ptr ≠ .used newAddress := by
    intro other member
    exact chain.new_ne unused (mem_around.mpr (.inl member))
  constructor
  · exact carved.bnum
  · intro other member
    apply carved.others
    · apply notNew other
      simp only [List.mem_append, List.mem_cons] at *
      tauto
    · exact separate.outerMiddle other member cell (by simp)
    · rw [back]
      exact separate.outerFirst other member
  · refine ⟨.used newAddress, ?_⟩
    have backRecord := carved.backRecord
    rw [back] at backRecord
    exact backRecord
  · refine ⟨(mm.record next.ptr).backMeminfo, ?_⟩
    apply carved.others
    · exact notNew next (by simp)
    · exact (separate.middleLast cell (by simp)).symm
    · rw [back]
      exact separate.edges.symm
  · intro other member taken
    have isBlock := isBlock_of_free isFree
    have index : (after.record (.used newAddress)).memIndex = cell.index := by
      rw [carved.newRecord]
      exact (chain.described cell (by simp)).index_eq isBlock
    have different : other.index ≠ cell.index := by
      apply chain.index_ne (by simp)
        (mem_around.mpr (.inl member)) isBlock taken
      rw [isFree]
      intro same
      rw [same] at taken
      exact Bool.false_ne_true taken
    simp only [registered, index]
    rw [Function.update_of_ne different, carved.table]

/-- The cell of the new record. -/
theorem Carved.describes (isFree : cell.ptr = .free address)
    (describes : mm.Describes cell)
    (carved : Carved mm after (.used newAddress) cell.ptr rest blength)
    (positive : 0 < blength) :
    (after.registered (.used newAddress)).Describes
      ⟨.used newAddress, cell.index, blength⟩ := by
  have isBlock := isBlock_of_free isFree
  have index := describes.index_eq isBlock
  have newRecord := carved.newRecord
  rw [index] at newRecord
  refine ⟨?_, positive.le, fun _ => positive, fun _ => ?_, fun _ => ?_, ?_⟩
  · simp only [registered, newRecord]
    rfl
  · simp only [registered, newRecord]
  · simp only [registered, newRecord]
  · intro _
    simp only [registered, newRecord, Function.update_self]

/-- The new record, the free one and the one before it are different. -/
theorem Chain.carve_apart
    (chain : mm.Chain allocMax regions
      (left ++ before :: ([cell] ++ next :: right)) used free)
    (isFree : cell.ptr = .free address) (unused : newAddress ∉ used) :
    .used newAddress ≠ cell.ptr ∧
      (mm.record cell.ptr).backMeminfo ≠ .used newAddress ∧
      (mm.record cell.ptr).backMeminfo ≠ cell.ptr := by
  have separate := separate_of_nodup chain.nodup
  rw [chain.follows_before.back_eq (isFree_of_free isFree)]
  refine ⟨?_, ?_, ?_⟩
  · exact (chain.new_ne unused (by simp)).symm
  · exact chain.new_ne unused (by simp)
  · exact (separate.middleFirst cell (by simp)).symm

theorem Chain.new_not_mem_kept
    (chain : mm.Chain allocMax regions
      (left ++ before :: ([cell] ++ next :: right)) used free)
    (unused : newAddress ∉ used) :
    .used newAddress ∉ (left ++ before :: next :: right).map Cell.ptr := by
  intro known
  obtain ⟨other, member, same⟩ := List.mem_map.mp known
  exact chain.new_ne unused (mem_around.mpr (.inl member)) same

theorem Chain.carved_exact
    (chain : mm.Chain allocMax regions
      (left ++ before :: ([cell] ++ next :: right)) used free)
    (isFree : cell.ptr = .free address) (unused : newAddress ∉ used)
    (exact : cell.length = blength) :
    Carved mm (emMallocCarve mm (.used newAddress) cell.ptr blength)
        (.used newAddress) cell.ptr next.ptr blength ∧
      (emMallocCarve mm (.used newAddress) cell.ptr blength).mpFree =
        emMpoolFreeRecord mm.mpFree cell.ptr := by
  have length : (mm.record cell.ptr).memLength = cell.length :=
    (chain.described cell (by simp)).length_eq (isBlock_of_free isFree)
  obtain ⟨newFree, backNew, backFree⟩ := chain.carve_apart isFree unused
  rw [← chain.follows_next.next_eq]
  exact emMallocCarve_exact (length.trans exact) newFree backNew backFree

theorem Chain.carved_split
    (chain : mm.Chain allocMax regions
      (left ++ before :: ([cell] ++ next :: right)) used free)
    (isFree : cell.ptr = .free address) (unused : newAddress ∉ used)
    (longer : cell.length ≠ blength) :
    Carved mm (emMallocCarve mm (.used newAddress) cell.ptr blength)
        (.used newAddress) cell.ptr cell.ptr blength ∧
      (emMallocCarve mm (.used newAddress) cell.ptr blength).mpFree =
        mm.mpFree ∧
      (emMallocCarve mm (.used newAddress) cell.ptr blength).record cell.ptr =
        { mm.record cell.ptr with
          memIndex := (mm.record cell.ptr).memIndex + blength
          memLength := (mm.record cell.ptr).memLength - blength
          backMeminfo := .used newAddress } := by
  have length : (mm.record cell.ptr).memLength = cell.length :=
    (chain.described cell (by simp)).length_eq (isBlock_of_free isFree)
  obtain ⟨newFree, backNew, backFree⟩ := chain.carve_apart isFree unused
  exact emMallocCarve_split (length ▸ longer) newFree backNew backFree

/-- The record before the carved one leads to the new record. -/
theorem Chain.carved_before
    (chain : mm.Chain allocMax regions
      (left ++ before :: ([cell] ++ next :: right)) used free)
    (isFree : cell.ptr = .free address)
    (carved : Carved mm after (.used newAddress) cell.ptr rest blength) :
    (after.registered (.used newAddress)).Follows before
      ⟨.used newAddress, cell.index, blength⟩ := by
  have follows := chain.follows_before
  have backRecord := carved.backRecord
  rw [follows.back_eq (isFree_of_free isFree)] at backRecord
  refine ⟨?_, ?_, follows.touch, fun _ => rfl⟩
  · simp only [registered, backRecord]
  · intro impossible
    exact absurd impossible Bool.false_ne_true

/-- The new record leads to what carving says. -/
theorem Carved.beyond {target : Cell}
    (carved : Carved mm after (.used newAddress) cell.ptr rest blength)
    (leads : rest = target.ptr)
    (back : target.ptr.isFree = true →
      (after.record target.ptr).backMeminfo = .used newAddress)
    (touch : cell.index + blength = target.index) :
    (after.registered (.used newAddress)).Follows
      ⟨.used newAddress, cell.index, blength⟩ target := by
  refine ⟨?_, back, touch, ?_⟩
  · simp only [registered, carved.newRecord, leads]
  · intro impossible
    exact absurd impossible Bool.false_ne_true

variable (bsize : ℤ) {mpUsed : EmMpool}

/-- All units of the free record are given away. -/
theorem Chain.grant_exact
    (chain : mm.Chain allocMax regions
      (left ++ before :: ([cell] ++ next :: right)) used free)
    (isFree : cell.ptr = .free address) (unused : newAddress ∉ used)
    (exact : cell.length = blength)
    (held : mpUsed.Holds (usedParams allocMax regions)
      (insert newAddress used)) :
    ((emMallocCarve { mm with memUsedBsize := bsize, mpUsed }
      (.used newAddress) cell.ptr blength).registered
        (.used newAddress)).Chain allocMax regions
      (left ++ before ::
        ([⟨.used newAddress, cell.index, blength⟩] ++ next :: right))
      (insert newAddress used) (free.erase address) := by
  obtain ⟨carvedAlone, freePool⟩ := chain.carved_exact isFree unused exact
  rw [emMallocCarve_handed]
  have carved := carvedAlone.handed bsize mpUsed
  have describes := chain.described cell (by simp)
  have positive : 0 < blength :=
    exact ▸ describes.positive (isBlock_of_free isFree)
  have followed := chain.follows_next
  have nextTaken : next.ptr.isFree = false :=
    followed.apart (isFree_of_free isFree)
  apply chain.splice (chain.keeps_of_carved isFree unused carved)
  · apply List.isChain_cons_cons.mpr
    refine ⟨chain.carved_before isFree carved, ?_⟩
    apply List.isChain_cons_cons.mpr
    refine ⟨carved.beyond rfl ?_ (exact ▸ followed.touch), .singleton next⟩
    intro impossible
    exact absurd (nextTaken.symm.trans impossible) Bool.false_ne_true
  · refine ⟨?_, by simp, ?_, ?_⟩
    · intro inserted member
      cases List.mem_singleton.mp member
      exact carved.describes isFree describes positive
    · intro inserted member
      cases List.mem_singleton.mp member
      exact chain.new_not_mem_kept unused
    · intro inserted member
      cases List.mem_singleton.mp member
      rfl
  · exact held
  · intro other
    simp [isFree, or_comm]
  · simp only [registered]
    rw [freePool]
    exact chain.freeHeld.freeRecord (.inr isFree)
      (chain.mem_free (by simp) isFree)
  · intro other
    simp [isFree, and_comm]

/-- The free record keeps the units behind those given away. -/
theorem Chain.grant_split
    (chain : mm.Chain allocMax regions
      (left ++ before :: ([cell] ++ next :: right)) used free)
    (isFree : cell.ptr = .free address) (unused : newAddress ∉ used)
    (positive : 0 < blength) (longer : blength < cell.length)
    (held : mpUsed.Holds (usedParams allocMax regions)
      (insert newAddress used)) :
    ((emMallocCarve { mm with memUsedBsize := bsize, mpUsed }
      (.used newAddress) cell.ptr blength).registered
        (.used newAddress)).Chain allocMax regions
      (left ++ before ::
        ([⟨.used newAddress, cell.index, blength⟩,
          ⟨.free address, cell.index + blength, cell.length - blength⟩] ++
            next :: right))
      (insert newAddress used) free := by
  obtain ⟨carvedAlone, freePool, restRecord⟩ :=
    chain.carved_split isFree unused longer.ne'
  rw [emMallocCarve_handed, ← isFree]
  have carved := carvedAlone.handed bsize mpUsed
  have describes := chain.described cell (by simp)
  have isBlock := isBlock_of_free isFree
  have followed := chain.follows_next
  have separate := separate_of_nodup chain.nodup
  have nextTaken : next.ptr.isFree = false :=
    followed.apart (isFree_of_free isFree)
  rw [describes.index_eq isBlock, describes.length_eq isBlock] at restRecord
  apply chain.splice (chain.keeps_of_carved isFree unused carved)
  · apply List.isChain_cons_cons.mpr
    refine ⟨chain.carved_before isFree carved, ?_⟩
    apply List.isChain_cons_cons.mpr
    constructor
    · refine carved.beyond rfl ?_ rfl
      intro _
      simp only [restRecord]
    · apply List.isChain_cons_cons.mpr
      refine ⟨⟨?_, ?_, ?_, fun _ => nextTaken⟩, .singleton next⟩
      · simp only [registered, restRecord]
        exact followed.next_eq
      · intro impossible
        exact absurd (nextTaken.symm.trans impossible) Bool.false_ne_true
      · have touch := followed.touch
        simp only
        omega
  · refine ⟨?_, by simp [isFree], ?_, ?_⟩
    · intro inserted member
      rcases List.mem_cons.mp member with rfl | isRest
      · exact carved.describes isFree describes positive
      · cases List.mem_singleton.mp isRest
        apply Describes.of_free (isFree_of_free isFree)
        · have flag := describes.flag
          rw [isFree_of_free isFree] at flag
          simp only [registered, restRecord]
          exact flag
        · simp only [registered, restRecord]
        · simp only [registered, restRecord]
        · exact Int.sub_pos.mpr longer
    · intro inserted member
      rcases List.mem_cons.mp member with rfl | isRest
      · exact chain.new_not_mem_kept unused
      · cases List.mem_singleton.mp isRest
        have gone := separate.not_mem_kept (List.mem_singleton_self cell)
        exact gone
    · intro inserted member
      rcases List.mem_cons.mp member with rfl | isRest
      · rfl
      · cases List.mem_singleton.mp isRest
        exact isBlock
  · exact held
  · intro other
    simp [isFree, or_comm]
  · simp only [registered]
    rw [freePool]
    exact chain.freeHeld
  · intro other
    have live := chain.mem_free (by simp) isFree
    by_cases same : other = address
    · simp [same, isFree, live]
    · simp [same, isFree]

end Grant

end EmMemmng

end EmbeddedMiddle
