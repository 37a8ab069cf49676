import EmbeddedMiddle.List
import EmbeddedMiddle.MempoolAddresses
import EmbeddedMiddle.Foundation.DoublyLinked
import EmbeddedMiddle.Foundation.Transition

/-!
# Lists refine bounded sequences

`EmList.Linked` describes a list by the addresses of its items in order;
`em_list_add` and `em_list_remove_at` append to that list and erase from it.
-/

namespace EmbeddedMiddle

open Foundation

namespace EmList

/-- The same loop from `last` along `back`. -/
def walkBack (li : EmList) : ℕ → Option ℤ
  | 0 => li.last
  | i + 1 =>
      match li.walkBack i with
      | none => none
      | some item => (li.item item).back

def nextOf (li : EmList) (ptr : ℤ) : Option ℤ := (li.item ptr).next

def backOf (li : EmList) (ptr : ℤ) : Option ℤ := (li.item ptr).back

def dataOf (li : EmList) (ptr : ℤ) : ℤ := (li.item ptr).data

variable {li : EmList} {params : PoolParams} {items front rear : List ℤ}
  {del target data : ℤ} {index : ℕ} {change : EmListitem → EmListitem}

theorem walk_eq_follow (steps : ℕ) :
    li.walk steps = follow li.nextOf li.first steps := by
  induction steps with
  | zero => rfl
  | succ steps induction =>
      rw [walk, follow, induction]
      cases follow li.nextOf li.first steps <;> rfl

theorem walkBack_eq_follow (steps : ℕ) :
    li.walkBack steps = follow li.backOf li.last steps := by
  induction steps with
  | zero => rfl
  | succ steps induction =>
      rw [walkBack, follow, induction]
      cases follow li.backOf li.last steps <;> rfl

/-! ## Assignments -/

theorem assign_field {Field : Type} (field : EmListitem → Field) :
    (fun ptr => field ((li.assign target change).item ptr)) =
      Function.update (fun ptr => field (li.item ptr)) target
        (field (change (li.item target))) := by
  funext ptr
  by_cases same : ptr = target
  · simp [same, assign]
  · simp [same, assign]

theorem assign_nextOf : (li.assign target change).nextOf =
    Function.update li.nextOf target (change (li.item target)).next :=
  assign_field EmListitem.next

theorem assign_backOf : (li.assign target change).backOf =
    Function.update li.backOf target (change (li.item target)).back :=
  assign_field EmListitem.back

theorem assign_dataOf : (li.assign target change).dataOf =
    Function.update li.dataOf target (change (li.item target)).data :=
  assign_field EmListitem.data

theorem assign_item_of_ne {ptr : ℤ} (different : ptr ≠ target) :
    (li.assign target change).item ptr = li.item ptr :=
  Function.update_of_ne different ..

/-! ## The well-formed list -/

/-- The items in order; their addresses are the live blocks of the pool. -/
structure Linked (params : PoolParams) (li : EmList) (items : List ℤ) :
    Prop where
  first_eq : li.first = items.head?
  last_eq : li.last = items.getLast?
  linked : Segment li.nextOf li.backOf none items none
  count_eq : li.count = items.length
  nodup : items.Nodup
  held : li.mp.Holds params items.toFinset

namespace Linked

theorem walk (linked : li.Linked params items) (steps : ℕ) :
    li.walk steps = items[steps]? := by
  rw [walk_eq_follow, linked.first_eq, linked.linked.follow_next]

theorem walkBack (linked : li.Linked params items) (steps : ℕ) :
    li.walkBack steps = items.reverse[steps]? := by
  rw [walkBack_eq_follow, linked.last_eq, linked.linked.follow_back]

theorem card_eq (linked : li.Linked params items) :
    items.toFinset.card = items.length :=
  List.toFinset_card_of_nodup linked.nodup

theorem numUsed_eq (linked : li.Linked params items) :
    li.mp.numUsed = li.count := by
  rw [linked.held.numUsed_eq, linked.card_eq, linked.count_eq]

theorem length_le (linked : li.Linked params items) :
    items.length ≤ params.capacity :=
  linked.card_eq ▸ linked.held.card_le

end Linked

/-! ## Adding an item -/

/-- What `em_list_add` writes once it has a block. -/
structure Adds (before : EmList) (new data : ℤ) (mp : EmMpool)
    (after : EmList) : Prop where
  nextOf : after.nextOf =
    redirect (Function.update before.nextOf new none) before.last (some new)
  backOf : after.backOf = Function.update before.backOf new before.last
  dataOf : after.dataOf = Function.update before.dataOf new data
  first : after.first = before.first.or (some new)
  last : after.last = some new
  mp : after.mp = mp
  count : after.count = uint32 (before.count + 1)

theorem add_writes {mp : EmMpool} {new : ℤ}
    (taken : emMpoolAllocBlock li.mp emNoWait = some (some new, mp))
    (ends : li.first = none ↔ li.last = none) :
    ∃ after, emListAdd li data = some (0, after) ∧
      li.Adds new data mp after := by
  rw [emListAdd, taken]
  dsimp only
  cases first : li.first with
  | none =>
      have last := ends.mp first
      refine ⟨_, rfl, ?_, ?_, ?_, ?_, rfl, rfl, rfl⟩
      · rw [last]
        funext ptr
        by_cases same : ptr = new <;> simp [nextOf, assign, redirect, same]
      · rw [last]
        funext ptr
        by_cases same : ptr = new <;> simp [backOf, assign, same]
      · funext ptr
        by_cases same : ptr = new <;> simp [dataOf, assign, same]
      · rw [first]
        rfl
  | some head =>
      obtain ⟨last, isLast⟩ := Option.ne_none_iff_exists'.mp
        (mt ends.mpr (by rw [first]; exact Option.some_ne_none head))
      dsimp only [assign]
      rw [isLast]
      refine ⟨_, rfl, ?_, ?_, ?_, ?_, rfl, rfl, rfl⟩
      · rw [isLast]
        funext ptr
        simp only [nextOf, redirect, Function.update_apply]
        split_ifs <;> simp_all
      · rw [isLast]
        funext ptr
        simp only [backOf, Function.update_apply]
        split_ifs <;> simp_all
      · funext ptr
        simp only [dataOf, Function.update_apply]
        split_ifs <;> simp_all
      · rw [first]
        rfl

theorem Linked.add_full (linked : li.Linked params items)
    (full : items.length = params.capacity) :
    emListAdd li data = some (-1, li) := by
  rw [emListAdd, linked.held.alloc_full (linked.card_eq.trans full)]

theorem Linked.add_room (linked : li.Linked params items)
    (room : items.length < params.capacity) :
    ∃ new after, emListAdd li data = some (0, after) ∧ new ∉ items ∧
      after.dataOf = Function.update li.dataOf new data ∧
      after.Linked params (items ++ [new]) := by
  obtain ⟨new, mp, taken, fresh, held⟩ :=
    linked.held.alloc_room (linked.card_eq.trans_lt room)
  have newItem : new ∉ items := fun among => fresh (List.mem_toFinset.mpr among)
  have ends : li.first = none ↔ li.last = none := by
    rw [linked.first_eq, linked.last_eq, List.head?_eq_none_iff,
      List.getLast?_eq_none_iff]
  obtain ⟨after, called, adds⟩ := @add_writes li data mp new taken ends
  refine ⟨new, after, called, newItem, adds.dataOf, ?_, ?_, ?_, ?_, ?_, ?_⟩
  · rw [adds.first, linked.first_eq, List.head?_append]
    rfl
  · rw [adds.last, List.getLast?_append]
    rfl
  · rw [adds.nextOf, adds.backOf, linked.last_eq]
    exact linked.linked.link_last linked.nodup newItem
  · have bound := linked.held.capacity_le
    rw [semValueMax, intMax] at bound
    rw [adds.count, linked.count_eq, List.length_append, uint32_of_lt]
    · rfl
    · omega
  · exact List.nodup_append.mpr ⟨linked.nodup, List.nodup_singleton new, by
      rintro other among _ (_ | ⟨_, ⟨⟩⟩) rfl
      exact newItem among⟩
  · have finset : (items ++ [new]).toFinset = insert new items.toFinset := by
      ext address
      simp
    rw [adds.mp, finset]
    exact held

/-! ## Removing an item -/

/-- The first `if` of `em_list_remove_at`: what leads to the item. -/
def relinkNext (li : EmList) (back next : Option ℤ) : EmList :=
  match back with
  | none => { li with first := next }
  | some back => li.assign back (fun old => { old with next })

/-- The second `if`: what leads back to it. -/
def relinkBack (li : EmList) (back next : Option ℤ) : EmList :=
  match next with
  | none => { li with last := back }
  | some next => li.assign next (fun old => { old with back })

section Relink

variable {back next : Option ℤ}

theorem relinkNext_nextOf :
    (li.relinkNext back next).nextOf = redirect li.nextOf back next := by
  cases back with
  | none => rfl
  | some back =>
      rw [relinkNext, assign_nextOf]
      rfl

theorem relinkNext_backOf : (li.relinkNext back next).backOf = li.backOf := by
  cases back with
  | none => rfl
  | some back =>
      rw [relinkNext, assign_backOf]
      exact Function.update_eq_self back li.backOf

theorem relinkNext_dataOf : (li.relinkNext back next).dataOf = li.dataOf := by
  cases back with
  | none => rfl
  | some back =>
      rw [relinkNext, assign_dataOf]
      exact Function.update_eq_self back li.dataOf

theorem relinkNext_first : (li.relinkNext back next).first =
    if back = none then next else li.first := by
  cases back <;> rfl

theorem relinkBack_nextOf : (li.relinkBack back next).nextOf = li.nextOf := by
  cases next with
  | none => rfl
  | some next =>
      rw [relinkBack, assign_nextOf]
      exact Function.update_eq_self next li.nextOf

theorem relinkBack_backOf :
    (li.relinkBack back next).backOf = redirect li.backOf next back := by
  cases next with
  | none => rfl
  | some next =>
      rw [relinkBack, assign_backOf]
      rfl

theorem relinkBack_dataOf : (li.relinkBack back next).dataOf = li.dataOf := by
  cases next with
  | none => rfl
  | some next =>
      rw [relinkBack, assign_dataOf]
      exact Function.update_eq_self next li.dataOf

theorem relinkBack_last : (li.relinkBack back next).last =
    if next = none then back else li.last := by
  cases next <;> rfl

theorem relinkNext_rest : (li.relinkNext back next).last = li.last ∧
    (li.relinkNext back next).mp = li.mp ∧
    (li.relinkNext back next).count = li.count := by
  cases back <;> exact ⟨rfl, rfl, rfl⟩

theorem relinkBack_rest : (li.relinkBack back next).first = li.first ∧
    (li.relinkBack back next).mp = li.mp ∧
    (li.relinkBack back next).count = li.count := by
  cases next <;> exact ⟨rfl, rfl, rfl⟩

end Relink

/-- The end of `em_list_remove_at`. -/
def giveBack (li : EmList) (del : ℤ) : EmList :=
  { li with
    mp := (emMpoolFreeBlock li.mp del).2
    count := li.count - 1 }

/-- What `em_list_remove_at` writes once it has found the item. -/
structure Removes (before : EmList) (del : ℤ) (after : EmList) : Prop where
  nextOf : after.nextOf =
    redirect before.nextOf (before.backOf del) (before.nextOf del)
  backOf : after.backOf =
    redirect before.backOf (before.nextOf del) (before.backOf del)
  dataOf : after.dataOf = before.dataOf
  first : after.first =
    if before.backOf del = none then before.nextOf del else before.first
  last : after.last =
    if before.nextOf del = none then before.backOf del else before.last
  mp : after.mp = (emMpoolFreeBlock before.mp del).2
  count : after.count = before.count - 1

/-- The item still leads to its neighbours when the second `if` is taken,
unless it is its own neighbour. -/
theorem removeAt_writes (inside : index < li.count)
    (found : li.walk index = some del) (apart : li.backOf del ≠ some del) :
    ∃ after, emListRemoveAt li index = some (0, after) ∧
      li.Removes del after := by
  have kept : (li.relinkNext (li.backOf del) (li.nextOf del)).item del =
      li.item del := by
    unfold relinkNext
    split
    · rfl
    · next back isBack =>
        exact assign_item_of_ne fun same => apart (same ▸ isBack)
  have taken : emListRemoveAt li index = some (0,
      giveBack ((li.relinkNext (li.backOf del) (li.nextOf del)).relinkBack
        ((li.relinkNext (li.backOf del) (li.nextOf del)).item del).back
        ((li.relinkNext (li.backOf del) (li.nextOf del)).item del).next)
          del) := by
    rw [emListRemoveAt, if_neg (Nat.not_le.mpr inside), found]
    rfl
  rw [kept] at taken
  refine ⟨_, taken, ?_, ?_, ?_, ?_, ?_, ?_, ?_⟩
  · exact relinkBack_nextOf.trans relinkNext_nextOf
  · exact relinkBack_backOf.trans (by rw [relinkNext_backOf]; rfl)
  · exact relinkBack_dataOf.trans relinkNext_dataOf
  · exact relinkBack_rest.1.trans relinkNext_first
  · exact relinkBack_last.trans (by rw [relinkNext_rest.1]; rfl)
  · exact congrArg (fun mp => (emMpoolFreeBlock mp del).2)
      (relinkBack_rest.2.1.trans relinkNext_rest.2.1)
  · exact congrArg (· - 1) (relinkBack_rest.2.2.trans relinkNext_rest.2.2)

theorem Linked.removeAt_outside (linked : li.Linked params items)
    (outside : items.length ≤ index) :
    emListRemoveAt li index = some (-1, li) := by
  rw [emListRemoveAt, if_pos (linked.count_eq.trans_le outside)]

theorem Linked.removeAt_inside
    (linked : li.Linked params (front ++ del :: rear)) :
    ∃ after, emListRemoveAt li front.length = some (0, after) ∧
      after.dataOf = li.dataOf ∧ after.Linked params (front ++ rear) := by
  obtain ⟨frontNodup, tailNodup, frontApart⟩ :=
    List.nodup_append.mp linked.nodup
  obtain ⟨delNew, rearNodup⟩ := List.nodup_cons.mp tailNodup
  obtain ⟨back, next⟩ := linked.linked.links
  rw [Option.or_none] at back next
  have inside : front.length < li.count := by
    rw [linked.count_eq]
    simp
  have found : li.walk front.length = some del := by
    rw [linked.walk]
    simp
  have apart : li.backOf del ≠ some del := by
    rw [back]
    intro same
    exact frontApart del (List.mem_of_getLast? same) del
      (List.mem_cons_self ..) rfl
  obtain ⟨mp, freed, held⟩ := linked.held.free
    (List.mem_toFinset.mpr (List.mem_append_right _ (List.mem_cons_self ..)))
  obtain ⟨after, called, removes⟩ := removeAt_writes inside found apart
  refine ⟨after, called, removes.dataOf, ?_, ?_, ?_, ?_, ?_, ?_⟩
  · rw [removes.first, back, next, linked.first_eq,
      ← Segment.head?_without]
  · rw [removes.last, back, next, linked.last_eq,
      ← Segment.getLast?_without]
  · rw [removes.nextOf, removes.backOf, back, next]
    exact linked.linked.unlink linked.nodup
  · rw [removes.count, linked.count_eq]
    simp
  · exact List.nodup_append.mpr ⟨frontNodup, rearNodup,
      fun left among right member =>
        frontApart left among right (List.mem_cons_of_mem _ member)⟩
  · have finset : (front ++ rear).toFinset =
        (front ++ del :: rear).toFinset.erase del := by
      have delFront : del ∉ front := fun among =>
        frontApart del among del (List.mem_cons_self ..) rfl
      ext address
      by_cases same : address = del
      · simp [same, delFront, delNew]
      · simp [same]
    rw [removes.mp, freed, finset]
    exact held

end EmList

/-! ## The bounded sequence -/

inductive ListCall where
  | add (data : ℤ)
  | removeAt (index : ℕ)

/-- What a list is for: a sequence of at most `capacity` pointers. -/
def sequenceCall (capacity : ℕ) (contents : List ℤ) :
    ListCall → ℤ × List ℤ
  | .add data =>
      if contents.length < capacity then (0, contents ++ [data])
      else (-1, contents)
  | .removeAt index =>
      if index < contents.length then (0, contents.eraseIdx index)
      else (-1, contents)

def SequenceStep (capacity : ℕ) (before : List ℤ) (label : ListCall × ℤ)
    (after : List ℤ) : Prop :=
  sequenceCall capacity before label.1 = (label.2, after)

namespace EmList

def call (li : EmList) : ListCall → Option (ℤ × EmList)
  | .add data => emListAdd li data
  | .removeAt index => emListRemoveAt li index

/-- A call with its return value. -/
def Step (before : EmList) (label : ListCall × ℤ) (after : EmList) : Prop :=
  before.call label.1 = some (label.2, after)

/-- From `first` the sequence is found in order, from `last` in reverse, and
both walks end in NULL after `count` items, which are the distinct live blocks
of the pool. -/
def Shows (li : EmList) (contents : List ℤ) : Prop :=
  ∃ items : List ℤ, items.map li.dataOf = contents ∧
    (∀ steps, li.walk steps = items[steps]?) ∧
    (∀ steps, li.walkBack steps = items.reverse[steps]?) ∧
    items.length = li.count ∧ li.mp.numUsed = li.count ∧ items.Nodup ∧
    ∀ address, address ∈ items ↔ ∃ slot, slot < li.mp.numUsed ∧
      (li.mp.block (li.mp.blockPtr slot)).dataPtr = address

/-- The calls that have to fail. -/
def Refuses (li : EmList) (numMaxItem : ℤ) : ListCall → Prop
  | .add _ => li.count = numMaxItem
  | .removeAt index => li.count ≤ index

variable {li : EmList} {params : PoolParams} {items : List ℤ}

theorem Linked.shows (linked : li.Linked params items) :
    li.Shows (items.map li.dataOf) := by
  refine ⟨items, rfl, linked.walk, linked.walkBack, linked.count_eq.symm,
    linked.numUsed_eq, linked.nodup, ?_⟩
  intro address
  rw [← List.mem_toFinset]
  constructor
  · exact linked.held.exists_slot
  · rintro ⟨slot, live, rfl⟩
    exact linked.held.slot_mem live

/-- A call on the list is the same call on the sequence. -/
theorem Linked.call (linked : li.Linked params items) (called : ListCall) :
    ∃ ret after later, li.call called = some (ret, after) ∧
      sequenceCall params.capacity (items.map li.dataOf) called =
        (ret, later.map after.dataOf) ∧
      after.Linked params later ∧
      (ret ≠ 0 ↔ li.Refuses params.capacity called) ∧
      (ret ≠ 0 → ret = -1 ∧ after = li) := by
  have length := linked.length_le
  cases called with
  | add data =>
      rw [sequenceCall, List.length_map, Refuses, linked.count_eq]
      by_cases room : items.length < params.capacity
      · obtain ⟨new, after, added, fresh, dataOf, kept⟩ :=
          @Linked.add_room _ _ _ data linked room
        refine ⟨0, after, items ++ [new], added, ?_, kept, ?_, by simp⟩
        · have same : items.map (Function.update li.dataOf new data) =
              items.map li.dataOf := by
            refine List.map_congr_left fun other among => ?_
            exact Function.update_of_ne
              (fun equal : other = new => fresh (equal ▸ among)) ..
          rw [if_pos room, dataOf, List.map_append, same]
          simp
        · simp
          omega
      · refine ⟨-1, li, items, linked.add_full (by omega), if_neg room, linked,
          ?_, by simp⟩
        simp
        omega
  | removeAt index =>
      rw [sequenceCall, List.length_map, Refuses, linked.count_eq]
      by_cases inside : index < items.length
      · obtain ⟨front, del, rear, rfl, rfl⟩ :
            ∃ front del rear, items = front ++ del :: rear ∧
              front.length = index :=
          ⟨items.take index, items[index], items.drop (index + 1), by
            rw [← List.drop_eq_getElem_cons inside, List.take_append_drop],
            List.length_take_of_le inside.le⟩
        obtain ⟨after, removed, dataOf, kept⟩ := linked.removeAt_inside
        refine ⟨0, after, front ++ rear, removed, ?_, kept, ?_, by simp⟩
        · rw [if_pos inside, dataOf, List.map_append, List.map_cons,
            List.eraseIdx_append_of_length_le (by simp)]
          simp
        · simp
      · refine ⟨-1, li, items, linked.removeAt_outside (by omega),
          if_neg inside, linked, ?_, by simp⟩
        simp
        omega

end EmList

/-! ## Every run -/

/-- The size of the pool is one of `uint`. -/
theorem emListCreate_linked (memory : EmList) {numMaxItem rawdata : ℤ}
    (nonempty : 1 ≤ numMaxItem)
    (fits : sizeofListitem * numMaxItem < 4294967296) :
    (emListCreate memory numMaxItem rawdata).1 = 0 ∧
      (emListCreate memory numMaxItem rawdata).2.Linked
        ⟨numMaxItem.toNat, sizeofListitem, rawdata⟩ [] := by
  rw [sizeofListitem] at fits
  have bound : numMaxItem ≤ intMax := by
    rw [intMax]
    omega
  have cast : intToUint32 numMaxItem = numMaxItem.toNat := by
    rw [← Int.toNat_of_nonneg (show 0 ≤ numMaxItem by omega)]
    exact intToUint32_natCast (by omega)
  have distinct : PoolParams.Distinct
      ⟨numMaxItem.toNat, sizeofListitem, rawdata⟩ := by
    constructor
    · exact Nat.succ_pos 23
    · change 24 * numMaxItem.toNat < _
      omega
  have created : (emMpoolCreate memory.mp sizeofListitem numMaxItem.toNat
      rawdata).1 = 0 := by
    rw [emMpoolCreate, if_neg]
    rw [sizeofListitem]
    omega
  have accepted : numMaxItem.toNat ≤ semValueMax := by
    rw [semValueMax]
    omega
  have held := emMpoolCreate_holds memory.mp (by omega) accepted distinct
  rw [emListCreate, cast]
  dsimp only
  rw [if_neg (not_not_intro created)]
  exact ⟨rfl, rfl, rfl, trivial, rfl, List.nodup_nil, held⟩

/-- A list is the bounded sequence of the pointers that were added to it, after
every run of calls, and refuses a call without a change. -/
theorem emList_refines_sequence {memory li : EmList}
    {numMaxItem rawdata : ℤ} {labels : List (ListCall × ℤ)}
    (nonempty : 1 ≤ numMaxItem)
    (fits : sizeofListitem * numMaxItem < 4294967296)
    (run : Run EmList.Step (emListCreate memory numMaxItem rawdata).2
      labels li) :
    ∃ contents, Run (SequenceStep numMaxItem.toNat) [] labels contents ∧
      li.Shows contents ∧
      ∀ called, ∃ ret after, li.call called = some (ret, after) ∧
        (ret ≠ 0 ↔ li.Refuses numMaxItem called) ∧
        (ret ≠ 0 → ret = -1 ∧ after = li) := by
  obtain ⟨-, start⟩ := @emListCreate_linked memory _ rawdata nonempty fits
  let Related (li : EmList) (contents : List ℤ) : Prop :=
    ∃ items, li.Linked ⟨numMaxItem.toNat, sizeofListitem, rawdata⟩ items ∧
      items.map li.dataOf = contents
  have simulated : ∃ contents,
      Run (SequenceStep numMaxItem.toNat) [] labels contents ∧
        Related li contents := by
    refine run.simulate Related ⟨[], start, rfl⟩ ?_
    rintro before _ ⟨called, ret⟩ after ⟨items, linked, rfl⟩ taken
    obtain ⟨ret', after', later, called', sequence, kept, -⟩ :=
      linked.call called
    obtain ⟨rfl, rfl⟩ := Prod.mk.inj
      (Option.some.inj (called'.symm.trans taken))
    exact ⟨_, sequence, later, kept, rfl⟩
  obtain ⟨contents, sequence, items, linked, rfl⟩ := simulated
  refine ⟨_, sequence, linked.shows, ?_⟩
  intro called
  obtain ⟨ret, after, -, called', -, -, refuses, unchanged⟩ :=
    linked.call called
  rw [Int.toNat_of_nonneg (by omega)] at refuses
  exact ⟨ret, after, called', refuses, unchanged⟩

/-- Of three items the one in the middle is removed. -/
theorem emList_refines_sequence_three_items :
    ∃ li : EmList, ∃ contents, li.Shows contents ∧
      Run (SequenceStep 3) []
        [(.add 7, 0), (.add 8, 0), (.add 9, 0), (.removeAt 1, 0)] contents := by
  have run : ∃ li, Run EmList.Step (emListCreate default 3 1000).2
      [(.add 7, 0), (.add 8, 0), (.add 9, 0), (.removeAt 1, 0)] li :=
    ⟨_, .cons rfl (.cons rfl (.cons rfl (.cons rfl .nil)))⟩
  obtain ⟨li, run⟩ := run
  obtain ⟨contents, sequence, shows, -⟩ :=
    emList_refines_sequence (by decide) (by decide) run
  exact ⟨li, contents, shows, sequence⟩

end EmbeddedMiddle
