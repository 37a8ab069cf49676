import EmbeddedMiddle.GdatamngRuns
import EmbeddedMiddle.Idatamng

/-!
# Searching a data manager by contents

`em_gdatamng_get_key` and `em_gdatamng_get_key_by_func` go through the live
blocks in the order of `block_ptr`.  The first takes the key with the number of
the slot, the second the key with the number of the block.
-/

namespace EmbeddedMiddle

open Foundation

universe u

variable {Value : Type u}

/-- The contents of the block in slot `i` of `block_ptr`. -/
def EmDatamng.slotData (dm : EmDatamng Value) (i : ℕ) : Value :=
  dm.data (dm.mp.block (dm.mp.blockPtr i)).dataPtr

/-- Slot `i` is the first one with such contents. -/
structure EmDatamng.FirstSlot (dm : EmDatamng Value) (test : Value → Bool)
    (i : ℕ) : Prop where
  live : i < dm.mp.numUsed
  hits : test (dm.slotData i) = true
  first : ∀ j, j < i → test (dm.slotData j) = false

/-- Equality of the bytes of two blocks. -/
def EmDatamng.sameBytes (dm : EmDatamng Bytes) (searchdata data : Bytes) :
    Bool :=
  data.read 0 dm.mp.blockSize = searchdata.read 0 dm.mp.blockSize

/-- The first matching slot holds the block with its own number. -/
def EmDatamng.InPlace (dm : EmDatamng Bytes) (searchdata : Bytes) : Prop :=
  ∀ i, dm.FirstSlot (dm.sameBytes searchdata) i →
    (dm.mp.block (dm.mp.blockPtr i)).index = i

/-! ## The two searches -/

section Searches

variable {dm : EmDatamng Value} {test : Value → Bool}

theorem firstSlot_cases (dm : EmDatamng Value) (test : Value → Bool) :
    (∀ i, i < dm.mp.numUsed → test (dm.slotData i) = false) ∨
      ∃ i, dm.FirstSlot test i := by
  cases found : (List.range dm.mp.numUsed).find?
      (fun i => test (dm.slotData i)) with
  | none =>
      left
      simpa using found
  | some i =>
      right
      obtain ⟨hits, member, first⟩ := List.find?_range_eq_some.mp found
      refine ⟨i, List.mem_range.mp member, hits, ?_⟩
      intro j before
      simpa using first j before

end Searches

section Keys

variable {dm : EmDatamng Bytes} {searchdata : Bytes} {i : ℕ}

theorem memcmp_slot (dm : EmDatamng Bytes) (searchdata : Bytes) (i : ℕ) :
    decide (Bytes.memcmp dm.mp.blockSize
      (dm.data (dm.mp.block (dm.mp.blockPtr i)).dataPtr) searchdata = 0) =
    dm.sameBytes searchdata (dm.slotData i) :=
  decide_eq_decide.mpr Bytes.memcmp_eq_zero_iff

theorem getKey_none
    (misses : ∀ i, i < dm.mp.numUsed →
      dm.sameBytes searchdata (dm.slotData i) = false) :
    emGdatamngGetKey dm searchdata = none := by
  simp only [emGdatamngGetKey, memcmp_slot]
  rw [List.find?_range_eq_none.mpr (by simpa using misses)]

theorem getKey_some (first : dm.FirstSlot (dm.sameBytes searchdata) i) :
    emGdatamngGetKey dm searchdata = some (dm.keycnt i).key := by
  simp only [emGdatamngGetKey, memcmp_slot]
  rw [List.find?_range_eq_some.mpr ⟨first.hits,
    List.mem_range.mpr first.live, by simpa using first.first⟩]

end Keys

namespace EmDatamng.Shows

variable {params : DatamngParams} {dm : EmDatamng Value}
  {set : SparseSet params.pool.capacity}
  {map : CountedMap (List UInt8) Value ℤ params.pool.capacity}
  {test : Value → Bool} {i : ℕ}

theorem slotData_eq (shows : dm.Shows params set map)
    (live : i < dm.mp.numUsed) :
    dm.slotData i = (dm.entryAt params (set.dense i)).value := by
  have settled := shows.represents.settled
  rw [settled.numUsed_eq] at live
  have bound := set.dense_lt i (live.trans_le set.count_le)
  rw [EmDatamng.slotData, settled.blockPtr_eq, settled.address_eq _ bound]
  rfl

theorem keyOf_slotKey (shows : dm.Shows params set map)
    (live : i < dm.mp.numUsed) :
    params.keyOf (dm.slotKey i) = dm.keyAt params (set.dense i) := by
  have shown := shows.represents
  rw [shown.settled.numUsed_eq] at live
  have bound := set.dense_lt i (live.trans_le set.count_le)
  rw [EmDatamng.slotKey, shown.settled.blockPtr_eq,
    shown.settled.index_eq _ bound, shown.key_eq _ bound]
  rfl

/-- What a live slot holds is an entry of the map. -/
theorem slot_entry (shows : dm.Shows params set map)
    (live : i < dm.mp.numUsed) :
    ∃ entry, map.entry (params.keyOf (dm.slotKey i)) = some entry ∧
      entry.value = dm.slotData i := by
  refine ⟨dm.entryAt params (set.dense i), ?_, (shows.slotData_eq live).symm⟩
  rw [shows.keyOf_slotKey live]
  rw [shows.represents.settled.numUsed_eq] at live
  exact shows.entry_eq _ (set.dense_mem_members live)

/-- Every entry of the map lies in a live slot. -/
theorem entry_slot (shows : dm.Shows params set map) {key : List UInt8}
    {entry : CountedEntry Value ℤ} (isEntry : map.entry key = some entry) :
    ∃ i, i < dm.mp.numUsed ∧ dm.slotData i = entry.value := by
  obtain ⟨k, member, _, rfl⟩ := shows.of_entry isEntry
  obtain ⟨bound, live⟩ := SparseSet.mem_members.mp member
  rw [← shows.represents.settled.numUsed_eq] at live
  refine ⟨set.sparse k, live, ?_⟩
  rw [shows.slotData_eq live, set.dense_sparse k bound]

/-- The contents that the loop with a comparator looks at. -/
theorem tested_slot (shows : dm.Shows params set map)
    (live : i < dm.mp.numUsed) :
    dm.data (dm.mp.block (toInt32 (dm.mp.block
      (dm.mp.blockPtr i)).index).toNat).dataPtr = dm.slotData i := by
  have shown := shows.represents
  have inSet : i < set.count := shown.settled.numUsed_eq ▸ live
  rw [EmDatamng.slotData, shown.index_eq inSet, Int.toNat_natCast,
    shown.settled.blockPtr_eq]

theorem dataIndexByFunc_none (shows : dm.Shows params set map)
    (misses : ∀ i, i < dm.mp.numUsed → test (dm.slotData i) = false) :
    emGdatamngGetDataIndexByFunc dm test = -1 := by
  have notFound : (List.range dm.mp.numUsed).find? (fun slot =>
      test (dm.data (dm.mp.block (toInt32 (dm.mp.block
        (dm.mp.blockPtr slot)).index).toNat).dataPtr)) = none := by
    rw [List.find?_eq_none]
    intro slot inRange
    have live := List.mem_range.mp inRange
    rw [shows.tested_slot live, misses slot live]
    exact Bool.false_ne_true
  simp only [emGdatamngGetDataIndexByFunc, notFound]

/-- The number found is that of the block in the first slot that is hit. -/
theorem dataIndexByFunc_some (shows : dm.Shows params set map)
    (first : dm.FirstSlot test i) :
    emGdatamngGetDataIndexByFunc dm test =
      (dm.mp.block (dm.mp.blockPtr i)).index := by
  have found : (List.range dm.mp.numUsed).find? (fun slot =>
      test (dm.data (dm.mp.block (toInt32 (dm.mp.block
        (dm.mp.blockPtr slot)).index).toNat).dataPtr)) = some i := by
    refine List.find?_range_eq_some.mpr
      ⟨?_, List.mem_range.mpr first.live, ?_⟩
    · rw [shows.tested_slot first.live]
      exact first.hits
    · intro j before
      rw [shows.tested_slot (before.trans first.live), first.first j before]
      rfl
  have settled := shows.represents.settled
  have inSet : i < set.count := settled.numUsed_eq ▸ first.live
  have bound := set.dense_lt i (inSet.trans_le set.count_le)
  simp only [emGdatamngGetDataIndexByFunc, found]
  rw [shows.represents.index_eq inSet, settled.blockPtr_eq,
    settled.index_eq _ bound]

theorem getKeyByFunc_none (shows : dm.Shows params set map)
    (misses : ∀ i, i < dm.mp.numUsed → test (dm.slotData i) = false) :
    emGdatamngGetKeyByFunc dm test = none := by
  rw [emGdatamngGetKeyByFunc, shows.dataIndexByFunc_none misses]
  rfl

/-- The search with a comparator takes the key of the block. -/
theorem getKeyByFunc_some (shows : dm.Shows params set map)
    (first : dm.FirstSlot test i) :
    emGdatamngGetKeyByFunc dm test =
      some (dm.keycnt (dm.mp.block (dm.mp.blockPtr i)).index).key := by
  simp only [emGdatamngGetKeyByFunc, shows.dataIndexByFunc_some first,
    Int.natCast_nonneg, ↓reduceIte, Int.toNat_natCast]

end EmDatamng.Shows

/-! ## What is found -/

/-- The search by bytes returns NULL when no entry has these bytes, else the
key of an entry that has them, which is the one that a comparator finds; with
numeric keys the identifier is one under which these bytes are stored. -/
structure EmDatamng.FindsKey (params : DatamngParams) (dm : EmDatamng Bytes)
    (map : CountedMap (List UInt8) Bytes ℤ params.pool.capacity)
    (searchdata : Bytes) : Prop where
  null_iff : emGdatamngGetKey dm searchdata = none ↔
    ∀ key entry, map.entry key = some entry →
      dm.sameBytes searchdata entry.value = false
  entry : ∀ key, emGdatamngGetKey dm searchdata = some key →
    ∃ entry, map.entry (params.keyOf (dm.keymem.shift key)) = some entry ∧
      dm.sameBytes searchdata entry.value = true
  getData : ∀ key, emGdatamngGetKey dm searchdata = some key →
    ∃ data, emGdatamngGetData dm (dm.keymem.shift key) = some data ∧
      dm.sameBytes searchdata data = true
  byFunc : emGdatamngGetKey dm searchdata =
    emGdatamngGetKeyByFunc dm (dm.sameBytes searchdata)
  noId : emGdatamngGetKey dm searchdata = none →
    emIdatamngGetId dm searchdata = emDatamngInvalidId
  getId : params.keyType = .integer → params.keySize = sizeofUlong →
    emGdatamngGetKey dm searchdata ≠ none →
      ∃ data, emIdatamngGetData dm (emIdatamngGetId dm searchdata) =
          some data ∧ dm.sameBytes searchdata data = true

/-- The identifier of a key stands for the same entry. -/
theorem DatamngParams.keyOf_readUlong {params : DatamngParams}
    (keyType : params.keyType = .integer)
    (keySize : params.keySize = sizeofUlong) (memory : Bytes) :
    params.keyOf (ulongBytes (readUlong memory)) = params.keyOf memory := by
  simp only [DatamngParams.keyOf, keyType, keySize]
  exact read_ulongBytes_readUlong memory

namespace EmDatamng.Shows

variable {params : DatamngParams} {dm : EmDatamng Bytes}
  {set : SparseSet params.pool.capacity}
  {map : CountedMap (List UInt8) Bytes ℤ params.pool.capacity}
  {searchdata : Bytes}

/-- NULL is returned in the right cases in every state. -/
theorem getKey_eq_none_iff (shows : dm.Shows params set map)
    (searchdata : Bytes) :
    emGdatamngGetKey dm searchdata = none ↔
      ∀ key entry, map.entry key = some entry →
        dm.sameBytes searchdata entry.value = false := by
  rcases firstSlot_cases dm (dm.sameBytes searchdata) with
    misses | ⟨i, first⟩
  · refine iff_of_true (getKey_none misses) ?_
    intro key entry isEntry
    obtain ⟨slot, live, content⟩ := shows.entry_slot isEntry
    rw [← content]
    exact misses slot live
  · refine iff_of_false ?_ ?_
    · rw [getKey_some first]
      exact Option.some_ne_none _
    · intro never
      obtain ⟨entry, isEntry, content⟩ := shows.slot_entry first.live
      have missed := never _ entry isEntry
      rw [content, first.hits] at missed
      cases missed

/-- In place, the search by bytes takes the key of the block. -/
theorem getKey_eq_byFunc (shows : dm.Shows params set map)
    (inPlace : dm.InPlace searchdata) :
    emGdatamngGetKey dm searchdata =
      emGdatamngGetKeyByFunc dm (dm.sameBytes searchdata) := by
  rcases firstSlot_cases dm (dm.sameBytes searchdata) with
    misses | ⟨i, first⟩
  · rw [getKey_none misses, shows.getKeyByFunc_none misses]
  · rw [getKey_some first, shows.getKeyByFunc_some first, inPlace i first]

/-- The key that a comparator finds is that of an entry with the bytes. -/
theorem byFunc_entry (shows : dm.Shows params set map) {key : ℕ}
    (found : emGdatamngGetKeyByFunc dm (dm.sameBytes searchdata) =
      some key) :
    ∃ entry, map.entry (params.keyOf (dm.keymem.shift key)) = some entry ∧
      dm.sameBytes searchdata entry.value = true := by
  rcases firstSlot_cases dm (dm.sameBytes searchdata) with
    misses | ⟨i, first⟩
  · rw [shows.getKeyByFunc_none misses] at found
    cases found
  · rw [shows.getKeyByFunc_some first] at found
    obtain rfl := Option.some.inj found
    obtain ⟨entry, isEntry, content⟩ := shows.slot_entry first.live
    exact ⟨entry, isEntry, content ▸ first.hits⟩

theorem findsKey (shows : dm.Shows params set map)
    (inPlace : dm.InPlace searchdata) :
    dm.FindsKey params map searchdata := by
  have agree := shows.getKey_eq_byFunc inPlace
  have finds : ∀ key, emGdatamngGetKey dm searchdata = some key →
      ∃ entry, map.entry (params.keyOf (dm.keymem.shift key)) =
          some entry ∧
        dm.sameBytes searchdata entry.value = true :=
    fun key found => shows.byFunc_entry (agree.symm.trans found)
  refine ⟨shows.getKey_eq_none_iff searchdata, finds, ?_, ?_, ?_, ?_⟩
  · intro key found
    obtain ⟨entry, isEntry, same⟩ := finds key found
    refine ⟨entry.value, ?_, same⟩
    rw [shows.getData_eq, isEntry]
    rfl
  · exact agree
  · intro notFound
    rw [emIdatamngGetId, notFound]
  · intro keyType keySize isFound
    obtain ⟨key, found⟩ := Option.ne_none_iff_exists'.mp isFound
    obtain ⟨entry, isEntry, same⟩ := finds key found
    refine ⟨entry.value, ?_, same⟩
    rw [emIdatamngGetData, shows.getData_eq, emIdatamngGetId, found]
    simp only [DatamngParams.keyOf_readUlong keyType keySize, isEntry]
    rfl

end EmDatamng.Shows

/-- After any calls, and for all bytes, the search by bytes finds the key of an
entry with these bytes, if there is one, and what the search with a comparator
finds, when the first matching slot holds the block with its own number. -/
theorem get_key_finds (params : DatamngParams) (valid : params.Valid)
    (memory : EmDatamng Bytes) (keymem : Bytes)
    {calls : List (DatamngCall Bytes)} {dm : EmDatamng Bytes}
    (run : Run EmDatamng.Step (params.create memory keymem) calls dm) :
    ∃ map : CountedMap (List UInt8) Bytes ℤ params.pool.capacity,
      Run (CallStep params) .empty calls map ∧
      ∀ searchdata, dm.InPlace searchdata →
        dm.FindsKey params map searchdata := by
  obtain ⟨map, mapRun, set, shows⟩ := run.simulate
    (fun dm map => ∃ set, dm.Shows params set map)
    (valid.create_shows memory keymem)
    (by
      rintro before map call after ⟨set, shows⟩ taken
      obtain ⟨next, nextMap, step, kept⟩ := shows.step taken
      exact ⟨nextMap, step, next, kept⟩)
  exact ⟨map, mapRun, fun _ inPlace => shows.findsKey inPlace⟩

/-- Two blocks of one byte with keys of one byte. -/
def twoBlocks : DatamngParams := ⟨⟨2, 1, 1000⟩, 1, .integer, .error⟩

theorem twoBlocks_valid : twoBlocks.Valid :=
  ⟨⟨by decide, by decide⟩, by decide, by decide, by decide⟩

theorem get_key_finds_added :
    ∃ dm : EmDatamng Bytes,
      Run EmDatamng.Step (twoBlocks.create default (fun _ => 0))
        [.addData (fun _ => 1) (fun _ => 7) 0] dm ∧
      ∃ map : CountedMap (List UInt8) Bytes ℤ 2,
        dm.FindsKey twoBlocks map (fun _ => 7) := by
  have run : ∃ dm : EmDatamng Bytes, Run EmDatamng.Step
      (twoBlocks.create default (fun _ => 0))
      [.addData (fun _ => 1) (fun _ => 7) 0] dm ∧ dm.mp.numUsed = 1 ∧
      (dm.mp.block (dm.mp.blockPtr 0)).index = 0 :=
    ⟨_, .cons rfl .nil, rfl, rfl⟩
  obtain ⟨dm, run, used, index⟩ := run
  obtain ⟨map, _, finds⟩ :=
    get_key_finds twoBlocks twoBlocks_valid default (fun _ => 0) run
  refine ⟨dm, run, map, finds _ ?_⟩
  intro i first
  have live := first.live
  rw [used, Nat.lt_one_iff] at live
  rw [live, index]

/-- After the first of two keys is removed the search finds the removed key. -/
theorem get_key_finds_removed :
    ¬ ∀ params : DatamngParams, params.Valid →
      ∀ (memory : EmDatamng Bytes) (keymem : Bytes)
        (calls : List (DatamngCall Bytes)) (dm : EmDatamng Bytes),
        Run EmDatamng.Step (params.create memory keymem) calls dm →
          ∃ map : CountedMap (List UInt8) Bytes ℤ params.pool.capacity,
            Run (CallStep params) .empty calls map ∧
              ∀ searchdata, dm.FindsKey params map searchdata := by
  intro always
  have run : ∃ dm : EmDatamng Bytes, Run EmDatamng.Step
      (twoBlocks.create default (fun _ => 0))
      [.addData (fun _ => 1) (fun _ => 7) 0,
        .addData (fun _ => 2) (fun _ => 8) 0,
        .removeData (fun _ => 1) 0] dm ∧
      emGdatamngGetKey dm (fun _ => 8) = some 0 ∧
      (emGdatamngGetData dm (dm.keymem.shift 0)).isSome = false :=
    ⟨_, .cons rfl (.cons rfl (.cons rfl .nil)), by decide +kernel,
      by decide +kernel⟩
  obtain ⟨dm, run, found, gone⟩ := run
  obtain ⟨map, _, finds⟩ :=
    always twoBlocks twoBlocks_valid default (fun _ => 0) _ dm run
  obtain ⟨data, isData, _⟩ := (finds (fun _ => 8)).getData 0 found
  rw [isData] at gone
  cases gone

end EmbeddedMiddle
