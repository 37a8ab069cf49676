import EmbeddedMiddle.GdatamngSearch

/-!
# Going through a data manager

The entries of a data manager can be read one by one, in the order of
`block_ptr`, and searched with a comparator.  Both lead from the number of a
block to its key and from the block to its data, so the two belong together.
-/

namespace EmbeddedMiddle

open Foundation

universe u

variable {Value : Type u}

/-- Index `idx` is read as the pair of pointers `pair`. -/
def EmDatamng.Reads (dm : EmDatamng Value) (idx : ℕ) (pair : EmKeyval) :
    Prop :=
  ∀ dst, emGdatamngGetKeyvalByIdx dm idx (some dst) = (0, some pair)

/-- The indices below `em_gdatamng_get_data_num` are read as the entries, each
with its value, each key under one index; nothing is read beyond them. -/
structure EmDatamng.Enumerates (params : DatamngParams) (dm : EmDatamng Value)
    (map : CountedMap (List UInt8) Value ℤ params.pool.capacity) : Prop where
  dataNum : emGdatamngGetDataNum dm = map.keys.card
  reads : ∀ idx : ℕ, (idx : ℤ) < emGdatamngGetDataNum dm →
    ∃ pair entry, dm.Reads idx pair ∧
      map.entry (params.keyOf (dm.keymem.shift pair.key)) = some entry ∧
      dm.data pair.val = entry.value
  once : ∀ key, key ∈ map.keys →
    ∃! idx, ∃ pair, dm.Reads idx pair ∧
      params.keyOf (dm.keymem.shift pair.key) = key
  fails : ∀ (idx : ℕ) dst, emGdatamngGetDataNum dm ≤ idx →
    emGdatamngGetKeyvalByIdx dm idx dst = (-1, dst)

/-- Both searches fail exactly if the comparator accepts no entry; what they
return otherwise are the key and the value of one entry that it accepts. -/
structure EmDatamng.Searches (params : DatamngParams) (dm : EmDatamng Value)
    (map : CountedMap (List UInt8) Value ℤ params.pool.capacity)
    (comparator : Value → Bool) : Prop where
  noKey : emGdatamngGetKeyByFunc dm comparator = none ↔
    ∀ key entry, map.entry key = some entry → comparator entry.value = false
  noData : emGdatamngGetDataByFunc dm comparator = none ↔
    ∀ key entry, map.entry key = some entry → comparator entry.value = false
  found : ∀ key data, emGdatamngGetKeyByFunc dm comparator = some key →
    emGdatamngGetDataByFunc dm comparator = some data →
      ∃ entry, map.entry (params.keyOf (dm.keymem.shift key)) = some entry ∧
        entry.value = data ∧ comparator data = true

/-- What `dst` held before does not matter. -/
theorem EmDatamng.reads_of_called {dm : EmDatamng Value} {idx : ℕ}
    {dst pair : EmKeyval}
    (called : emGdatamngGetKeyvalByIdx dm idx (some dst) = (0, some pair)) :
    dm.Reads idx pair := by
  intro other
  simp only [emGdatamngGetKeyvalByIdx] at called ⊢
  split_ifs at called ⊢ with beyond
  · cases (Prod.mk.inj called).1
  · exact called

namespace EmDatamng.Shows

variable {params : DatamngParams} {dm : EmDatamng Value}
  {set : SparseSet params.pool.capacity}
  {map : CountedMap (List UInt8) Value ℤ params.pool.capacity}
  {test : Value → Bool} {i : ℕ}

/-! ## Enumeration -/

theorem dataNum_eq (shows : dm.Shows params set map) :
    emGdatamngGetDataNum dm = dm.mp.numUsed := by
  have settled := shows.represents.settled
  have bound := set.count_le.trans settled.capacity_le
  rw [emGdatamngGetDataNum, settled.numUsed_eq]
  exact toInt32_natCast bound

/-- The pair in a live slot: the key of the block there and its data. -/
theorem reads_slot (shows : dm.Shows params set map)
    (live : i < dm.mp.numUsed) :
    ∃ pair, dm.Reads i pair ∧ dm.keymem.shift pair.key = dm.slotKey i ∧
      dm.data pair.val = dm.slotData i := by
  have settled := shows.represents.settled
  have inSet : i < set.count := settled.numUsed_eq ▸ live
  have bound := set.dense_lt i (inSet.trans_le set.count_le)
  have index := shows.represents.index_eq inSet
  refine ⟨⟨(dm.keycnt (set.dense i)).key,
    (dm.mp.block (dm.mp.blockPtr i)).dataPtr⟩, ?_, ?_, rfl⟩
  · intro dst
    simp only [emGdatamngGetKeyvalByIdx, Nat.not_le_of_lt live, ↓reduceIte,
      index, Int.toNat_natCast]
  · rw [EmDatamng.slotKey, settled.blockPtr_eq, settled.index_eq _ bound]

theorem live_of_reads (shows : dm.Shows params set map) {pair : EmKeyval}
    (reads : dm.Reads i pair) :
    i < dm.mp.numUsed ∧ dm.keymem.shift pair.key = dm.slotKey i := by
  by_cases live : i < dm.mp.numUsed
  · obtain ⟨other, otherReads, key, _⟩ := shows.reads_slot live
    have same := (otherReads default).symm.trans (reads default)
    obtain rfl := Option.some.inj (Prod.mk.inj same).2
    exact ⟨live, key⟩
  · have failed := reads default
    simp only [emGdatamngGetKeyvalByIdx, Nat.not_lt.mp live,
      ↓reduceIte] at failed
    cases (Prod.mk.inj failed).1

/-- A key lies in one slot. -/
theorem key_slot (shows : dm.Shows params set map) {key : List UInt8}
    (present : key ∈ map.keys) :
    ∃ i, i < dm.mp.numUsed ∧ params.keyOf (dm.slotKey i) = key := by
  obtain ⟨k, member, rfl⟩ := shows.mem_keys.mp present
  obtain ⟨bound, live⟩ := SparseSet.mem_members.mp member
  rw [← shows.represents.settled.numUsed_eq] at live
  refine ⟨set.sparse k, live, ?_⟩
  rw [shows.keyOf_slotKey live, set.dense_sparse k bound]

theorem slot_unique (shows : dm.Shows params set map) {left right : ℕ}
    (leftLive : left < dm.mp.numUsed) (rightLive : right < dm.mp.numUsed)
    (same : params.keyOf (dm.slotKey left) =
      params.keyOf (dm.slotKey right)) : left = right := by
  have shown := shows.represents
  apply shown.slotKey_injective leftLive rightLive
  rw [shown.keyType_eq, shown.keySize_eq]
  exact (emGdatamngKeycmp_eq_zero_iff params _ _).mpr same

theorem enumerates (shows : dm.Shows params set map) :
    dm.Enumerates params map := by
  have isNum := shows.dataNum_eq
  constructor
  · rw [isNum, shows.card_eq, shows.represents.settled.numUsed_eq]
  · intro idx below
    rw [isNum] at below
    have live : idx < dm.mp.numUsed := by omega
    obtain ⟨pair, reads, key, value⟩ := shows.reads_slot live
    obtain ⟨entry, isEntry, same⟩ := shows.slot_entry live
    refine ⟨pair, entry, reads, ?_, value.trans same.symm⟩
    rw [key]
    exact isEntry
  · intro key present
    obtain ⟨i, live, rfl⟩ := shows.key_slot present
    obtain ⟨pair, reads, key, _⟩ := shows.reads_slot live
    refine ⟨i, ⟨pair, reads, by rw [key]⟩, ?_⟩
    rintro other ⟨otherPair, otherReads, same⟩
    obtain ⟨otherLive, otherKey⟩ := shows.live_of_reads otherReads
    rw [otherKey] at same
    exact shows.slot_unique otherLive live same
  · intro idx dst beyond
    rw [isNum] at beyond
    cases dst with
    | none => rfl
    | some dst =>
        have behind : dm.mp.numUsed ≤ idx := by omega
        simp only [emGdatamngGetKeyvalByIdx, behind, ↓reduceIte]

/-! ## Search -/

theorem getDataByFunc_none (shows : dm.Shows params set map)
    (misses : ∀ i, i < dm.mp.numUsed → test (dm.slotData i) = false) :
    emGdatamngGetDataByFunc dm test = none := by
  rw [emGdatamngGetDataByFunc, shows.dataIndexByFunc_none misses]
  rfl

/-- The search for data takes the data of the block. -/
theorem getDataByFunc_some (shows : dm.Shows params set map)
    (first : dm.FirstSlot test i) :
    emGdatamngGetDataByFunc dm test = some (dm.slotData i) := by
  have settled := shows.represents.settled
  have inSet : i < set.count := settled.numUsed_eq ▸ first.live
  have bound := set.dense_lt i (inSet.trans_le set.count_le)
  simp only [emGdatamngGetDataByFunc, shows.dataIndexByFunc_some first,
    Int.natCast_nonneg, ↓reduceIte, Int.toNat_natCast, EmDatamng.slotData]
  rw [settled.blockPtr_eq, settled.index_eq _ bound]

theorem searches (shows : dm.Shows params set map) (test : Value → Bool) :
    dm.Searches params map test := by
  rcases firstSlot_cases dm test with misses | ⟨i, first⟩
  · have never : ∀ key entry, map.entry key = some entry →
        test entry.value = false := by
      intro key entry isEntry
      obtain ⟨slot, live, content⟩ := shows.entry_slot isEntry
      rw [← content]
      exact misses slot live
    refine ⟨iff_of_true (shows.getKeyByFunc_none misses) never,
      iff_of_true (shows.getDataByFunc_none misses) never, ?_⟩
    intro key data found
    rw [shows.getKeyByFunc_none misses] at found
    cases found
  · obtain ⟨entry, isEntry, content⟩ := shows.slot_entry first.live
    have notNever : ¬ ∀ key entry, map.entry key = some entry →
        test entry.value = false := by
      intro never
      have missed := never _ entry isEntry
      rw [content, first.hits] at missed
      cases missed
    have key := shows.getKeyByFunc_some first
    have data := shows.getDataByFunc_some first
    refine ⟨iff_of_false ?_ notNever, iff_of_false ?_ notNever, ?_⟩
    · rw [key]
      exact Option.some_ne_none _
    · rw [data]
      exact Option.some_ne_none _
    · intro otherKey otherData foundKey foundData
      rw [key] at foundKey
      rw [data] at foundData
      obtain rfl := Option.some.inj foundKey
      obtain rfl := Option.some.inj foundData
      exact ⟨entry, isEntry, content, first.hits⟩

end EmDatamng.Shows

/-- After any calls the entries are enumerated, and found with every
comparator, if no product overflowed at the creation. -/
theorem datamng_enumerated_and_searched (params : DatamngParams)
    (valid : params.Valid) (memory : EmDatamng Value) (keymem : Bytes)
    {calls : List (DatamngCall Value)} {dm : EmDatamng Value}
    (run : Run EmDatamng.Step (params.create memory keymem) calls dm) :
    ∃ map : CountedMap (List UInt8) Value ℤ params.pool.capacity,
      Run (CallStep params) .empty calls map ∧
      dm.Enumerates params map ∧
      ∀ comparator, dm.Searches params map comparator := by
  obtain ⟨map, mapRun, set, shows⟩ := run.simulate
    (fun dm map => ∃ set, dm.Shows params set map)
    (valid.create_shows memory keymem)
    (by
      rintro before map call after ⟨set, shows⟩ taken
      obtain ⟨next, nextMap, step, kept⟩ := shows.step taken
      exact ⟨nextMap, step, next, kept⟩)
  exact ⟨map, mapRun, shows.enumerates, shows.searches⟩

/-- Two keys added and the first one removed. -/
theorem datamng_enumerated_and_searched_removed :
    ∃ dm : EmDatamng ℕ,
      Run EmDatamng.Step (twoBlocks.create default (fun _ => 0))
        [.addData (fun _ => 1) 7 0, .addData (fun _ => 2) 8 0,
          .removeData (fun _ => 1) 0] dm ∧
      ∃ map : CountedMap (List UInt8) ℕ ℤ 2,
        dm.Enumerates twoBlocks map ∧
        dm.Searches twoBlocks map (· == 8) := by
  have run : ∃ dm : EmDatamng ℕ,
      Run EmDatamng.Step (twoBlocks.create default (fun _ => 0))
        [.addData (fun _ => 1) 7 0, .addData (fun _ => 2) 8 0,
          .removeData (fun _ => 1) 0] dm :=
    ⟨_, .cons rfl (.cons rfl (.cons rfl .nil))⟩
  obtain ⟨dm, run⟩ := run
  obtain ⟨map, _, enumerates, searches⟩ := datamng_enumerated_and_searched
    twoBlocks twoBlocks_valid default (fun _ => 0) run
  exact ⟨dm, run, map, enumerates, searches _⟩

theorem EmDatamng.step_addData {dm : EmDatamng Value} {key : Bytes}
    {data : Value} {ret : ℤ}
    (returned : (emGdatamngAddData dm key data).1 = ret) :
    dm.Step (.addData key data ret) (emGdatamngAddData dm key data).2 :=
  Prod.ext returned rfl

/-- Three blocks of 2 GiB: the third one has the address of the first, and its
key is written over the first key. -/
theorem datamng_enumerated_overflow :
    ¬ ∀ params : DatamngParams,
      0 < params.pool.blockSize → 0 < params.pool.capacity →
      params.pool.capacity ≤ semValueMax →
      ∀ (memory : EmDatamng ℕ) (keymem : Bytes)
        (calls : List (DatamngCall ℕ)) (dm : EmDatamng ℕ),
        Run EmDatamng.Step (params.create memory keymem) calls dm →
          ∃ map : CountedMap (List UInt8) ℕ ℤ params.pool.capacity,
            Run (CallStep params) .empty calls map ∧
              dm.Enumerates params map := by
  intro always
  let params : DatamngParams :=
    ⟨⟨3, 2147483648, 1000⟩, 1, .integer, .error⟩
  have run : ∃ dm : EmDatamng ℕ,
      Run EmDatamng.Step (params.create default (fun _ => 3))
        [.addData (fun _ => 1) 7 0, .addData (fun _ => 2) 8 0,
          .addData (fun _ => 3) 9 0] dm ∧
      emGdatamngGetDataNum dm = 3 ∧
      emGdatamngGetKeyvalByIdx dm 0 (some default) = (0, some ⟨0, 1000⟩) ∧
      emGdatamngGetKeyvalByIdx dm 2 (some default) = (0, some ⟨2, 1000⟩) ∧
      params.keyOf (dm.keymem.shift 0) = [3] ∧
      params.keyOf (dm.keymem.shift 2) = [3] :=
    ⟨_, .cons (EmDatamng.step_addData (by decide +kernel))
      (.cons (EmDatamng.step_addData (by decide +kernel))
        (.cons (EmDatamng.step_addData (by decide +kernel)) .nil)),
      by decide +kernel, by decide +kernel, by decide +kernel,
      by decide +kernel, by decide +kernel⟩
  obtain ⟨dm, run, num, readsFirst, readsThird, firstKey, thirdKey⟩ := run
  obtain ⟨map, _, enumerates⟩ := always params (by decide) (by decide)
    (by decide) default (fun _ => 3) _ dm run
  obtain ⟨pair, entry, reads, isEntry, _⟩ :=
    enumerates.reads 0 (by rw [num]; decide)
  have present : [3] ∈ map.keys := by
    have same := readsFirst.symm.trans (reads default)
    obtain rfl := Option.some.inj (Prod.mk.inj same).2
    rw [← firstKey]
    exact map.mem_keys_of_entry isEntry
  have same := (enumerates.once [3] present).unique
    ⟨_, EmDatamng.reads_of_called readsFirst, firstKey⟩
    ⟨_, EmDatamng.reads_of_called readsThird, thirdKey⟩
  cases same

end EmbeddedMiddle
