import EmbeddedMiddle.GdatamngRefinement

/-!
# Runs of calls on a data manager

After any sequence of calls a data manager is a map from keys to a value, a
count and a place, and every call of the sequence did to the map what it
returned.
-/

namespace EmbeddedMiddle

open Foundation

universe u

variable {Value : Type u}

/-! ## Calls and what they say -/

/-- A call on a data manager and what it returns; keys are the bytes behind
the pointer that is passed. -/
inductive DatamngCall (Value : Type u) where
  | addData (key : Bytes) (data : Value) (ret : ℤ)
  | removeData (key : Bytes) (ret : ℤ)
  | getData (key : Bytes) (data : Option Value)
  | getDataPtr (key : Bytes) (ptr : Option ℤ)
  | getDataCnt (key : Bytes) (ret : ℤ)

def EmDatamng.Step (before : EmDatamng Value) :
    DatamngCall Value → EmDatamng Value → Prop
  | .addData key data ret, after =>
      emGdatamngAddData before key data = (ret, after)
  | .removeData key ret, after =>
      emGdatamngRemoveData before key = (ret, after)
  | .getData key data, after =>
      emGdatamngGetData before key = data ∧ after = before
  | .getDataPtr key ptr, after =>
      emGdatamngGetDataPtr before key = ptr ∧ after = before
  | .getDataCnt key ret, after =>
      emGdatamngGetDataCnt before key = ret ∧ after = before

/-- What a call with its return value says in terms of the map. -/
inductive DatamngCall.Means (params : DatamngParams) :
    DatamngCall Value → StoreEvent (List UInt8) Value ℤ → Prop
  | addData {key data done} :
      Means params (.addData key data (retOf done))
        (.add (params.keyOf key) data done)
  | removeData {key done} :
      Means params (.removeData key (retOf done))
        (.remove (params.keyOf key) done)
  | getData {key data} :
      Means params (.getData key data) (.getData (params.keyOf key) data)
  | getDataPtr {key ptr} :
      Means params (.getDataPtr key ptr)
        (.getDataPtr (params.keyOf key) ptr)
  | getDataCnt {key} {count : Option ℕ} :
      Means params (.getDataCnt key (count.elim (-1) Nat.cast))
        (.getDataCnt (params.keyOf key) count)

/-- The calls of a data manager as they change a map. -/
def CallStep (params : DatamngParams)
    (before : CountedMap (List UInt8) Value ℤ params.pool.capacity)
    (call : DatamngCall Value)
    (after : CountedMap (List UInt8) Value ℤ params.pool.capacity) : Prop :=
  ∃ event, call.Means params event ∧
    CountedMap.Step params.onDuplicate before event after

namespace EmDatamng.Shows

variable {params : DatamngParams} {dm after : EmDatamng Value}
  {set : SparseSet params.pool.capacity}
  {map : CountedMap (List UInt8) Value ℤ params.pool.capacity}

theorem addData (shows : dm.Shows params set map) (key : Bytes)
    (data : Value) :
    ∃ done after set next,
      emGdatamngAddData dm key data = (retOf done, after) ∧
        CountedMap.Step params.onDuplicate map
          (.add (params.keyOf key) data done) next ∧
        after.Shows params set next := by
  by_cases present : params.keyOf key ∈ map.keys
  · cases mode : params.onDuplicate with
    | reject =>
        exact ⟨false, dm, set, map, shows.addData_rejected present mode data,
          .rejected present rfl, shows⟩
    | replace =>
        obtain ⟨entry, isEntry, called⟩ :=
          shows.addData_replaced present mode data
        exact ⟨true, _, set, _, called, .replaced present isEntry rfl,
          shows.write present isEntry data⟩
    | countUp =>
        obtain ⟨entry, after, isEntry, called, kept⟩ :=
          shows.addData_counted present mode data
        exact ⟨true, after, set, _, called, .counted present isEntry rfl,
          kept⟩
  · rcases map.bounded.lt_or_eq with below | full
    · obtain ⟨room, after, place, called, fresh, kept⟩ :=
        shows.addData_room present below data
      exact ⟨true, after, _, _, called, .insert present below fresh, kept⟩
    · exact ⟨false, dm, set, map, shows.addData_full present full data,
        .full present full, shows⟩

theorem removeData (shows : dm.Shows params set map) (key : Bytes) :
    ∃ done after set next,
      emGdatamngRemoveData dm key = (retOf done, after) ∧
        CountedMap.Step params.onDuplicate map
          (.remove (params.keyOf key) done) next ∧
        after.Shows params set next := by
  by_cases present : params.keyOf key ∈ map.keys
  · obtain ⟨k, _, _, isEntry⟩ := shows.found present
    have positive := map.counted _ _ isEntry
    obtain ⟨count, counted⟩ := Nat.exists_eq_add_of_lt positive
    rw [Nat.zero_add] at counted
    rcases Nat.eq_zero_or_pos count with rfl | remains
    · obtain ⟨after, next, called, kept⟩ :=
        shows.removeData_deleted isEntry counted
      exact ⟨true, after, next, _, called, .deleted isEntry counted, kept⟩
    · obtain ⟨after, called, kept⟩ :=
        shows.removeData_decremented present isEntry remains counted
      exact ⟨true, after, set, _, called,
        .decremented present remains isEntry counted, kept⟩
  · exact ⟨false, dm, set, map, shows.removeData_missing present,
      .missing present, shows⟩

/-- Every call does to the map what it returns. -/
theorem step (shows : dm.Shows params set map) {call : DatamngCall Value}
    (taken : dm.Step call after) :
    ∃ next nextMap, CallStep params map call nextMap ∧
      after.Shows params next nextMap := by
  cases call with
  | addData key data ret =>
      obtain ⟨done, reached, next, nextMap, called, step, kept⟩ :=
        shows.addData key data
      obtain ⟨rfl, rfl⟩ := Prod.mk.inj (called.symm.trans taken)
      exact ⟨next, nextMap, ⟨_, .addData, step⟩, kept⟩
  | removeData key ret =>
      obtain ⟨done, reached, next, nextMap, called, step, kept⟩ :=
        shows.removeData key
      obtain ⟨rfl, rfl⟩ := Prod.mk.inj (called.symm.trans taken)
      exact ⟨next, nextMap, ⟨_, .removeData, step⟩, kept⟩
  | getData key data =>
      obtain ⟨rfl, rfl⟩ := taken
      rw [shows.getData_eq]
      exact ⟨set, map, ⟨_, .getData, .getData⟩, shows⟩
  | getDataPtr key ptr =>
      obtain ⟨rfl, rfl⟩ := taken
      rw [shows.getDataPtr_eq]
      exact ⟨set, map, ⟨_, .getDataPtr, .getDataPtr⟩, shows⟩
  | getDataCnt key ret =>
      obtain ⟨rfl, rfl⟩ := taken
      rw [shows.getDataCnt_eq]
      exact ⟨set, map, ⟨_, .getDataCnt, .getDataCnt⟩, shows⟩

end EmDatamng.Shows

/-! ## Facts about every state -/

/-- The key bytes of the block in slot `i` of `block_ptr`. -/
def EmDatamng.slotKey (dm : EmDatamng Value) (i : ℕ) : Bytes :=
  dm.keymem.shift (dm.keycnt (dm.mp.block (dm.mp.blockPtr i)).index).key

theorem EmDatamng.Represents.slotKey_injective {params : DatamngParams}
    {dm : EmDatamng Value} {set : SparseSet params.pool.capacity}
    (shown : dm.Represents params set) {i j : ℕ} (iLive : i < dm.mp.numUsed)
    (jLive : j < dm.mp.numUsed)
    (same : emGdatamngKeycmp dm.keyType (dm.slotKey i) (dm.slotKey j)
      dm.keySize = 0) : i = j := by
  rw [shown.settled.numUsed_eq] at iLive jLive
  have inBounds : ∀ slot, slot < set.count →
      slot < params.pool.capacity :=
    fun slot live => live.trans_le set.count_le
  have keys : ∀ slot, slot < set.count →
      params.keyOf (dm.slotKey slot) = dm.keyAt params (set.dense slot) := by
    intro slot live
    have bound := set.dense_lt slot (inBounds slot live)
    rw [EmDatamng.slotKey, shown.settled.blockPtr_eq,
      shown.settled.index_eq _ bound, shown.key_eq _ bound]
    rfl
  rw [shown.keyType_eq, shown.keySize_eq, emGdatamngKeycmp_eq_zero_iff,
    keys i iLive, keys j jLive] at same
  exact set.dense_injective (inBounds i iLive) (inBounds j jLive)
    (shown.unique _ (set.dense_mem_members iLive) _
      (set.dense_mem_members jLive) same)

/-- A step that leaves `key` present. -/
def EmDatamng.StepKeeping (key : Bytes) (before : EmDatamng Value)
    (call : DatamngCall Value) (after : EmDatamng Value) : Prop :=
  before.Step call after ∧ emGdatamngGetDataPtr after key ≠ none

theorem EmDatamng.Shows.place_kept {params : DatamngParams}
    {before after : EmDatamng Value} {set : SparseSet params.pool.capacity}
    {map : CountedMap (List UInt8) Value ℤ params.pool.capacity} {key : Bytes}
    {call : DatamngCall Value} {place : ℤ}
    (shows : before.Shows params set map)
    (placed : emGdatamngGetDataPtr before key = some place)
    (taken : before.StepKeeping key call after) :
    ∃ next nextMap, after.Shows params next nextMap ∧
      emGdatamngGetDataPtr after key = some place := by
  obtain ⟨taken, kept⟩ := taken
  obtain ⟨next, nextMap, ⟨event, _, step⟩, afterShows⟩ := shows.step taken
  obtain ⟨newPlace, isNew⟩ := Option.ne_none_iff_exists'.mp kept
  refine ⟨next, nextMap, afterShows, ?_⟩
  rw [isNew]
  rw [shows.getDataPtr_eq, Option.map_eq_some_iff] at placed
  rw [afterShows.getDataPtr_eq, Option.map_eq_some_iff] at isNew
  obtain ⟨old, isOld, rfl⟩ := placed
  obtain ⟨new, isNew, rfl⟩ := isNew
  rw [step.place_eq isOld isNew]

/-- After any calls a data manager is a map from keys to a value, a count and a
place: every call did to the map what it returned, the live blocks have
different keys, the lookups read the map, and as long as a key is present its
data pointer stays. -/
theorem datamng_is_counted_map (params : DatamngParams) (valid : params.Valid)
    (memory : EmDatamng Value) (keymem : Bytes)
    {calls : List (DatamngCall Value)} {dm : EmDatamng Value}
    (run : Run EmDatamng.Step (params.create memory keymem) calls dm) :
    ∃ map : CountedMap (List UInt8) Value ℤ params.pool.capacity,
      Run (CallStep params) .empty calls map ∧
      (∀ i j, i < dm.mp.numUsed → j < dm.mp.numUsed →
        emGdatamngKeycmp dm.keyType (dm.slotKey i) (dm.slotKey j)
          dm.keySize = 0 → i = j) ∧
      (∀ key,
        emGdatamngGetData dm key =
            (map.entry (params.keyOf key)).map CountedEntry.value ∧
          emGdatamngGetDataPtr dm key =
            (map.entry (params.keyOf key)).map CountedEntry.place ∧
          emGdatamngGetDataCnt dm key =
            ((map.entry (params.keyOf key)).map CountedEntry.count).elim (-1)
              Nat.cast) ∧
      (∀ key place later after,
        emGdatamngGetDataPtr dm key = some place →
        Run (EmDatamng.StepKeeping key) dm later after →
          emGdatamngGetDataPtr after key = some place) := by
  obtain ⟨map, mapRun, set, shows⟩ := run.simulate
    (fun dm map => ∃ set, dm.Shows params set map)
    (valid.create_shows memory keymem)
    (by
      rintro before map call after ⟨set, shows⟩ taken
      obtain ⟨next, nextMap, step, kept⟩ := shows.step taken
      exact ⟨nextMap, step, next, kept⟩)
  refine ⟨map, mapRun, ?_, ?_, ?_⟩
  · intro i j iLive jLive same
    exact shows.represents.slotKey_injective iLive jLive same
  · intro key
    exact ⟨shows.getData_eq key, shows.getDataPtr_eq key,
      shows.getDataCnt_eq key⟩
  · intro key place later after placed laterRun
    obtain ⟨_, _, _, kept⟩ := laterRun.invariant
      (fun dm => ∃ set map, dm.Shows params set map ∧
        emGdatamngGetDataPtr dm key = some place)
      ⟨set, map, shows, placed⟩
      (by
        rintro before call after ⟨_, _, shows, placed⟩ taken
        exact shows.place_kept placed taken)
    exact kept

theorem datamng_is_counted_map_four_calls :
    ∃ map : CountedMap (List UInt8) ℕ ℤ 1,
      Run (CallStep ⟨⟨1, 4, 1000⟩, 2, .string, .countup⟩) .empty
        [.addData (fun _ => 0) 7 0, .addData (fun _ => 1) 8 (-1),
          .addData (fun i => if i = 0 then 0 else 5) 9 0,
          .getDataCnt (fun _ => 0) 2] map := by
  have run : ∃ dm, Run EmDatamng.Step
      (DatamngParams.create ⟨⟨1, 4, 1000⟩, 2, .string, .countup⟩
        (default : EmDatamng ℕ) (fun _ => 0))
      [.addData (fun _ => 0) 7 0, .addData (fun _ => 1) 8 (-1),
        .addData (fun i => if i = 0 then 0 else 5) 9 0,
        .getDataCnt (fun _ => 0) 2] dm :=
    ⟨_, .cons rfl (.cons rfl (.cons rfl (.cons ⟨rfl, rfl⟩ .nil)))⟩
  obtain ⟨dm, run⟩ := run
  obtain ⟨map, mapRun, _⟩ := datamng_is_counted_map
    ⟨⟨1, 4, 1000⟩, 2, .string, .countup⟩
    ⟨⟨by decide, by decide⟩, by decide, by decide, by decide⟩ default
    (fun _ => 0) run
  exact ⟨map, mapRun⟩

end EmbeddedMiddle
