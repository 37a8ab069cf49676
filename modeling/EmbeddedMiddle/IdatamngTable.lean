import EmbeddedMiddle.Idatamng
import EmbeddedMiddle.GdatamngRefinement

/-!
# Data managers with numeric keys as tables

In the mode that refuses duplicates a data manager is a partial function from
identifiers to values.
-/

namespace EmbeddedMiddle

open Foundation

universe u

/-- The parameters that `em_idatamng_create` passes on. -/
structure DatamngParams.ForIds (params : DatamngParams) : Prop where
  keySize_eq : params.keySize = sizeofUlong
  keyType_eq : params.keyType = .integer
  duplicateMode_eq : params.duplicateMode = .error

/-- The key of an identifier. -/
abbrev DatamngParams.idKey (params : DatamngParams) (id : UInt64) :
    List UInt8 :=
  params.keyOf (ulongBytes id)

namespace DatamngParams.ForIds

variable {params : DatamngParams}

theorem keyOf_eq (forIds : params.ForIds) (memory : Bytes) :
    params.keyOf memory = memory.read 0 sizeofUlong := by
  rw [DatamngParams.keyOf, forIds.keyType_eq, forIds.keySize_eq]

theorem idKey_injective (forIds : params.ForIds) {left right : UInt64}
    (same : params.idKey left = params.idKey right) : left = right := by
  rw [DatamngParams.idKey, DatamngParams.idKey, forIds.keyOf_eq,
    forIds.keyOf_eq] at same
  exact ulongBytes_injective same

end DatamngParams.ForIds

variable {Value : Type u}

structure EmDatamng.IsTable (params : DatamngParams) (dm : EmDatamng Value)
    (set : SparseSet params.pool.capacity)
    (map : CountedMap (List UInt8) Value ℤ params.pool.capacity)
    (table : UInt64 → Option Value) : Prop where
  forIds : params.ForIds
  shows : dm.Shows params set map
  single : ∀ key entry, map.entry key = some entry →
    entry.count = 1 ∧ ∃ id, key = params.idKey id
  table_eq : ∀ id,
    table id = (map.entry (params.idKey id)).map CountedEntry.value

/-- Every data pointer is still that of its identifier. -/
def EmDatamng.PointersStay (before after : EmDatamng Value) : Prop :=
  ∀ id ptr, emIdatamngGetDataPtr before id = some ptr →
    emIdatamngGetDataPtr after id = some ptr

/-- A data manager that holds the values of a table. -/
def EmDatamng.Table (params : DatamngParams) (dm : EmDatamng Value)
    (table : UInt64 → Option Value) : Prop :=
  ∃ set map, dm.IsTable params set map table

namespace EmDatamng.IsTable

variable {params : DatamngParams} {dm after : EmDatamng Value}
  {set next : SparseSet params.pool.capacity}
  {map : CountedMap (List UInt8) Value ℤ params.pool.capacity}
  {table : UInt64 → Option Value}

theorem missing (isTable : dm.IsTable params set map table) {id : UInt64}
    (unused : table id = none) : params.idKey id ∉ map.keys := by
  rw [isTable.table_eq, Option.map_eq_none_iff] at unused
  exact map.entry_eq_none_iff.mp unused

theorem entry (isTable : dm.IsTable params set map table) {id : UInt64}
    {value : Value} (used : table id = some value) :
    ∃ found, map.entry (params.idKey id) = some found ∧ found.value = value ∧
      found.count = 1 := by
  rw [isTable.table_eq, Option.map_eq_some_iff] at used
  obtain ⟨found, isFound, isValue⟩ := used
  exact ⟨found, isFound, isValue, (isTable.single _ _ isFound).1⟩

/-- The table when the entry of one identifier changes. -/
theorem table_update (isTable : dm.IsTable params set map table)
    (id : UInt64) (entry : Option (CountedEntry Value ℤ)) (other : UInt64) :
    Function.update table id (entry.map CountedEntry.value) other =
      (if params.idKey other = params.idKey id then entry
        else map.entry (params.idKey other)).map CountedEntry.value := by
  by_cases same : other = id
  · subst same
    rw [Function.update_self, if_pos rfl]
  · rw [Function.update_of_ne same,
      if_neg (fun keys => same (isTable.forIds.idKey_injective keys))]
    exact isTable.table_eq other

/-- The same identifier gets another value. -/
theorem write (isTable : dm.IsTable params set map table) {id : UInt64}
    {found : CountedEntry Value ℤ}
    (isFound : map.entry (params.idKey id) = some found) (value : Value) :
    EmDatamng.Table params
      { dm with data := Function.update dm.data found.place value }
      (Function.update table id (some value)) := by
  have present := map.mem_keys_of_entry isFound
  refine ⟨set, _, isTable.forIds,
    isTable.shows.write present isFound value, ?_, ?_⟩
  · intro key entry isEntry
    rw [map.entry_set] at isEntry
    split_ifs at isEntry with same
    · cases isEntry
      exact ⟨(isTable.single _ _ isFound).1, id, same⟩
    · exact isTable.single key entry isEntry
  · intro other
    rw [map.entry_set]
    exact isTable.table_update id (some { found with value }) other

end EmDatamng.IsTable

namespace EmDatamng.Table

variable {params : DatamngParams} {dm : EmDatamng Value}
  {table : UInt64 → Option Value}

/-! ## Lookups -/

theorem getData_eq (holds : dm.Table params table) (id : UInt64) :
    emIdatamngGetData dm id = table id := by
  obtain ⟨set, map, isTable⟩ := holds
  rw [emIdatamngGetData, isTable.shows.getData_eq, isTable.table_eq]

theorem getDataPtr_none (holds : dm.Table params table) {id : UInt64}
    (unused : table id = none) : emIdatamngGetDataPtr dm id = none := by
  obtain ⟨set, map, isTable⟩ := holds
  rw [emIdatamngGetDataPtr, isTable.shows.getDataPtr_eq,
    map.entry_eq_none_iff.mpr (isTable.missing unused), Option.map_none]

/-- Through the data pointer of an identifier its value can be read and
replaced. -/
theorem getDataPtr_some (holds : dm.Table params table) {id : UInt64}
    {value : Value} (used : table id = some value) :
    ∃ ptr, emIdatamngGetDataPtr dm id = some ptr ∧ dm.data ptr = value ∧
      ∀ new, EmDatamng.Table params
        { dm with data := Function.update dm.data ptr new }
        (Function.update table id (some new)) := by
  obtain ⟨set, map, isTable⟩ := holds
  obtain ⟨found, isFound, rfl, _⟩ := isTable.entry used
  have present := map.mem_keys_of_entry isFound
  have pointer : emIdatamngGetDataPtr dm id = some found.place := by
    rw [emIdatamngGetDataPtr, isTable.shows.getDataPtr_eq, isFound,
      Option.map_some]
  have content : dm.data found.place = found.value := by
    have isData := isTable.shows.getData_eq (ulongBytes id)
    rw [isFound, emGdatamngGetData] at isData
    rw [emIdatamngGetDataPtr] at pointer
    rw [pointer] at isData
    exact Option.some.inj isData
  exact ⟨found.place, pointer, content, isTable.write isFound⟩

/-- The key that a search by contents finds is that of an entry with such
contents, if there is one. -/
theorem getIdByFunc_cases (holds : dm.Table params table)
    (comparator : Value → Bool) :
    (emIdatamngGetIdByFunc dm comparator = emDatamngInvalidId ∧
        ∀ id value, table id = some value → comparator value = false) ∨
      ∃ id value, table id = some value ∧ comparator value = true ∧
        emIdatamngGetIdByFunc dm comparator = id := by
  obtain ⟨set, map, isTable⟩ := holds
  rcases isTable.shows.getKeyByFunc_cases comparator with
    ⟨notFound, misses⟩ | ⟨k, member, found, hits⟩
  · refine .inl ⟨by rw [emIdatamngGetIdByFunc, notFound], ?_⟩
    intro id value used
    obtain ⟨entry, isEntry, rfl, _⟩ := isTable.entry used
    exact misses _ _ isEntry
  · have isEntry := isTable.shows.entry_eq k member
    obtain ⟨_, id, hasKey⟩ := isTable.single _ _ isEntry
    refine .inr ⟨id, dm.data (params.pool.address k), ?_, hits, ?_⟩
    · rw [isTable.table_eq, ← hasKey, isEntry]
      rfl
    · rw [EmDatamng.keyAt, isTable.forIds.keyOf_eq,
        DatamngParams.idKey, isTable.forIds.keyOf_eq] at hasKey
      rw [emIdatamngGetIdByFunc, found]
      exact readUlong_of_read hasKey

/-! ## Adding and removing -/

theorem addData_room (holds : dm.Table params table) {id : UInt64}
    (unused : table id = none) (room : dm.mp.numUsed ≠ dm.mp.numMax)
    (value : Value) :
    ∃ after, emIdatamngAddData dm id value = (0, after) ∧
      after.Table params (Function.update table id (some value)) ∧
      dm.PointersStay after := by
  obtain ⟨set, map, isTable⟩ := holds
  have shows := isTable.shows
  have settled := shows.represents.settled
  have below : map.keys.card < params.pool.capacity := by
    rw [settled.numUsed_eq, settled.numMax_eq, ← shows.card_eq] at room
    exact lt_of_le_of_ne map.bounded room
  have missing : params.idKey id ∉ map.keys :=
    isTable.missing unused
  obtain ⟨_, after, place, called, _, kept⟩ :=
    shows.addData_room missing below value
  refine ⟨after, called, ⟨_, _, isTable.forIds, kept, ?_, ?_⟩, ?_⟩
  · intro key entry isEntry
    rw [map.entry_insert] at isEntry
    split_ifs at isEntry with same
    · cases isEntry
      exact ⟨rfl, id, same⟩
    · exact isTable.single key entry isEntry
  · intro other
    rw [map.entry_insert]
    exact isTable.table_update id (some ⟨value, 1, place⟩) other
  · intro other ptr pointer
    rw [emIdatamngGetDataPtr, shows.getDataPtr_eq] at pointer
    rw [emIdatamngGetDataPtr, kept.getDataPtr_eq, map.entry_insert, if_neg]
    · exact pointer
    · intro same
      change params.idKey other = params.idKey id at same
      change (map.entry (params.idKey other)).map _ = _ at pointer
      rw [same, map.entry_eq_none_iff.mpr missing] at pointer
      cases pointer

theorem addData_full (holds : dm.Table params table) {id : UInt64}
    (unused : table id = none) (full : dm.mp.numUsed = dm.mp.numMax)
    (value : Value) : emIdatamngAddData dm id value = (-1, dm) := by
  obtain ⟨set, map, isTable⟩ := holds
  have shows := isTable.shows
  have settled := shows.represents.settled
  rw [settled.numUsed_eq, settled.numMax_eq, ← shows.card_eq] at full
  exact shows.addData_full (isTable.missing unused) full value

theorem removeData_used (holds : dm.Table params table) {id : UInt64}
    {value : Value} (used : table id = some value) :
    ∃ after, emIdatamngRemoveData dm id = (0, after) ∧
      after.Table params (Function.update table id none) := by
  obtain ⟨set, map, isTable⟩ := holds
  obtain ⟨found, isFound, _, single⟩ := isTable.entry used
  have isEntry : map.entry (params.idKey id) = some found :=
    isFound
  obtain ⟨after, next, called, kept⟩ :=
    isTable.shows.removeData_deleted isEntry single
  refine ⟨after, called, next, _, isTable.forIds, kept, ?_, ?_⟩
  · intro key entry isEntry
    rw [map.entry_erase] at isEntry
    split_ifs at isEntry
    exact isTable.single key entry isEntry
  · intro other
    rw [map.entry_erase]
    exact isTable.table_update id none other

theorem removeData_unused (holds : dm.Table params table) {id : UInt64}
    (unused : table id = none) : emIdatamngRemoveData dm id = (-1, dm) := by
  obtain ⟨set, map, isTable⟩ := holds
  exact isTable.shows.removeData_missing (isTable.missing unused)

end EmDatamng.Table

/-! ## Creation -/

theorem DatamngParams.Valid.created_table {params : DatamngParams}
    (valid : params.Valid) (forIds : params.ForIds)
    (memory : EmDatamng Value) (keymem : Bytes) :
    EmDatamng.Table params
      (emIdatamngCreate memory params.pool.blockSize params.pool.capacity
        .error keymem params.pool.rawdata) (fun _ => none) := by
  obtain ⟨set, shows⟩ := valid.create_shows memory keymem
  rw [DatamngParams.create, forIds.keyType_eq, forIds.keySize_eq,
    forIds.duplicateMode_eq] at shows
  refine ⟨set, .empty, forIds, shows, ?_, ?_⟩
  · intro key entry isEntry
    cases isEntry
  · intro id
    rfl

end EmbeddedMiddle
