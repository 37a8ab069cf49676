import EmbeddedMiddle.Gdatamng
import EmbeddedMiddle.MempoolAddresses
import EmbeddedMiddle.Foundation.CountedMap

/-!
# Data managers refine bounded maps with reference counts

The key of a block is what the comparison looks at in its part of `keymem`.
The live blocks have different keys, so a data manager is a map from keys to
the contents, the count and the address of a block.
-/

namespace EmbeddedMiddle

open Foundation

universe u

/-- What a data manager keeps from its creation on. -/
structure DatamngParams where
  pool : PoolParams
  keySize : ℕ
  keyType : KeyType
  duplicateMode : DuplicateMode

/-- The key that a caller's bytes stand for: a string ends at its NUL. -/
def DatamngParams.keyOf (params : DatamngParams) (key : Bytes) : List UInt8 :=
  match params.keyType with
  | .string => key.cString params.keySize
  | _ => key.read 0 params.keySize

def DatamngParams.onDuplicate (params : DatamngParams) : OnDuplicate :=
  match params.duplicateMode with
  | .error => .reject
  | .update => .replace
  | .countup => .countUp
  | .other => .reject

theorem emGdatamngKeycmp_eq_zero_iff (params : DatamngParams)
    (s1 s2 : Bytes) :
    emGdatamngKeycmp params.keyType s1 s2 params.keySize = 0 ↔
      params.keyOf s1 = params.keyOf s2 := by
  unfold emGdatamngKeycmp DatamngParams.keyOf
  cases params.keyType with
  | string => exact Bytes.strncmp_eq_zero_iff
  | integer => exact Bytes.memcmp_eq_zero_iff
  | other => exact Bytes.memcmp_eq_zero_iff

/-- A key depends on the bytes of its own range only. -/
theorem DatamngParams.keyOf_congr (params : DatamngParams) {left right : Bytes}
    (same : left.read 0 params.keySize = right.read 0 params.keySize) :
    params.keyOf left = params.keyOf right := by
  unfold DatamngParams.keyOf Bytes.cString
  rw [same]

/-- Copying a key into its slot. -/
theorem DatamngParams.keyOf_copy_self (params : DatamngParams)
    (keymem key : Bytes) (k : ℕ) :
    params.keyOf ((keymem.copy (params.keySize * k) key
      params.keySize).shift (params.keySize * k)) = params.keyOf key := by
  apply params.keyOf_congr
  rw [Bytes.read_shift, Nat.add_zero, Bytes.read_copy_self]

theorem DatamngParams.keyOf_copy_of_ne (params : DatamngParams)
    (keymem key : Bytes) {k other : ℕ} (different : other ≠ k) :
    params.keyOf ((keymem.copy (params.keySize * k) key
        params.keySize).shift (params.keySize * other)) =
      params.keyOf (keymem.shift (params.keySize * other)) := by
  apply params.keyOf_congr
  rw [Bytes.read_shift, Bytes.read_shift, Nat.add_zero]
  exact Bytes.read_copy_of_disjoint _ _ (slots_apart _ different)

variable {Value : Type u}

/-- The key stored for block `k`. -/
def EmDatamng.keyAt (params : DatamngParams) (dm : EmDatamng Value) (k : ℕ) :
    List UInt8 :=
  params.keyOf (dm.keymem.shift (params.keySize * k))

def EmDatamng.entryAt (params : DatamngParams) (dm : EmDatamng Value)
    (k : ℕ) : CountedEntry Value ℤ where
  value := dm.data (params.pool.address k)
  count := (dm.keycnt k).count.toNat
  place := params.pool.address k

structure EmDatamng.Represents (params : DatamngParams) (dm : EmDatamng Value)
    (set : SparseSet params.pool.capacity) : Prop where
  distinct : params.pool.Distinct
  keyFits : params.keySize * params.pool.capacity < 4294967296
  settled : dm.mp.Settled params.pool set
  keySize_eq : dm.keySize = params.keySize
  keyType_eq : dm.keyType = params.keyType
  duplicateMode_eq : dm.duplicateMode = params.duplicateMode
  key_eq : ∀ k, k < params.pool.capacity →
    (dm.keycnt k).key = params.keySize * k
  counted : ∀ k, k ∈ set.members → 0 < (dm.keycnt k).count
  unique : ∀ left, left ∈ set.members → ∀ right, right ∈ set.members →
    dm.keyAt params left = dm.keyAt params right → left = right

/-! ## The search -/

namespace EmDatamng.Represents

variable {params : DatamngParams} {dm : EmDatamng Value}
  {set : SparseSet params.pool.capacity}

theorem index_eq (shown : dm.Represents params set) {slot : ℕ}
    (live : slot < set.count) :
    toInt32 (dm.mp.block (dm.mp.blockPtr slot)).index = set.dense slot := by
  have settled := shown.settled
  have bound := set.dense_lt slot (live.trans_le set.count_le)
  rw [settled.blockPtr_eq, settled.index_eq _ bound]
  exact toInt32_natCast (bound.le.trans settled.capacity_le)

/-- The test of the loop in a live slot. -/
theorem compares_iff (shown : dm.Represents params set) {slot : ℕ}
    (live : slot < set.count) (key : Bytes) :
    emGdatamngKeycmp dm.keyType
        (dm.keymem.shift (dm.keycnt
          (toInt32 (dm.mp.block (dm.mp.blockPtr slot)).index).toNat).key)
        key dm.keySize = 0 ↔
      dm.keyAt params (set.dense slot) = params.keyOf key := by
  have bound := set.dense_lt slot (live.trans_le set.count_le)
  rw [shown.index_eq live, Int.toNat_natCast, shown.key_eq _ bound,
    shown.keyType_eq, shown.keySize_eq, emGdatamngKeycmp_eq_zero_iff]
  rfl

theorem search_absent (shown : dm.Represents params set) {key : Bytes}
    (absent : ∀ k, k ∈ set.members → dm.keyAt params k ≠ params.keyOf key) :
    emGdatamngSearch dm key = none := by
  apply List.find?_eq_none.mpr
  intro slot inRange
  rw [List.mem_range, shown.settled.numUsed_eq] at inRange
  rw [decide_eq_true_eq, shown.compares_iff inRange]
  exact absent _ (set.dense_mem_members inRange)

theorem search_present (shown : dm.Represents params set) {key : Bytes}
    {k : ℕ} (member : k ∈ set.members)
    (hasKey : dm.keyAt params k = params.keyOf key) :
    emGdatamngSearch dm key = some (set.sparse k) := by
  obtain ⟨bound, below⟩ := SparseSet.mem_members.mp member
  cases found : emGdatamngSearch dm key with
  | none =>
      have misses := List.find?_eq_none.mp found (set.sparse k) (by
        rw [List.mem_range, shown.settled.numUsed_eq]
        exact below)
      rw [decide_eq_true_eq, shown.compares_iff below,
        set.dense_sparse k bound] at misses
      exact absurd hasKey misses
  | some slot =>
      have inRange := List.mem_of_find?_eq_some found
      have hits := List.find?_some found
      rw [List.mem_range, shown.settled.numUsed_eq] at inRange
      rw [decide_eq_true_eq, shown.compares_iff inRange] at hits
      have same : set.dense slot = k :=
        shown.unique _ (set.dense_mem_members inRange) _ member
          (hits.trans hasKey.symm)
      rw [← same, set.sparse_dense slot (inRange.trans_le set.count_le)]

theorem getDataidx_absent (shown : dm.Represents params set) {key : Bytes}
    (absent : ∀ k, k ∈ set.members → dm.keyAt params k ≠ params.keyOf key) :
    emGdatamngGetDataidx dm key = -1 := by
  rw [emGdatamngGetDataidx, shown.search_absent absent]

theorem getDataidx_present (shown : dm.Represents params set) {key : Bytes}
    {k : ℕ} (member : k ∈ set.members)
    (hasKey : dm.keyAt params k = params.keyOf key) :
    emGdatamngGetDataidx dm key = k := by
  obtain ⟨bound, below⟩ := SparseSet.mem_members.mp member
  rw [emGdatamngGetDataidx, shown.search_present member hasKey]
  exact (shown.index_eq below).trans (by rw [set.dense_sparse k bound])

theorem getBlockinfo_absent (shown : dm.Represents params set) {key : Bytes}
    (absent : ∀ k, k ∈ set.members → dm.keyAt params k ≠ params.keyOf key) :
    emGdatamngGetBlockinfo dm key = none := by
  rw [emGdatamngGetBlockinfo, shown.search_absent absent]

theorem getBlockinfo_present (shown : dm.Represents params set) {key : Bytes}
    {k : ℕ} (member : k ∈ set.members)
    (hasKey : dm.keyAt params k = params.keyOf key) :
    emGdatamngGetBlockinfo dm key = some k := by
  have bound := (SparseSet.mem_members.mp member).1
  rw [emGdatamngGetBlockinfo, shown.search_present member hasKey]
  simp only [shown.settled.blockPtr_eq, set.dense_sparse k bound]

end EmDatamng.Represents

/-! ## Data managers as maps -/

structure EmDatamng.Shows (params : DatamngParams) (dm : EmDatamng Value)
    (set : SparseSet params.pool.capacity)
    (map : CountedMap (List UInt8) Value ℤ params.pool.capacity) : Prop where
  represents : dm.Represents params set
  keys_eq : map.keys = set.members.image (dm.keyAt params)
  entry_eq : ∀ k, k ∈ set.members →
    map.entry (dm.keyAt params k) = some (dm.entryAt params k)

namespace EmDatamng.Shows

variable {params : DatamngParams} {dm after : EmDatamng Value}
  {set : SparseSet params.pool.capacity}
  {map : CountedMap (List UInt8) Value ℤ params.pool.capacity}

theorem card_eq (shows : dm.Shows params set map) :
    map.keys.card = set.count := by
  rw [shows.keys_eq, Finset.card_image_of_injOn, set.card_members]
  intro left leftMember right rightMember same
  exact shows.represents.unique left leftMember right rightMember same

theorem mem_keys (shows : dm.Shows params set map) {key : List UInt8} :
    key ∈ map.keys ↔ ∃ k, k ∈ set.members ∧ dm.keyAt params k = key := by
  rw [shows.keys_eq, Finset.mem_image]

theorem absent (shows : dm.Shows params set map) {key : List UInt8}
    (missing : key ∉ map.keys) {k : ℕ} (member : k ∈ set.members) :
    dm.keyAt params k ≠ key :=
  fun hasKey => missing (shows.mem_keys.mpr ⟨k, member, hasKey⟩)

theorem found (shows : dm.Shows params set map) {key : List UInt8}
    (present : key ∈ map.keys) :
    ∃ k, k ∈ set.members ∧ dm.keyAt params k = key ∧
      map.entry key = some (dm.entryAt params k) := by
  obtain ⟨k, member, rfl⟩ := shows.mem_keys.mp present
  exact ⟨k, member, rfl, shows.entry_eq k member⟩

/-- Every entry is that of a live block. -/
theorem of_entry (shows : dm.Shows params set map) {key : List UInt8}
    {entry : CountedEntry Value ℤ} (isEntry : map.entry key = some entry) :
    ∃ k, k ∈ set.members ∧ dm.keyAt params k = key ∧
      dm.entryAt params k = entry := by
  obtain ⟨k, member, hasKey, isFound⟩ :=
    shows.found (map.mem_keys_of_entry isEntry)
  exact ⟨k, member, hasKey, Option.some.inj (isFound.symm.trans isEntry)⟩

/-- A live block other than `k` has a key other than that of `k`. -/
theorem keyAt_ne (shows : dm.Shows params set map) {k other : ℕ}
    (member : k ∈ set.members) (otherMember : other ∈ set.members)
    (different : other ≠ k) :
    dm.keyAt params other ≠ dm.keyAt params k :=
  fun same =>
    different (shows.represents.unique other otherMember k member same)

/-- Nothing changes but the entry of one live block. -/
theorem set_entry (shows : dm.Shows params set map) {k : ℕ}
    (member : k ∈ set.members) {entry : CountedEntry Value ℤ}
    {present : dm.keyAt params k ∈ map.keys} {positive : 0 < entry.count}
    (represents : after.Represents params set)
    (keys : ∀ other, after.keyAt params other = dm.keyAt params other)
    (changed : after.entryAt params k = entry)
    (kept : ∀ other, other ∈ set.members → other ≠ k →
      after.entryAt params other = dm.entryAt params other) :
    after.Shows params set
      (map.set (dm.keyAt params k) entry present positive) where
  represents := represents
  keys_eq := by
    rw [CountedMap.keys_set, shows.keys_eq]
    exact Finset.image_congr (fun other _ => (keys other).symm)
  entry_eq := by
    intro other otherMember
    rw [map.entry_set, keys]
    by_cases same : other = k
    · rw [if_pos (by rw [same]), same, changed]
    · rw [if_neg (shows.keyAt_ne member otherMember same),
        shows.entry_eq other otherMember, kept other otherMember same]

/-- One live block less. -/
theorem erase_block (shows : dm.Shows params set map) {k : ℕ}
    (member : k ∈ set.members)
    (represents : after.Represents params (set.release k member))
    (keys : ∀ other, after.keyAt params other = dm.keyAt params other)
    (kept : ∀ other, other ∈ set.members → other ≠ k →
      after.entryAt params other = dm.entryAt params other) :
    after.Shows params (set.release k member)
      (map.erase (dm.keyAt params k)) where
  represents := represents
  keys_eq := by
    rw [CountedMap.keys_erase, shows.keys_eq, SparseSet.members_release member]
    ext key
    simp only [Finset.mem_erase, Finset.mem_image, keys]
    constructor
    · rintro ⟨differs, other, otherMember, rfl⟩
      exact ⟨other, ⟨fun same => differs (by rw [same]), otherMember⟩, rfl⟩
    · rintro ⟨other, ⟨different, otherMember⟩, rfl⟩
      exact ⟨shows.keyAt_ne member otherMember different,
        other, otherMember, rfl⟩
  entry_eq := by
    intro other otherMember
    rw [SparseSet.members_release member, Finset.mem_erase] at otherMember
    obtain ⟨different, otherMember⟩ := otherMember
    rw [map.entry_erase, keys,
      if_neg (shows.keyAt_ne member otherMember different),
      shows.entry_eq other otherMember, kept other otherMember different]

/-- One live block more. -/
theorem insert_block (shows : dm.Shows params set map)
    (room : set.count < params.pool.capacity) {key : List UInt8}
    {value : Value} {place : ℤ} {missing : key ∉ map.keys}
    {below : map.keys.card < params.pool.capacity}
    (represents : after.Represents params (set.acquire room))
    (newKey : after.keyAt params (set.dense set.count) = key)
    (newEntry : after.entryAt params (set.dense set.count) =
      ⟨value, 1, place⟩)
    (keys : ∀ other, other ∈ set.members →
      after.keyAt params other = dm.keyAt params other)
    (kept : ∀ other, other ∈ set.members →
      after.entryAt params other = dm.entryAt params other) :
    after.Shows params (set.acquire room)
      (map.insert key value place missing below) where
  represents := represents
  keys_eq := by
    rw [CountedMap.keys_insert, shows.keys_eq, set.members_acquire room,
      Finset.image_insert, newKey]
    congr 1
    exact Finset.image_congr (fun other member => (keys other member).symm)
  entry_eq := by
    intro other member
    rw [set.members_acquire room, Finset.mem_insert] at member
    rw [map.entry_insert]
    rcases member with rfl | member
    · rw [if_pos newKey, newEntry]
    · rw [keys other member, if_neg (shows.absent missing member),
        shows.entry_eq other member, kept other member]

end EmDatamng.Shows

/-! ## Adding -/

namespace EmDatamng.Represents

variable {params : DatamngParams} {dm : EmDatamng Value}
  {set : SparseSet params.pool.capacity}

/-- A new block with a key that no live block has. -/
theorem fill (shown : dm.Represents params set)
    (room : set.count < params.pool.capacity) {mp : EmMpool}
    (kept : mp.Settled params.pool (set.acquire room)) {key : Bytes}
    (absent : ∀ k, k ∈ set.members → dm.keyAt params k ≠ params.keyOf key)
    (data : ℤ → Value) :
    EmDatamng.Represents params
      { dm with
        mp
        data
        keymem := dm.keymem.copy (params.keySize * set.dense set.count) key
          params.keySize
        keycnt := Function.update dm.keycnt (set.dense set.count)
          ⟨params.keySize * set.dense set.count, 1⟩ }
      (set.acquire room) := by
  have newKey := params.keyOf_copy_self dm.keymem key (set.dense set.count)
  have oldKey := fun other (member : other ∈ set.members) =>
    params.keyOf_copy_of_ne dm.keymem key
      (ne_of_mem_of_not_mem member (set.dense_count_not_mem room))
  refine ⟨shown.distinct, shown.keyFits, kept, shown.keySize_eq,
    shown.keyType_eq, shown.duplicateMode_eq, ?_, ?_, ?_⟩
  · intro k bound
    by_cases same : k = set.dense set.count
    · simp [same]
    · simpa [same] using shown.key_eq k bound
  · intro k member
    by_cases same : k = set.dense set.count
    · simp [same]
    · rw [set.members_acquire room, Finset.mem_insert] at member
      simpa [same] using shown.counted k (member.resolve_left same)
  · intro left leftMember right rightMember same
    rw [set.members_acquire room, Finset.mem_insert] at leftMember rightMember
    rcases leftMember with rfl | leftMember
    · rcases rightMember with rfl | rightMember
      · rfl
      · exact absurd (((oldKey right rightMember).symm.trans
          same.symm).trans newKey) (absent right rightMember)
    · rcases rightMember with rfl | rightMember
      · exact absurd (((oldKey left leftMember).symm.trans
          same).trans newKey) (absent left leftMember)
      · exact shown.unique left leftMember right rightMember
          (((oldKey left leftMember).symm.trans same).trans
            (oldKey right rightMember))

/-- The keys stay where they are when a count changes. -/
theorem key_count (shown : dm.Represents params set) (k : ℕ) (count : ℤ)
    (other : ℕ) (bound : other < params.pool.capacity) :
    (Function.update dm.keycnt k { dm.keycnt k with count } other).key =
      params.keySize * other := by
  by_cases same : other = k
  · subst same
    rw [Function.update_self]
    exact shown.key_eq other bound
  · rw [Function.update_of_ne same]
    exact shown.key_eq other bound

/-- The count of a live block changes to another positive one. -/
theorem count (shown : dm.Represents params set) {k : ℕ} {count : ℤ}
    (positive : 0 < count) :
    EmDatamng.Represents params
      { dm with
        keycnt := Function.update dm.keycnt k
          { dm.keycnt k with count } } set := by
  refine { shown with
    key_eq := shown.key_count k count, counted := ?_,
    unique := shown.unique }
  intro other member
  by_cases same : other = k
  · subst same
    simpa using positive
  · simpa [same] using shown.counted other member

theorem release (shown : dm.Represents params set) {k : ℕ}
    (member : k ∈ set.members) {mp : EmMpool}
    (kept : mp.Settled params.pool (set.release k member)) (count : ℤ) :
    EmDatamng.Represents params
      { dm with
        mp
        keycnt := Function.update dm.keycnt k
          { dm.keycnt k with count } }
      (set.release k member) := by
  refine ⟨shown.distinct, shown.keyFits, kept, shown.keySize_eq,
    shown.keyType_eq, shown.duplicateMode_eq, shown.key_count k count, ?_, ?_⟩
  · intro other otherMember
    rw [SparseSet.members_release member, Finset.mem_erase] at otherMember
    simpa [otherMember.1] using shown.counted other otherMember.2
  · intro left leftMember right rightMember
    rw [SparseSet.members_release member, Finset.mem_erase]
      at leftMember rightMember
    exact shown.unique left leftMember.2 right rightMember.2

theorem getDataptr_live (shown : dm.Represents params set) {k : ℕ}
    (member : k ∈ set.members) :
    emMpoolGetDataptr dm.mp k = some (params.pool.address k) := by
  have settled := shown.settled
  obtain ⟨bound, below⟩ := SparseSet.mem_members.mp member
  rw [emMpoolGetDataptr, if_neg, settled.address_eq k bound]
  rw [settled.numMax_eq, settled.numUsed_eq, settled.indexPtr_eq]
  omega

end EmDatamng.Represents

namespace EmDatamng.Shows

variable {params : DatamngParams} {dm after : EmDatamng Value}
  {set : SparseSet params.pool.capacity}
  {map : CountedMap (List UInt8) Value ℤ params.pool.capacity}

theorem addData_full (shows : dm.Shows params set map) {key : Bytes}
    (missing : params.keyOf key ∉ map.keys)
    (full : map.keys.card = params.pool.capacity) (data : Value) :
    emGdatamngAddData dm key data = (-1, dm) := by
  have absent := shows.represents.getDataidx_absent
    (fun _ member => shows.absent missing member)
  rw [shows.card_eq] at full
  have refused := shows.represents.settled.allocBlock_full full
  simp [emGdatamngAddData, absent, refused]

theorem addData_room (shows : dm.Shows params set map) {key : Bytes}
    (missing : params.keyOf key ∉ map.keys)
    (below : map.keys.card < params.pool.capacity) (data : Value) :
    ∃ room after place,
      emGdatamngAddData dm key data = (0, after) ∧
        (∀ other found, map.entry other = some found →
          found.place ≠ place) ∧
        after.Shows params (set.acquire room)
          (map.insert (params.keyOf key) data place missing below) := by
  have shown := shows.represents
  have absent := fun k (member : k ∈ set.members) =>
    shows.absent missing member
  have room : set.count < params.pool.capacity := shows.card_eq ▸ below
  have bound := set.dense_lt _ room
  obtain ⟨mp, taken, kept⟩ := shown.settled.allocBlock_room room
  have index : emMpoolGetDataidx mp
      (params.pool.address (set.dense set.count)) = set.dense set.count := by
    rw [emMpoolGetDataidx, kept.rawdata_eq, kept.blockSize_eq]
    exact shown.distinct.index_of_address kept.capacity_le bound
  have called : emGdatamngAddData dm key data = (0,
      { dm with
        mp
        data := Function.update dm.data
          (params.pool.address (set.dense set.count)) data
        keymem := dm.keymem.copy (params.keySize * set.dense set.count) key
          params.keySize
        keycnt := Function.update dm.keycnt (set.dense set.count)
          ⟨params.keySize * set.dense set.count, 1⟩ }) := by
    simp [emGdatamngAddData, shown.getDataidx_absent absent, taken, index,
      shown.key_eq _ bound, shown.keySize_eq]
  -- Live blocks lie at other addresses than the new one.
  have apart : ∀ k, k ∈ set.members → params.pool.address k ≠
      params.pool.address (set.dense set.count) := by
    intro k member same
    have kBound := (SparseSet.mem_members.mp member).1
    have equal := shown.distinct.address_injective kBound bound same
    exact set.dense_count_not_mem room (equal ▸ member)
  refine ⟨room, _, params.pool.address (set.dense set.count), called, ?_, ?_⟩
  · intro other found isEntry
    obtain ⟨k, member, _, rfl⟩ := shows.of_entry isEntry
    exact apart k member
  · refine shows.insert_block room (shown.fill room kept absent _)
      (params.keyOf_copy_self _ _ _) ?_ ?_ ?_
    · simp [EmDatamng.entryAt]
    · intro other member
      exact params.keyOf_copy_of_ne _ _
        (ne_of_mem_of_not_mem member (set.dense_count_not_mem room))
    · intro other member
      have different : other ≠ set.dense set.count :=
        ne_of_mem_of_not_mem member (set.dense_count_not_mem room)
      simp [EmDatamng.entryAt, different, apart other member]

theorem addData_rejected (shows : dm.Shows params set map) {key : Bytes}
    (present : params.keyOf key ∈ map.keys)
    (rejects : params.onDuplicate = .reject) (data : Value) :
    emGdatamngAddData dm key data = (-1, dm) := by
  obtain ⟨k, member, hasKey⟩ := shows.mem_keys.mp present
  have index := shows.represents.getDataidx_present member hasKey
  have mode := shows.represents.duplicateMode_eq
  unfold DatamngParams.onDuplicate at rejects
  rw [← mode] at rejects
  cases duplicateMode : dm.duplicateMode with
  | error => simp [emGdatamngAddData, index, duplicateMode]
  | update => simp [duplicateMode] at rejects
  | countup => simp [duplicateMode] at rejects
  | other => simp [emGdatamngAddData, index, duplicateMode]

/-- Writing through the data pointer of a key. -/
theorem write (shows : dm.Shows params set map) {key : List UInt8}
    {entry : CountedEntry Value ℤ} (present : key ∈ map.keys)
    (isEntry : map.entry key = some entry) (value : Value) :
    EmDatamng.Shows params
      { dm with data := Function.update dm.data entry.place value } set
      (map.set key { entry with value } present
        (map.counted key entry isEntry)) := by
  obtain ⟨k, member, rfl, rfl⟩ := shows.of_entry isEntry
  have shown := shows.represents
  have bound := (SparseSet.mem_members.mp member).1
  refine shows.set_entry member { shown with unique := shown.unique }
    (fun _ => rfl) ?_ ?_
  · simp [EmDatamng.entryAt]
  · intro other otherMember different
    have otherBound := (SparseSet.mem_members.mp otherMember).1
    have apart : params.pool.address other ≠ params.pool.address k :=
      fun same => different
        (shown.distinct.address_injective otherBound bound same)
    simp [EmDatamng.entryAt, apart]

theorem addData_replaced (shows : dm.Shows params set map) {key : Bytes}
    (present : params.keyOf key ∈ map.keys)
    (replaces : params.onDuplicate = .replace) (data : Value) :
    ∃ entry, map.entry (params.keyOf key) = some entry ∧
      emGdatamngAddData dm key data = (0,
        { dm with data := Function.update dm.data entry.place data }) := by
  obtain ⟨k, member, hasKey, isFound⟩ := shows.found present
  have index := shows.represents.getDataidx_present member hasKey
  have pointer := shows.represents.getDataptr_live member
  have mode := shows.represents.duplicateMode_eq
  unfold DatamngParams.onDuplicate at replaces
  rw [← mode] at replaces
  refine ⟨_, isFound, ?_⟩
  cases duplicateMode : dm.duplicateMode with
  | update =>
      simp [emGdatamngAddData, index, duplicateMode, pointer,
        EmDatamng.entryAt]
  | error => simp [duplicateMode] at replaces
  | countup => simp [duplicateMode] at replaces
  | other => simp [duplicateMode] at replaces

/-- A live block gets another positive count. -/
theorem count (shows : dm.Shows params set map) {k : ℕ}
    (member : k ∈ set.members) {count : ℤ}
    (present : dm.keyAt params k ∈ map.keys) (positive : 0 < count) :
    EmDatamng.Shows params
      { dm with
        keycnt := Function.update dm.keycnt k { dm.keycnt k with count } } set
      (map.set (dm.keyAt params k)
        { dm.entryAt params k with count := count.toNat } present
        (Int.lt_toNat.mpr positive)) := by
  refine shows.set_entry member (shows.represents.count positive)
    (fun _ => rfl) ?_ ?_
  · simp [EmDatamng.entryAt]
  · intro other _ different
    simp [EmDatamng.entryAt, different]

theorem addData_counted (shows : dm.Shows params set map) {key : Bytes}
    (present : params.keyOf key ∈ map.keys)
    (counts : params.onDuplicate = .countUp) (data : Value) :
    ∃ entry after, map.entry (params.keyOf key) = some entry ∧
      emGdatamngAddData dm key data = (0, after) ∧
        after.Shows params set (map.set (params.keyOf key)
          { entry with count := entry.count + 1 } present
          (Nat.succ_pos _)) := by
  obtain ⟨k, member, hasKey, isFound⟩ := shows.found present
  have shown := shows.represents
  have index := shown.getDataidx_present member hasKey
  have positive := shown.counted k member
  have mode := shown.duplicateMode_eq
  unfold DatamngParams.onDuplicate at counts
  rw [← mode] at counts
  refine ⟨_, { dm with
    keycnt := Function.update dm.keycnt k
      { dm.keycnt k with count := (dm.keycnt k).count + 1 } }, isFound, ?_, ?_⟩
  · cases duplicateMode : dm.duplicateMode with
    | countup => simp [emGdatamngAddData, index, duplicateMode]
    | error => simp [duplicateMode] at counts
    | update => simp [duplicateMode] at counts
    | other => simp [duplicateMode] at counts
  · have next : ((dm.keycnt k).count + 1).toNat =
        (dm.keycnt k).count.toNat + 1 := by omega
    have changed := shows.count member (hasKey ▸ present)
      (Int.lt_add_one_of_le positive.le)
    simp only [hasKey, next] at changed
    exact changed

/-! ## Removing -/

theorem removeData_missing (shows : dm.Shows params set map) {key : Bytes}
    (missing : params.keyOf key ∉ map.keys) :
    emGdatamngRemoveData dm key = (-1, dm) := by
  have absent := shows.represents.getBlockinfo_absent
    (fun _ member => shows.absent missing member)
  rw [emGdatamngRemoveData, absent]

theorem removeData_decremented (shows : dm.Shows params set map) {key : Bytes}
    {entry : CountedEntry Value ℤ} {count : ℕ}
    (present : params.keyOf key ∈ map.keys)
    (isEntry : map.entry (params.keyOf key) = some entry)
    (positive : 0 < count) (counted : entry.count = count + 1) :
    ∃ after, emGdatamngRemoveData dm key = (0, after) ∧
      after.Shows params set
        (map.set (params.keyOf key) { entry with count } present
          positive) := by
  obtain ⟨k, member, hasKey, rfl⟩ := shows.of_entry isEntry
  have shown := shows.represents
  have bound := (SparseSet.mem_members.mp member).1
  have block := shown.getBlockinfo_present member hasKey
  have index := shown.settled.index_eq k bound
  change (dm.keycnt k).count.toNat = count + 1 at counted
  have remains : (dm.keycnt k).count - 1 = count := by omega
  have notLast : ¬ (count : ℤ) ≤ 0 := by omega
  refine ⟨{ dm with
    keycnt := Function.update dm.keycnt k
      { dm.keycnt k with count } }, ?_, ?_⟩
  · simp only [emGdatamngRemoveData, block, index, remains,
      Function.update_self, notLast, ↓reduceIte]
  · have changed := shows.count member (hasKey ▸ present)
      (Int.natCast_pos.mpr positive)
    simp only [hasKey, Int.toNat_natCast] at changed
    exact changed

theorem removeData_deleted (shows : dm.Shows params set map) {key : Bytes}
    {entry : CountedEntry Value ℤ}
    (isEntry : map.entry (params.keyOf key) = some entry)
    (last : entry.count = 1) :
    ∃ after next, emGdatamngRemoveData dm key = (0, after) ∧
      after.Shows params next (map.erase (params.keyOf key)) := by
  obtain ⟨k, member, hasKey, rfl⟩ := shows.of_entry isEntry
  have shown := shows.represents
  have bound := (SparseSet.mem_members.mp member).1
  have block := shown.getBlockinfo_present member hasKey
  have index := shown.settled.index_eq k bound
  obtain ⟨mp, freed, kept⟩ := shown.settled.freeBlock_live member
  change (dm.keycnt k).count.toNat = 1 at last
  have remains : (dm.keycnt k).count - 1 = 0 := by omega
  refine ⟨{ dm with
    mp
    keycnt := Function.update dm.keycnt k
      { dm.keycnt k with count := 0 } }, set.release k member, ?_, ?_⟩
  · simp only [emGdatamngRemoveData, block, index, remains,
      Function.update_self, le_refl, ↓reduceIte, freed]
  · rw [← hasKey]
    refine shows.erase_block member (shown.release member kept 0)
      (fun _ => rfl) ?_
    intro other _ different
    simp [EmDatamng.entryAt, different]

/-! ## Lookups -/

theorem getBlockinfo_cases (shows : dm.Shows params set map) (key : Bytes) :
    (emGdatamngGetBlockinfo dm key = none ∧
        map.entry (params.keyOf key) = none) ∨
      ∃ k, k ∈ set.members ∧ emGdatamngGetBlockinfo dm key = some k ∧
        map.entry (params.keyOf key) = some (dm.entryAt params k) := by
  by_cases present : params.keyOf key ∈ map.keys
  · obtain ⟨k, member, hasKey, isFound⟩ := shows.found present
    exact .inr ⟨k, member,
      shows.represents.getBlockinfo_present member hasKey, isFound⟩
  · exact .inl ⟨shows.represents.getBlockinfo_absent
      (fun _ member => shows.absent present member),
      map.entry_eq_none_iff.mpr present⟩

theorem getDataPtr_eq (shows : dm.Shows params set map) (key : Bytes) :
    emGdatamngGetDataPtr dm key =
      (map.entry (params.keyOf key)).map CountedEntry.place := by
  rcases shows.getBlockinfo_cases key with
    ⟨block, entry⟩ | ⟨k, member, block, entry⟩
  · simp [emGdatamngGetDataPtr, block, entry]
  · have bound := (SparseSet.mem_members.mp member).1
    simp [emGdatamngGetDataPtr, block, entry, EmDatamng.entryAt,
      shows.represents.settled.address_eq k bound]

theorem getData_eq (shows : dm.Shows params set map) (key : Bytes) :
    emGdatamngGetData dm key =
      (map.entry (params.keyOf key)).map CountedEntry.value := by
  rcases shows.getBlockinfo_cases key with
    ⟨block, entry⟩ | ⟨k, member, block, entry⟩
  · simp [emGdatamngGetData, shows.getDataPtr_eq, entry]
  · simp [emGdatamngGetData, shows.getDataPtr_eq, entry, EmDatamng.entryAt]

/-- -1 for an absent key. -/
theorem getDataCnt_eq (shows : dm.Shows params set map) (key : Bytes) :
    emGdatamngGetDataCnt dm key =
      ((map.entry (params.keyOf key)).map CountedEntry.count).elim (-1)
        Nat.cast := by
  rcases shows.getBlockinfo_cases key with
    ⟨block, entry⟩ | ⟨k, member, block, entry⟩
  · simp [emGdatamngGetDataCnt, block, entry]
  · have shown := shows.represents
    have bound := (SparseSet.mem_members.mp member).1
    have positive := shown.counted k member
    simp [emGdatamngGetDataCnt, block, entry, EmDatamng.entryAt,
      shown.settled.index_eq k bound, positive.le]

/-- The search by contents goes through the live blocks. -/
theorem getKeyByFunc_cases (shows : dm.Shows params set map)
    (comparator : Value → Bool) :
    (emGdatamngGetKeyByFunc dm comparator = none ∧
        ∀ key entry, map.entry key = some entry →
          comparator entry.value = false) ∨
      ∃ k, k ∈ set.members ∧
        emGdatamngGetKeyByFunc dm comparator = some (params.keySize * k) ∧
        comparator (dm.data (params.pool.address k)) = true := by
  have shown := shows.represents
  have settled := shown.settled
  have tested : ∀ slot, slot < set.count →
      dm.data (dm.mp.block (toInt32 (dm.mp.block
        (dm.mp.blockPtr slot)).index).toNat).dataPtr =
      dm.data (params.pool.address (set.dense slot)) := by
    intro slot live
    have bound := set.dense_lt slot (live.trans_le set.count_le)
    rw [shown.index_eq live, Int.toNat_natCast, settled.address_eq _ bound]
  unfold emGdatamngGetKeyByFunc emGdatamngGetDataIndexByFunc
  cases found : (List.range dm.mp.numUsed).find? (fun i =>
      comparator (dm.data (dm.mp.block (toInt32 (dm.mp.block
        (dm.mp.blockPtr i)).index).toNat).dataPtr)) with
  | none =>
      refine .inl ⟨by simp, ?_⟩
      intro key entry isEntry
      obtain ⟨k, member, _, rfl⟩ := shows.of_entry isEntry
      obtain ⟨bound, live⟩ := SparseSet.mem_members.mp member
      have misses := List.find?_eq_none.mp found (set.sparse k) (by
        rw [List.mem_range, settled.numUsed_eq]
        exact live)
      rw [tested _ live, set.dense_sparse k bound] at misses
      exact Bool.eq_false_iff.mpr misses
  | some slot =>
      have live := List.mem_of_find?_eq_some found
      have hits := List.find?_some found
      rw [List.mem_range, settled.numUsed_eq] at live
      rw [tested slot live] at hits
      have bound := set.dense_lt slot (live.trans_le set.count_le)
      refine .inr ⟨set.dense slot, set.dense_mem_members live, ?_, hits⟩
      simp [shown.index_eq live, shown.key_eq _ bound]

end EmDatamng.Shows

/-! ## Creation -/

/-- No product overflows, and the number of blocks is an `int`, as
`em_sem_init` and the indices have it. -/
structure DatamngParams.Valid (params : DatamngParams) : Prop where
  distinct : params.pool.Distinct
  nonempty : 0 < params.pool.capacity
  accepted : params.pool.capacity ≤ semValueMax
  keyFits : params.keySize * params.pool.capacity < 4294967296

/-- A fresh data manager with these parameters. -/
def DatamngParams.create (params : DatamngParams) (memory : EmDatamng Value)
    (keymem : Bytes) : EmDatamng Value :=
  emGdatamngCreate memory params.pool.blockSize params.pool.capacity
    params.keyType params.keySize params.duplicateMode keymem
    params.pool.rawdata

theorem foldl_emGdatamngInitKey (dm : EmDatamng Value) (rounds : ℕ) :
    (List.range rounds).foldl emGdatamngInitKey dm =
      { dm with keycnt := fun k =>
          if k < rounds then ⟨uint32 (k * dm.keySize), 0⟩
          else dm.keycnt k } := by
  rw [← foldl_update (fun k => (⟨uint32 (k * dm.keySize), 0⟩ : EmKeycnt))]
  refine List.foldl_hom (fun keycnt => { dm with keycnt }) ?_
  intro keycnt i
  rfl

theorem DatamngParams.Valid.create_shows {params : DatamngParams}
    (valid : params.Valid) (memory : EmDatamng Value) (keymem : Bytes) :
    ∃ set, (params.create memory keymem).Shows params set .empty := by
  have accepts : ¬(params.pool.blockSize = 0 ∨ params.pool.capacity = 0) :=
    not_or.mpr ⟨valid.distinct.positive.ne', valid.nonempty.ne'⟩
  obtain ⟨set, empty, settled⟩ := emMpoolCreateWithMem_settled memory.mp
    params.pool.blockSize params.pool.capacity memory.mp.blockPtr
    memory.mp.block memory.mp.dataPtr params.pool.rawdata valid.accepted
  have noMembers : ∀ k, k ∉ set.members := by
    rw [SparseSet.members_eq_empty empty]
    exact Finset.notMem_empty
  have created : params.create memory keymem =
      { mp := emMpoolCreateWithMem memory.mp params.pool.blockSize
          params.pool.capacity memory.mp.blockPtr memory.mp.block
          memory.mp.dataPtr params.pool.rawdata
        keycnt := fun k =>
          if k < params.pool.capacity then ⟨uint32 (k * params.keySize), 0⟩
          else memory.keycnt k
        keySize := params.keySize
        keymem
        duplicateMode := params.duplicateMode
        keyType := params.keyType
        data := memory.data
        regions := memory.regions } := by
    rw [DatamngParams.create, emGdatamngCreate, foldl_emGdatamngInitKey,
      emMpoolCreate, if_neg accepts]
  refine ⟨set, ⟨valid.distinct, valid.keyFits, ?_, ?_, ?_, ?_, ?_, ?_, ?_⟩,
    ?_, ?_⟩
  · rw [created]
    exact settled
  · rw [created]
  · rw [created]
  · rw [created]
  · intro k bound
    have below := Nat.mul_lt_mul_of_lt_of_le bound (le_refl params.keySize)
    have fits := valid.keyFits
    rw [created]
    simp only [bound, ↓reduceIte]
    rw [Nat.mul_comm k]
    exact uint32_of_lt (by
      have := slot_bound params.keySize bound
      omega)
  · intro k member
    exact absurd member (noMembers k)
  · intro left member
    exact absurd member (noMembers left)
  · rw [Finset.eq_empty_of_forall_notMem noMembers]
    rfl
  · intro k member
    exact absurd member (noMembers k)

end EmbeddedMiddle
