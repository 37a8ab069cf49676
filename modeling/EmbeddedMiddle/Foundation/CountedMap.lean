import EmbeddedMiddle.Foundation.Transition
import Mathlib.Data.Finset.Card

/-!
# Bounded maps with reference counts

A finite map of at most `capacity` keys.  Each key has a value, a count and a
place that it keeps as long as it is present.
-/

namespace Foundation

universe u v w

structure CountedEntry (Value : Type v) (Place : Type w) where
  value : Value
  count : ℕ
  place : Place

structure CountedMap (Key : Type u) (Value : Type v) (Place : Type w)
    (capacity : ℕ) where
  entry : Key → Option (CountedEntry Value Place)
  keys : Finset Key
  mem_keys : ∀ key, key ∈ keys ↔ (entry key).isSome = true
  bounded : keys.card ≤ capacity
  counted : ∀ key found, entry key = some found → 0 < found.count

/-- What adding a key does that is already present. -/
inductive OnDuplicate where
  | reject
  | replace
  | countUp
  deriving DecidableEq, Repr

/-- A call with the answer it got. -/
inductive StoreEvent (Key : Type u) (Value : Type v) (Place : Type w) where
  | add (key : Key) (value : Value) (accepted : Bool)
  | remove (key : Key) (removed : Bool)
  | getData (key : Key) (result : Option Value)
  | getDataPtr (key : Key) (result : Option Place)
  | getDataCnt (key : Key) (result : Option ℕ)

namespace CountedMap

variable {Key : Type u} {Value : Type v} {Place : Type w} {capacity : ℕ}

def empty : CountedMap Key Value Place capacity where
  entry := fun _ => none
  keys := ∅
  mem_keys := by simp
  bounded := Nat.zero_le _
  counted := by simp

theorem entry_eq_none_iff (map : CountedMap Key Value Place capacity)
    {key : Key} : map.entry key = none ↔ key ∉ map.keys := by
  rw [map.mem_keys, Option.not_isSome_iff_eq_none]

theorem mem_keys_of_entry (map : CountedMap Key Value Place capacity)
    {key : Key} {found : CountedEntry Value Place}
    (isEntry : map.entry key = some found) : key ∈ map.keys := by
  rw [map.mem_keys, isEntry, Option.isSome_some]

variable [DecidableEq Key]

/-- A new key with count 1 at a place of its own. -/
def insert (map : CountedMap Key Value Place capacity) (key : Key)
    (value : Value) (place : Place) (absent : key ∉ map.keys)
    (room : map.keys.card < capacity) :
    CountedMap Key Value Place capacity where
  entry := Function.update map.entry key (some ⟨value, 1, place⟩)
  keys := Insert.insert key map.keys
  mem_keys := by
    intro other
    by_cases same : other = key
    · simp [same]
    · simp [same, map.mem_keys]
  bounded := by
    rw [Finset.card_insert_of_notMem absent]
    exact room
  counted := by
    intro other found entry
    by_cases same : other = key
    · subst same
      rw [Function.update_self] at entry
      cases entry
      exact Nat.one_pos
    · rw [Function.update_of_ne same] at entry
      exact map.counted other found entry

/-- Another entry for a key that is present. -/
def set (map : CountedMap Key Value Place capacity) (key : Key)
    (entry : CountedEntry Value Place) (present : key ∈ map.keys)
    (positive : 0 < entry.count) : CountedMap Key Value Place capacity where
  entry := Function.update map.entry key (some entry)
  keys := map.keys
  mem_keys := by
    intro other
    by_cases same : other = key
    · simp [same, present]
    · simp [same, map.mem_keys]
  bounded := map.bounded
  counted := by
    intro other found isEntry
    by_cases same : other = key
    · subst same
      rw [Function.update_self] at isEntry
      cases isEntry
      exact positive
    · rw [Function.update_of_ne same] at isEntry
      exact map.counted other found isEntry

def erase (map : CountedMap Key Value Place capacity) (key : Key) :
    CountedMap Key Value Place capacity where
  entry := Function.update map.entry key none
  keys := map.keys.erase key
  mem_keys := by
    intro other
    by_cases same : other = key
    · simp [same]
    · simp [same, map.mem_keys]
  bounded := (Finset.card_erase_le).trans map.bounded
  counted := by
    intro other found entry
    by_cases same : other = key
    · subst same
      rw [Function.update_self] at entry
      cases entry
    · rw [Function.update_of_ne same] at entry
      exact map.counted other found entry

/-- The calls on a map, with what they answer. -/
inductive Step (onDuplicate : OnDuplicate) :
    CountedMap Key Value Place capacity → StoreEvent Key Value Place →
      CountedMap Key Value Place capacity → Prop where
  | insert {map : CountedMap Key Value Place capacity} {key value place}
      (absent : key ∉ map.keys) (room : map.keys.card < capacity) :
      (∀ other found, map.entry other = some found → found.place ≠ place) →
      Step onDuplicate map (.add key value true)
        (map.insert key value place absent room)
  | full {map : CountedMap Key Value Place capacity} {key value} :
      key ∉ map.keys → map.keys.card = capacity →
      Step onDuplicate map (.add key value false) map
  | rejected {map : CountedMap Key Value Place capacity} {key value} :
      key ∈ map.keys → onDuplicate = .reject →
      Step onDuplicate map (.add key value false) map
  | replaced {map : CountedMap Key Value Place capacity} {key value found}
      (present : key ∈ map.keys) (isEntry : map.entry key = some found) :
      onDuplicate = .replace →
      Step onDuplicate map (.add key value true)
        (map.set key { found with value } present
          (map.counted key found isEntry))
  | counted {map : CountedMap Key Value Place capacity} {key value found}
      (present : key ∈ map.keys) :
      map.entry key = some found → onDuplicate = .countUp →
      Step onDuplicate map (.add key value true)
        (map.set key { found with count := found.count + 1 } present
          (Nat.succ_pos _))
  | missing {map : CountedMap Key Value Place capacity} {key} :
      key ∉ map.keys → Step onDuplicate map (.remove key false) map
  | decremented {map : CountedMap Key Value Place capacity} {key found count}
      (present : key ∈ map.keys) (positive : 0 < count) :
      map.entry key = some found → found.count = count + 1 →
      Step onDuplicate map (.remove key true)
        (map.set key { found with count } present positive)
  | deleted {map : CountedMap Key Value Place capacity} {key found} :
      map.entry key = some found → found.count = 1 →
      Step onDuplicate map (.remove key true) (map.erase key)
  | getData {map : CountedMap Key Value Place capacity} {key} :
      Step onDuplicate map
        (.getData key ((map.entry key).map CountedEntry.value)) map
  | getDataPtr {map : CountedMap Key Value Place capacity} {key} :
      Step onDuplicate map
        (.getDataPtr key ((map.entry key).map CountedEntry.place)) map
  | getDataCnt {map : CountedMap Key Value Place capacity} {key} :
      Step onDuplicate map
        (.getDataCnt key ((map.entry key).map CountedEntry.count)) map

@[simp] theorem keys_insert (map : CountedMap Key Value Place capacity)
    {key : Key} {value : Value} {place : Place} {absent : key ∉ map.keys}
    {room : map.keys.card < capacity} :
    (map.insert key value place absent room).keys =
      Insert.insert key map.keys := rfl

@[simp] theorem keys_set (map : CountedMap Key Value Place capacity)
    {key : Key} {entry : CountedEntry Value Place} {present : key ∈ map.keys}
    {positive : 0 < entry.count} :
    (map.set key entry present positive).keys = map.keys := rfl

@[simp] theorem keys_erase (map : CountedMap Key Value Place capacity)
    {key : Key} : (map.erase key).keys = map.keys.erase key := rfl

theorem entry_set (map : CountedMap Key Value Place capacity) {key other : Key}
    {entry : CountedEntry Value Place} {present : key ∈ map.keys}
    {positive : 0 < entry.count} :
    (map.set key entry present positive).entry other =
      if other = key then some entry else map.entry other :=
  Function.update_apply map.entry key (some entry) other

theorem entry_insert (map : CountedMap Key Value Place capacity)
    {key other : Key} {value : Value} {place : Place}
    {absent : key ∉ map.keys} {room : map.keys.card < capacity} :
    (map.insert key value place absent room).entry other =
      if other = key then some ⟨value, 1, place⟩ else map.entry other :=
  Function.update_apply map.entry key (some ⟨value, 1, place⟩) other

theorem entry_erase (map : CountedMap Key Value Place capacity)
    {key other : Key} : (map.erase key).entry other =
      if other = key then none else map.entry other :=
  Function.update_apply map.entry key none other

theorem place_set (map : CountedMap Key Value Place capacity) {key other : Key}
    {found entry old new : CountedEntry Value Place} {present : key ∈ map.keys}
    {positive : 0 < entry.count} (isEntry : map.entry key = some found)
    (kept : entry.place = found.place) (isOld : map.entry other = some old)
    (isNew : (map.set key entry present positive).entry other = some new) :
    new.place = old.place := by
  rw [entry_set] at isNew
  split_ifs at isNew with same
  · rw [same, isEntry] at isOld
    cases isOld
    cases isNew
    exact kept
  · rw [isOld] at isNew
    cases isNew
    rfl

/-- A key that stays present keeps its place. -/
theorem Step.place_eq {onDuplicate : OnDuplicate}
    {before after : CountedMap Key Value Place capacity}
    {event : StoreEvent Key Value Place}
    (taken : Step onDuplicate before event after) {key : Key}
    {old new : CountedEntry Value Place}
    (isOld : before.entry key = some old)
    (isNew : after.entry key = some new) : new.place = old.place := by
  have unchanged : before.entry key = some new → new.place = old.place := by
    intro isNew
    rw [isOld] at isNew
    cases isNew
    rfl
  cases taken with
  | insert absent room fresh =>
      rw [entry_insert] at isNew
      split_ifs at isNew with same
      · subst same
        rw [before.entry_eq_none_iff.mpr absent] at isOld
        cases isOld
      · exact unchanged isNew
  | full _ _ => exact unchanged isNew
  | rejected _ _ => exact unchanged isNew
  | replaced present isEntry _ =>
      refine before.place_set isEntry ?_ isOld isNew
      rfl
  | counted present isEntry _ =>
      refine before.place_set isEntry ?_ isOld isNew
      rfl
  | missing _ => exact unchanged isNew
  | decremented present positive isEntry _ =>
      refine before.place_set isEntry ?_ isOld isNew
      rfl
  | deleted isEntry _ =>
      rw [entry_erase] at isNew
      split_ifs at isNew
      exact unchanged isNew
  | getData => exact unchanged isNew
  | getDataPtr => exact unchanged isNew
  | getDataCnt => exact unchanged isNew

end CountedMap

end Foundation
