import Mathlib.Data.Finset.Card
import Mathlib.Data.Set.Function

/-!
# Names for handles

A program has names for handles of the system.  The names that it considers in
use should be those of the handles that are live, each handle under one name.
-/

namespace Foundation

universe u v

variable {Name : Type u} {Handle : Type v} {handle later : Name → Handle}
  {held : Finset Name} {live : Finset Handle} {name other : Name}
  {new junk : Handle}

structure Named (handle : Name → Handle) (held : Finset Name)
    (live : Finset Handle) : Prop where
  paired : Set.BijOn handle held live

namespace Named

theorem empty : Named handle ∅ ∅ := by
  refine ⟨?_⟩
  simp

theorem mem_live (named : Named handle held live) (member : name ∈ held) :
    handle name ∈ live :=
  named.paired.mapsTo member

theorem card_eq (named : Named handle held live) :
    held.card = live.card :=
  Finset.card_nbij handle named.paired.mapsTo named.paired.injOn
    named.paired.surjOn

theorem congr (named : Named handle held live)
    (same : ∀ name ∈ held, later name = handle name) :
    Named later held live :=
  ⟨named.paired.congr fun name member => (same name member).symm⟩

/-- A handle more under as many names is lost. -/
theorem not_more [DecidableEq Handle] (named : Named handle held live)
    (fresh : new ∉ live) :
    ¬ Named later held (insert new live) := by
  intro more
  have counted := more.card_eq
  rw [Finset.card_insert_of_notMem fresh, ← named.card_eq] at counted
  omega

/-! ## Writing to a name -/

variable [DecidableEq Name]

theorem update (named : Named handle held live) (unused : name ∉ held) :
    Named (Function.update handle name new) held live := by
  apply named.congr
  intro other member
  have different : other ≠ name := by
    rintro rfl
    exact unused member
  exact Function.update_of_ne different _ _

/-- What is not a live handle may be written to unused names only. -/
theorem update_iff (named : Named handle held live) (dead : junk ∉ live) :
    Named (Function.update handle name junk) held live ↔ name ∉ held := by
  constructor
  · intro renamed member
    have isLive := renamed.mem_live member
    rw [Function.update_self] at isLive
    exact dead isLive
  · exact named.update

/-- What an unused name is written to does not matter. -/
theorem update_unused_iff (unused : name ∉ held) :
    Named (Function.update handle name new) held live ↔
      Named handle held live := by
  constructor
  · intro updated
    have back : Named (Function.update (Function.update handle name new) name
        (handle name)) held live := updated.update unused
    rwa [Function.update_idem, Function.update_eq_self] at back
  · intro named
    exact named.update unused

/-- A name more for as many handles is the second one of some handle. -/
theorem not_insert (named : Named handle held live)
    (unused : name ∉ held) :
    ¬ Named later (insert name held) live := by
  intro more
  have counted := more.card_eq
  rw [Finset.card_insert_of_notMem unused, named.card_eq] at counted
  omega

/-- A name is forgotten without losing a handle when it is not in use. -/
theorem forget_iff (named : Named handle held live) :
    Named (Function.update handle name new) (held.erase name) live ↔
      name ∉ held := by
  constructor
  · intro fewer member
    have counted := fewer.card_eq
    rw [Finset.card_erase_of_mem member, ← named.card_eq] at counted
    have some : 0 < held.card := Finset.card_pos.mpr ⟨name, member⟩
    omega
  · intro unused
    rw [Finset.erase_eq_of_notMem unused]
    exact named.update unused

/-! ## New handles -/

variable [DecidableEq Handle]

theorem acquire (named : Named handle held live) (unused : name ∉ held)
    (fresh : new ∉ live) :
    Named (Function.update handle name new) (insert name held)
      (insert new live) := by
  have others : Set.BijOn (Function.update handle name new) held live :=
    (named.update unused).paired
  have written : Function.update handle name new name = new :=
    Function.update_self _ _ _
  constructor
  rw [Finset.coe_insert, Finset.coe_insert]
  have larger : Set.BijOn (Function.update handle name new)
      (insert name held)
      (insert (Function.update handle name new name) live) := by
    apply others.insert
    rw [written]
    exact fresh
  rwa [written] at larger

theorem acquire_iff (named : Named handle held live) (fresh : new ∉ live) :
    Named (Function.update handle name new) (insert name held)
      (insert new live) ↔ name ∉ held := by
  constructor
  · intro larger member
    rw [Finset.insert_eq_of_mem member] at larger
    exact named.not_more fresh larger
  · intro unused
    exact named.acquire unused fresh

/-- Two new handles need two unused names. -/
theorem acquire_two_iff (named : Named handle held live) (fresh : junk ∉ live)
    (fresher : new ∉ insert junk live) :
    Named (Function.update (Function.update handle name junk) other new)
        (insert other (insert name held))
        (insert new (insert junk live)) ↔
      name ∉ held ∧ other ∉ insert name held := by
  constructor
  · intro larger
    have counted := larger.card_eq
    rw [Finset.card_insert_of_notMem fresher,
      Finset.card_insert_of_notMem fresh, ← named.card_eq] at counted
    have one := Finset.card_insert_le name held
    refine ⟨?_, ?_⟩
    · intro member
      have two := Finset.card_insert_le other (insert name held)
      rw [Finset.insert_eq_of_mem member] at two counted
      omega
    · intro member
      rw [Finset.insert_eq_of_mem member] at counted
      omega
  · rintro ⟨unused, otherUnused⟩
    exact (named.acquire unused fresh).acquire otherUnused fresher

/-! ## Handles given back -/

theorem release (named : Named handle held live) (member : name ∈ held) :
    Named handle (held.erase name) (live.erase (handle name)) := by
  constructor
  rw [Finset.coe_erase, Finset.coe_erase]
  exact named.paired.sdiff_singleton member

/-- What is given back is a handle in use under this name, or not live. -/
theorem release_iff (named : Named handle held live) :
    Named handle (held.erase name) (live.erase (handle name)) ↔
      name ∈ held ∨ handle name ∉ live := by
  constructor
  · intro smaller
    by_contra neither
    obtain ⟨unused, isLive⟩ := not_or.mp neither
    rw [not_not] at isLive
    have counted := smaller.card_eq
    rw [Finset.erase_eq_of_notMem unused, Finset.card_erase_of_mem isLive,
      named.card_eq] at counted
    have some : 0 < live.card := Finset.card_pos.mpr ⟨_, isLive⟩
    omega
  · rintro (member | dead)
    · exact named.release member
    · by_cases member : name ∈ held
      · exact named.release member
      · rwa [Finset.erase_eq_of_notMem member, Finset.erase_eq_of_notMem dead]

/-- A handle may take the place of the one of a name that is in use, or that
has none. -/
theorem renew_iff (named : Named handle held live)
    (fresh : new ∉ live.erase (handle name)) :
    Named (Function.update handle name new) (insert name held)
        (insert new (live.erase (handle name))) ↔
      name ∈ held ∨ handle name ∉ live := by
  have renew {name : Name} (fresh : new ∉ live.erase (handle name))
      (free : name ∈ held ∨ handle name ∉ live) :
      Named (Function.update handle name new) (insert name held)
        (insert new (live.erase (handle name))) := by
    have released := named.release_iff.mpr free
    have renewed := released.acquire (Finset.notMem_erase name held) fresh
    have again : insert name (held.erase name) = insert name held := by
      ext other
      simp only [Finset.mem_insert, Finset.mem_erase]
      tauto
    rwa [again] at renewed
  refine ⟨?_, renew fresh⟩
  intro more
  by_contra neither
  obtain ⟨unused, isLive⟩ := not_or.mp neither
  obtain ⟨other, member, same⟩ := named.paired.surjOn (not_not.mp isLive)
  have renewed := renew (same ▸ fresh) (.inl member)
  rw [Finset.insert_eq_of_mem member, same] at renewed
  exact renewed.not_insert unused more

end Named

end Foundation
