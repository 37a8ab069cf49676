import Mathlib.Data.BitVec

/-!
# Watched bits

A word is a set of bits that parties set and take away.  An observer has seen
the word once; the bits set since then are fresh to it.  What it may take away
are the bits of its mask that it has seen and that are not fresh.
-/

namespace Foundation

universe u

variable {width : ℕ}

/-- Every bit of one word is a bit of the other. -/
def BitsIn (left right : BitVec width) : Prop :=
  ∀ i, left.getLsbD i = true → right.getLsbD i = true

theorem bitsIn_iff {left right : BitVec width} :
    BitsIn left right ↔ left &&& ~~~right = BitVec.ofNat width 0 := by
  constructor
  · intro contained
    apply BitVec.eq_of_getLsbD_eq
    intro i bound
    have here := contained i
    simp only [BitVec.getLsbD_and, BitVec.getLsbD_not, BitVec.getLsbD_zero]
    cases isLeft : left.getLsbD i with
    | false => rfl
    | true => simp [here isLeft]
  · intro empty i isLeft
    have bound := BitVec.lt_of_getLsbD isLeft
    have here := congrArg (fun word => BitVec.getLsbD word i) empty
    simpa [isLeft, bound] using here

instance (left right : BitVec width) : Decidable (BitsIn left right) :=
  decidable_of_iff _ bitsIn_iff.symm

/-- The words have no bit in common. -/
theorem and_eq_zero_iff {left right : BitVec width} :
    left &&& right = BitVec.ofNat width 0 ↔
      ∀ i, left.getLsbD i = true → right.getLsbD i = false := by
  constructor
  · intro empty i isLeft
    have here := congrArg (fun word => BitVec.getLsbD word i) empty
    simpa [isLeft] using here
  · intro apart
    apply BitVec.eq_of_getLsbD_eq
    intro i _
    have here := apart i
    rw [BitVec.getLsbD_and, BitVec.getLsbD_zero]
    cases isLeft : left.getLsbD i with
    | false => rfl
    | true => rw [here isLeft]; rfl

/-- What an observer wants to take, what it has seen, and which bits have been
set since and were not taken away again. -/
structure Observation (width : ℕ) where
  mask : BitVec width
  seen : BitVec width
  fresh : BitVec width
  deriving DecidableEq, Inhabited

namespace Observation

variable {watcher other : Observation width} {word : BitVec width}

def observe (mask word : BitVec width) : Observation width :=
  ⟨mask, word, BitVec.ofNat width 0⟩

/-- The bits that the observer may take away. -/
def takes (watcher : Observation width) : BitVec width :=
  watcher.mask &&& watcher.seen &&& ~~~watcher.fresh

/-- Bits are set. -/
def set (watcher : Observation width) (bits : BitVec width) :
    Observation width :=
  { watcher with fresh := watcher.fresh ||| bits }

/-- Bits are taken away by somebody who may take them. -/
def without (watcher : Observation width) (bits : BitVec width) :
    Observation width :=
  { watcher with fresh := watcher.fresh &&& ~~~bits }

/-- The fresh bits are in the word, and the others in it were there when it
was seen. -/
structure Tracks (watcher : Observation width) (word : BitVec width) :
    Prop where
  fresh : BitsIn watcher.fresh word
  known : BitsIn word (watcher.seen ||| watcher.fresh)

theorem tracks_observe (mask word : BitVec width) :
    (observe mask word).Tracks word := by
  constructor
  · intro i isFresh
    simp [observe] at isFresh
  · intro i inWord
    simp [observe, inWord]

theorem Tracks.set (tracks : watcher.Tracks word) (bits : BitVec width) :
    (watcher.set bits).Tracks (word ||| bits) := by
  constructor
  · intro i isFresh
    have old := tracks.fresh i
    simp only [Observation.set, BitVec.getLsbD_or] at isFresh ⊢
    grind
  · intro i inWord
    have known := tracks.known i
    simp only [Observation.set, BitVec.getLsbD_or] at inWord known ⊢
    grind

/-- Everything is taken away. -/
theorem Tracks.clear (tracks : watcher.Tracks word) :
    (watcher.without word).Tracks (BitVec.ofNat width 0) := by
  constructor
  · intro i isFresh
    have inWord := tracks.fresh i
    simp only [without, BitVec.getLsbD_and, BitVec.getLsbD_not] at isFresh
    grind
  · intro i inWord
    simp at inWord

/-- An observer takes its mask away, of which nothing is fresh to it: for the
others that is what it may take. -/
theorem Tracks.take (tracks : watcher.Tracks word)
    (otherTracks : other.Tracks word)
    (stale : other.fresh &&& other.mask = BitVec.ofNat width 0) :
    (watcher.without other.takes).Tracks (word &&& ~~~other.mask) := by
  constructor
  · intro i isFresh
    have bound := BitVec.lt_of_getLsbD isFresh
    have inWord := tracks.fresh i
    have known := otherTracks.known i
    have apart := and_eq_zero_iff.mp stale i
    simp only [without, takes, BitVec.getLsbD_and, BitVec.getLsbD_or,
      BitVec.getLsbD_not] at isFresh known ⊢
    grind
  · intro i inWord
    have known := tracks.known i
    simp only [without, takes, BitVec.getLsbD_and, BitVec.getLsbD_or,
      BitVec.getLsbD_not] at inWord known ⊢
    grind

/-- Taking the whole mask away leaves the fresh bits alone exactly when none of
them is in the mask; then only bits go that the observer may take. -/
theorem Tracks.stale_iff (tracks : watcher.Tracks word) :
    (BitsIn (word &&& ~~~(word &&& ~~~watcher.mask)) watcher.takes ∧
        BitsIn watcher.fresh (word &&& ~~~watcher.mask)) ↔
      watcher.fresh &&& watcher.mask = BitVec.ofNat width 0 := by
  constructor
  · rintro ⟨_, left⟩
    rw [and_eq_zero_iff]
    intro i isFresh
    have here := left i isFresh
    simp only [BitVec.getLsbD_and, BitVec.getLsbD_not] at here
    grind
  · intro stale
    constructor
    · intro i removed
      have known := tracks.known i
      have apart := and_eq_zero_iff.mp stale i
      simp only [takes, BitVec.getLsbD_and, BitVec.getLsbD_or,
        BitVec.getLsbD_not] at removed known ⊢
      grind
    · intro i isFresh
      have bound := BitVec.lt_of_getLsbD isFresh
      have inWord := tracks.fresh i isFresh
      have apart := and_eq_zero_iff.mp stale i isFresh
      rw [BitVec.getLsbD_and, BitVec.getLsbD_not, inWord, apart]
      simp [bound]

end Observation

end Foundation
