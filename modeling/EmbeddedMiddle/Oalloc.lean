import EmbeddedMiddle.Foundation.MachineInt
import EmbeddedMiddle.Foundation.Transition
import EmbeddedMiddle.Units
import Mathlib

/-!
# The one-way allocator

`em_oalloc.c`.  Memory is handed out in units from its front and never taken
back.
-/

namespace EmbeddedMiddle

open Foundation

structure EmOmemmng where
  isMalloc : Bool
  memUnitSize : ℤ
  memTotalBnum : ℤ
  nextAllocIndex : ℤ
  memory : ℤ
  deriving DecidableEq, Inhabited, Repr

/-- `none` is NULL; then the memory is what `alloc_func` returns. -/
def emOmemmngCreate (memTotalSize memUnitSize : ℤ) (memory : Option ℤ)
    (allocated : ℤ) : EmOmemmng :=
  { isMalloc := memory.isNone
    memUnitSize
    memTotalBnum := memTotalSize.tdiv memUnitSize
    nextAllocIndex := 0
    memory := memory.getD allocated }

/-- The request in units: an `int`, from a division and a product that the
machine cuts to 32 bits. -/
def emOallocBlength (mm : EmOmemmng) (size : UInt64) : ℤ :=
  let blength := toInt32 (size.toNat / intToSize mm.memUnitSize : ℕ)
  if 0 < intToSize (size.toNat -
      intToSize (toInt32 (blength * mm.memUnitSize))) then
    toInt32 (blength + 1)
  else blength

def emOalloc (mm : EmOmemmng) (size : UInt64) : Option ℤ × EmOmemmng :=
  let blength := emOallocBlength mm size
  if blength ≤ toInt32 (mm.memTotalBnum - mm.nextAllocIndex) then
    (some (mm.memory + toInt32 (mm.nextAllocIndex * mm.memUnitSize)),
      { mm with nextAllocIndex := toInt32 (mm.nextAllocIndex + blength) })
  else (none, mm)

/-! ## Unit counts -/

section Blength

variable {mm : EmOmemmng} {unit : ℕ} {size : UInt64}

theorem emOallocBlength_eq (isUnit : mm.memUnitSize = unit)
    (atMost : unit ≤ intMax) :
    emOallocBlength mm size =
      if 0 < intToSize (size.toNat -
          intToSize (toInt32 (size.toNat / unit * unit : ℕ))) then
        toInt32 (size.toNat / unit + 1 : ℕ)
      else toInt32 (size.toNat / unit : ℕ) := by
  simp only [emOallocBlength, isUnit, intToSize_natCast atMost,
    toInt32_toInt32_mul, toInt32_toInt32_add]
  push_cast
  rfl

theorem emOallocBlength_fits (isUnit : mm.memUnitSize = unit)
    (positive : 0 < unit) (atMost : unit ≤ intMax)
    (fits : size.toNat / unit * unit ≤ intMax) :
    emOallocBlength mm size = unitCount unit size.toNat := by
  have whole := Nat.div_add_mod size.toNat unit
  have below := Nat.mod_lt size.toNat positive
  have quotient := Nat.le_mul_of_pos_right (size.toNat / unit) positive
  rw [emOallocBlength_eq isUnit atMost, unitCount_eq positive,
    toInt32_natCast fits, intToSize_natCast fits]
  rw [Nat.mul_comm] at whole
  have isRest : intToSize ((size.toNat : ℤ) -
      (size.toNat / unit * unit : ℕ)) = size.toNat % unit := by
    unfold intToSize
    unfold intMax at atMost
    omega
  rw [isRest]
  by_cases exactly : size.toNat % unit = 0
  · rw [if_neg (by omega), if_pos exactly,
      toInt32_natCast (quotient.trans fits), Nat.add_zero]
  · have double := Nat.mul_le_mul_left (size.toNat / unit)
      (show 2 ≤ unit by omega)
    rw [if_pos (by omega), if_neg exactly, toInt32_natCast]
    unfold intMax at fits ⊢
    omega

end Blength

/-! ## Runs -/

/-- The manager and, for the record, the regions it has given. -/
structure Oallocs where
  mm : EmOmemmng
  given : List (ℤ × ℕ)

def region (memory : ℤ × ℕ) : Set ℤ :=
  Set.Ico memory.1 (memory.1 + memory.2)

namespace Oallocs

def start (mm : EmOmemmng) : Oallocs := ⟨mm, []⟩

def Step (before : Oallocs) (label : UInt64 × Option ℤ) (after : Oallocs) :
    Prop :=
  emOalloc before.mm label.1 = (label.2, after.mm) ∧
    after.given = match label.2 with
      | none => before.given
      | some ret => (ret, label.1.toNat) :: before.given

/-- What one call owes: its region, which is not at NULL, lies in the memory,
apart from all earlier ones, the index goes forward, and the request is refused
exactly when it needs more units than are left. -/
structure Sound (before : Oallocs) (label : UInt64 × Option ℤ)
    (after : Oallocs) : Prop where
  notNull : ∀ ret, label.2 = some ret → ret ≠ 0
  inside : ∀ ret, label.2 = some ret →
    region (ret, label.1.toNat) ⊆ Set.Ico before.mm.memory
      (before.mm.memory + before.mm.memTotalBnum * before.mm.memUnitSize)
  apart : ∀ ret, label.2 = some ret → ∀ other ∈ before.given,
    Disjoint (region (ret, label.1.toNat)) (region other)
  forward : before.mm.nextAllocIndex ≤ after.mm.nextAllocIndex
  bounded : after.mm.nextAllocIndex ≤ after.mm.memTotalBnum
  refused : label.2 = none ↔
    before.mm.memTotalBnum - before.mm.nextAllocIndex <
      unitCount before.mm.memUnitSize.toNat label.1.toNat
  unchanged : label.2 = none → after.mm = before.mm
  frame : after.mm =
    { before.mm with nextAllocIndex := after.mm.nextAllocIndex }

/-- The whole units of the request fit an `int`. -/
def Countable (before : Oallocs) (label : UInt64 × Option ℤ) : Prop :=
  let unit := before.mm.memUnitSize.toNat
  label.1.toNat / unit * unit ≤ intMax

/-- Everything given lies below the next index. -/
structure Valid (state : Oallocs) (unit total : ℕ) : Prop where
  positive : 0 < unit
  atMost : unit ≤ intMax
  obtained : 0 < state.mm.memory
  isUnit : state.mm.memUnitSize = unit
  isTotal : state.mm.memTotalBnum = total
  fits : total * unit ≤ intMax
  used : ∃ index : ℕ, state.mm.nextAllocIndex = index ∧ index ≤ total
  given : ∀ memory ∈ state.given, region memory ⊆
    Set.Iio (state.mm.memory + state.mm.nextAllocIndex * unit)

namespace Valid

variable {before after : Oallocs} {label : UInt64 × Option ℤ}
  {unit total : ℕ}

theorem start {memTotalSize memUnitSize : ℤ} {memory : Option ℤ}
    {allocated : ℤ} (size : 0 ≤ memTotalSize ∧ memTotalSize ≤ intMax)
    (unitSize : 1 ≤ memUnitSize ∧ memUnitSize ≤ intMax)
    (obtained : 0 < memory.getD allocated) :
    (start (emOmemmngCreate memTotalSize memUnitSize memory allocated)).Valid
      memUnitSize.toNat (memTotalSize.toNat / memUnitSize.toNat) := by
  obtain ⟨total, rfl⟩ := Int.eq_ofNat_of_zero_le size.1
  obtain ⟨unit, rfl⟩ := Int.eq_ofNat_of_zero_le (by omega : 0 ≤ memUnitSize)
  constructor
  · omega
  · omega
  · exact obtained
  · rfl
  · rfl
  · have whole := Nat.div_mul_le_self total unit
    simp only [Int.toNat_natCast]
    omega
  · exact ⟨0, rfl, Nat.zero_le _⟩
  · nofun

section Step

variable {size : UInt64} {ret : Option ℤ} {index : ℕ}

/-- The units left, as the call computes them. -/
theorem left_eq (valid : before.Valid unit total)
    (used : before.mm.nextAllocIndex = index) (bound : index ≤ total) :
    toInt32 (before.mm.memTotalBnum - before.mm.nextAllocIndex) =
      (total - index : ℕ) := by
  have fits := valid.fits
  have whole := Nat.le_mul_of_pos_right total valid.positive
  rw [valid.isTotal, used, ← Int.ofNat_sub bound, toInt32_natCast (by omega)]

theorem refuse (valid : before.Valid unit total)
    (taken : before.Step (size, ret) after)
    (tooMany : before.mm.memTotalBnum - before.mm.nextAllocIndex <
      emOallocBlength before.mm size) :
    ret = none ∧ after = before := by
  obtain ⟨called, given⟩ := taken
  obtain ⟨index, used, bound⟩ := valid.used
  have left := valid.left_eq used bound
  rw [valid.isTotal, used] at tooMany
  dsimp only at called
  rw [emOalloc, if_neg (by omega)] at called
  obtain ⟨rfl, isAfter⟩ := Prod.mk.inj called
  obtain ⟨afterMm, afterGiven⟩ := after
  dsimp only at isAfter given
  rw [← isAfter, given]
  exact ⟨rfl, rfl⟩

theorem give (valid : before.Valid unit total)
    (taken : before.Step (size, ret) after) {count : ℕ}
    (counted : emOallocBlength before.mm size = count)
    (used : before.mm.nextAllocIndex = index)
    (enough : index + count ≤ total) :
    ret = some (before.mm.memory + (index * unit : ℕ)) ∧
      after.mm = { before.mm with nextAllocIndex := (index + count : ℕ) } ∧
      after.given =
        (before.mm.memory + (index * unit : ℕ), size.toNat) ::
          before.given := by
  obtain ⟨called, given⟩ := taken
  have left := valid.left_eq used (by omega)
  have fits := valid.fits
  have whole := Nat.le_mul_of_pos_right total valid.positive
  have product := Nat.mul_le_mul_right unit
    (show index ≤ total by omega)
  rw [emOalloc, left, counted, if_pos (by omega), used, valid.isUnit,
    ← Int.natCast_add, ← Int.natCast_mul, toInt32_natCast (by omega),
    toInt32_natCast (by omega)] at called
  obtain ⟨rfl, isAfter⟩ := Prod.mk.inj called
  refine ⟨rfl, ?_, given⟩
  rw [← isAfter, ← valid.isUnit]

end Step

theorem isUnit_toNat (valid : before.Valid unit total) :
    before.mm.memUnitSize.toNat = unit := by
  rw [valid.isUnit, Int.toNat_natCast]

theorem sound_of_refused (valid : before.Valid unit total)
    {size : UInt64} {ret : Option ℤ}
    (taken : before.Step (size, ret) after)
    (computed : before.mm.memTotalBnum - before.mm.nextAllocIndex <
      emOallocBlength before.mm size)
    (tooMany : before.mm.memTotalBnum - before.mm.nextAllocIndex <
      unitCount unit size.toNat) :
    before.Sound (size, ret) after ∧ after.Valid unit total := by
  obtain ⟨rfl, rfl⟩ := valid.refuse taken computed
  obtain ⟨index, used, bound⟩ := valid.used
  refine ⟨⟨nofun, nofun, nofun, le_rfl, ?_, ?_, fun _ => rfl, rfl⟩, valid⟩
  · rw [used, valid.isTotal]
    exact_mod_cast bound
  · rw [valid.isUnit_toNat]
    exact iff_of_true rfl tooMany

/-- Where the region of the next call begins. -/
theorem given_below (valid : before.Valid unit total) {index : ℕ}
    (used : before.mm.nextAllocIndex = index) :
    ∀ memory ∈ before.given, region memory ⊆
      Set.Iio (before.mm.memory + (index * unit : ℕ)) := by
  intro memory member
  have below := valid.given memory member
  rwa [used, ← Int.natCast_mul] at below

theorem extent_eq (index count : ℕ) :
    (index + count) * unit = index * unit + unit * count := by
  rw [Nat.add_mul, Nat.mul_comm count]

theorem valid_of_given (valid : before.Valid unit total) {index size : ℕ}
    (used : before.mm.nextAllocIndex = index)
    (room : index + unitCount unit size ≤ total)
    (isAfter : after.mm = { before.mm with
      nextAllocIndex := (index + unitCount unit size : ℕ) })
    (isGiven : after.given =
      (before.mm.memory + (index * unit : ℕ), size) :: before.given) :
    after.Valid unit total := by
  have covers := @size_le_units unit size valid.positive
  have extent := @extent_eq unit index (unitCount unit size)
  refine ⟨valid.positive, valid.atMost, ?_, ?_, ?_, valid.fits, ?_, ?_⟩
  · rw [isAfter]
    exact valid.obtained
  · rw [isAfter]
    exact valid.isUnit
  · rw [isAfter]
    exact valid.isTotal
  · rw [isAfter]
    exact ⟨_, rfl, room⟩
  · intro memory member
    rw [isGiven] at member
    rw [isAfter]
    dsimp only
    rw [← Int.natCast_mul, extent]
    intro address inRegion
    rw [Set.mem_Iio]
    rcases List.mem_cons.mp member with rfl | old
    · have upper := inRegion.2
      dsimp only at upper
      omega
    · have below := valid.given_below used memory old inRegion
      rw [Set.mem_Iio] at below
      omega

theorem sound_of_given (valid : before.Valid unit total)
    {size : UInt64} {ret : Option ℤ}
    (taken : before.Step (size, ret) after)
    (counted : emOallocBlength before.mm size = unitCount unit size.toNat)
    (enough : unitCount unit size.toNat ≤
      before.mm.memTotalBnum - before.mm.nextAllocIndex) :
    before.Sound (size, ret) after ∧ after.Valid unit total := by
  obtain ⟨index, used, bound⟩ := valid.used
  have room : index + unitCount unit size.toNat ≤ total := by
    rw [valid.isTotal, used] at enough
    omega
  obtain ⟨rfl, isAfter, isGiven⟩ := valid.give taken counted used room
  refine ⟨?_, valid.valid_of_given used room isAfter isGiven⟩
  have covers := @size_le_units unit size.toNat valid.positive
  have product := Nat.mul_le_mul_right unit room
  have extent := @extent_eq unit index (unitCount unit size.toNat)
  constructor
  · rintro ret ⟨⟩
    have positive := valid.obtained
    omega
  · rintro ret ⟨⟩ address ⟨lower, upper⟩
    dsimp only at lower upper
    rw [Set.mem_Ico, valid.isTotal, valid.isUnit, ← Int.natCast_mul]
    omega
  · rintro ret ⟨⟩ other member
    apply Set.disjoint_left.mpr
    rintro address ⟨lower, _⟩ mine
    have below := valid.given_below used other member mine
    exact absurd below (not_lt_of_ge lower)
  · rw [isAfter, used]
    dsimp only
    omega
  · rw [isAfter]
    dsimp only
    rw [valid.isTotal]
    omega
  · rw [valid.isUnit_toNat]
    exact iff_of_false nofun (not_lt_of_ge enough)
  · nofun
  · rw [isAfter]

theorem step (valid : before.Valid unit total)
    (taken : Guarded Countable Step before label after) :
    before.Sound label after ∧ after.Valid unit total := by
  obtain ⟨countable, taken⟩ := taken
  simp only [Countable, valid.isUnit_toNat] at countable
  have counted := emOallocBlength_fits valid.isUnit valid.positive
    valid.atMost countable
  rcases lt_or_ge (before.mm.memTotalBnum - before.mm.nextAllocIndex)
    (unitCount unit label.1.toNat) with more | enough
  · exact valid.sound_of_refused taken (counted ▸ more) more
  · exact valid.sound_of_given taken counted enough

end Valid

/-- In a run of sound calls no two regions meet. -/
theorem given_pairwise_disjoint {mm : EmOmemmng}
    {labels : List (UInt64 × Option ℤ)} {state : Oallocs}
    (run : Run (Upholding Sound Step) (start mm) labels state) :
    state.given.Pairwise
      (fun one other => Disjoint (region one) (region other)) := by
  apply run.invariant
    (fun state => state.given.Pairwise
      (fun one other => Disjoint (region one) (region other)))
  · exact .nil
  · rintro before ⟨size, ret⟩ after apart ⟨sound, _, given⟩
    rw [given]
    cases ret with
    | none => exact apart
    | some ret => exact .cons (sound.apart ret rfl) apart

/-- In a run whose requests are countable every call is sound, and no two of
the regions given meet. -/
theorem oalloc_sound {memTotalSize memUnitSize : ℤ} {memory : Option ℤ}
    {allocated : ℤ} (size : 0 ≤ memTotalSize ∧ memTotalSize ≤ intMax)
    (unitSize : 1 ≤ memUnitSize ∧ memUnitSize ≤ intMax)
    (obtained : 0 < memory.getD allocated)
    {labels : List (UInt64 × Option ℤ)} {state : Oallocs}
    (run : Run (Guarded Countable Step)
      (start (emOmemmngCreate memTotalSize memUnitSize memory allocated))
      labels state) :
    Run (Upholding Sound Step)
        (start (emOmemmngCreate memTotalSize memUnitSize memory allocated))
        labels state ∧
      state.given.Pairwise
        (fun one other => Disjoint (region one) (region other)) := by
  have sound := run.upholding
    (fun state => state.Valid memUnitSize.toNat
      (memTotalSize.toNat / memUnitSize.toNat))
    (Valid.start size unitSize obtained)
    (fun _ _ _ valid taken => valid.step taken)
  exact ⟨sound, given_pairwise_disjoint sound⟩

/-- Five units of 16 bytes; the fourth request needs more than is left. -/
theorem oalloc_sound_five_calls :
    ∃ state, Run (Upholding Sound Step)
      (start (emOmemmngCreate 80 16 none 1000))
      [(16, some 1000), (10, some 1016), (20, some 1032), (20, none),
        (16, some 1064)] state ∧
      state.given.Pairwise
        (fun one other => Disjoint (region one) (region other)) := by
  have called (size : UInt64) (ret : Option ℤ) (index after : ℤ)
      (given : List (ℤ × ℕ))
      (fits : size.toNat / 16 * 16 ≤ intMax)
      (computed : emOalloc ⟨true, 16, 5, index, 1000⟩ size =
        (ret, ⟨true, 16, 5, after, 1000⟩)) :
      Guarded Countable Step ⟨⟨true, 16, 5, index, 1000⟩, given⟩ (size, ret)
        ⟨⟨true, 16, 5, after, 1000⟩, match ret with
          | none => given
          | some ret => (ret, size.toNat) :: given⟩ :=
    ⟨fits, computed, by cases ret <;> rfl⟩
  have run : Run (Guarded Countable Step)
      (start (emOmemmngCreate 80 16 none 1000))
      [(16, some 1000), (10, some 1016), (20, some 1032), (20, none),
        (16, some 1064)] _ :=
    .cons (called 16 (some 1000) 0 1 [] (by decide) (by decide +kernel)) <|
      .cons (called 10 (some 1016) 1 2 _ (by decide) (by decide +kernel)) <|
      .cons (called 20 (some 1032) 2 4 _ (by decide) (by decide +kernel)) <|
      .cons (called 20 none 4 4 _ (by decide) (by decide +kernel)) <|
      .cons (called 16 (some 1064) 4 5 _ (by decide) (by decide +kernel)) .nil
  exact ⟨_, oalloc_sound (by decide) (by decide) (by decide) run⟩

/-- Four gigabytes are given out of 16 bytes. -/
theorem oalloc_gives_too_much :
    ∃ after, Step (start (emOmemmngCreate 16 1 none 1000))
        (4294967296, some 1000) after ∧
      ¬ Sound (start (emOmemmngCreate 16 1 none 1000))
        (4294967296, some 1000) after := by
  refine ⟨⟨⟨true, 1, 16, 1, 1000⟩, [(1000, 4294967296)]⟩,
    ⟨by decide +kernel, by decide +kernel⟩, ?_⟩
  intro sound
  have isNone := sound.refused.mpr (by decide)
  cases isNone

end Oallocs

end EmbeddedMiddle
