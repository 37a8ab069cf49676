import EmbeddedMiddle.Time

/-!
# Sums of times and the tick counter

`em_timespec_add` and the millisecond tick of `em_time.c`.  Times are exact as
long as their seconds fit into a `time_t`; the tick is an `int`, which counts
for less than 25 days.
-/

namespace EmbeddedMiddle

open Foundation

def emTimespecAdd (a b : Timespec) : Timespec :=
  let ret : Timespec := ⟨a.tvSec + b.tvSec, a.tvNsec + b.tvNsec⟩
  if 1000000000 ≤ ret.tvNsec then ⟨ret.tvSec + 1, ret.tvNsec - 1000000000⟩
  else ret

structure EmTimemng where
  isInitialized : ℤ
  initTime : Timespec
  deriving DecidableEq, Inhabited, Repr

/-- `reading` is what `clock_gettime` gives, `none` its failure. -/
def emTickInit (tm : EmTimemng) (reading : Option Timespec) :
    ℤ × EmTimemng :=
  let tm := { tm with isInitialized := 0 }
  match reading with
  | none => (-1, tm)
  | some ts => (0, ⟨1, ts⟩)

/-- `currentTs` is what `em_get_timestamp` returns. -/
def emGetTickCount (tm : EmTimemng) (currentTs : Timespec) : ℤ :=
  if tm.isInitialized = 0 then -1
  else
    let ret := emTimespecSub currentTs tm.initTime
    toInt32 (ret.tvSec * 1000 + ret.tvNsec.tdiv 1000000)

namespace Timespec

variable {a b now init first second : Timespec} {milliseconds : ℤ}

/-! ## Sums and differences -/

theorem emTimespecAdd_nanoseconds :
    (emTimespecAdd a b).nanoseconds = a.nanoseconds + b.nanoseconds := by
  unfold emTimespecAdd nanoseconds
  dsimp only
  split_ifs
  · dsimp only
    omega
  · dsimp only
    omega

theorem emTimespecAdd_normalised (normalised : a.Normalised ∧ b.Normalised) :
    (emTimespecAdd a b).Normalised := by
  obtain ⟨⟨leftLower, leftUpper⟩, lower, upper⟩ := normalised
  unfold emTimespecAdd Normalised
  dsimp only
  split_ifs with carried
  · dsimp only
    omega
  · dsimp only
    omega

/-- A time has one normalised form. -/
theorem eq_of_nanoseconds (leftNormalised : a.Normalised)
    (rightNormalised : b.Normalised) (same : a.nanoseconds = b.nanoseconds) :
    a = b := by
  obtain ⟨leftSec, leftNsec⟩ := a
  obtain ⟨rightSec, rightNsec⟩ := b
  unfold Normalised at leftNormalised rightNormalised
  unfold nanoseconds at same
  dsimp only at leftNormalised rightNormalised same
  have seconds : leftSec = rightSec := by omega
  have rest : leftNsec = rightNsec := by omega
  rw [seconds, rest]

theorem seconds_eq (normalised : a.Normalised) :
    a.tvSec = a.nanoseconds / 1000000000 := by
  obtain ⟨lower, upper⟩ := normalised
  unfold nanoseconds
  omega

theorem emTimespecSub_add (normalised : a.Normalised ∧ b.Normalised) :
    emTimespecSub (emTimespecAdd a b) b = a := by
  have sum := emTimespecAdd_normalised normalised
  have difference := emTimespecSub_normalised ⟨normalised.2, sum⟩
  apply eq_of_nanoseconds difference normalised.1
  rw [emTimespecSub_nanoseconds, emTimespecAdd_nanoseconds]
  omega

/-- The milliseconds behind the second are an `int` in nanoseconds too. -/
theorem remainder_range (forward : 0 ≤ milliseconds) :
    0 ≤ milliseconds.tmod 1000 * 1000000 ∧
      milliseconds.tmod 1000 * 1000000 ≤ 999000000 := by
  have lower := Int.tmod_nonneg 1000 forward
  have upper := Int.tmod_lt_of_pos milliseconds (b := 1000) (by decide)
  omega

theorem emGetOffsetTimestamp_normalised (normalised : now.Normalised)
    (forward : 0 ≤ milliseconds) :
    (emGetOffsetTimestamp now milliseconds).Normalised := by
  obtain ⟨lower, upper⟩ := normalised
  have remainder := remainder_range forward
  unfold emGetOffsetTimestamp Normalised
  dsimp only
  split_ifs
  · dsimp only
    omega
  · dsimp only
    omega

/-- The values of a `time_t`. -/
def IsTimeT (seconds : ℤ) : Prop :=
  -9223372036854775808 ≤ seconds ∧ seconds ≤ 9223372036854775807

instance {seconds : ℤ} : Decidable (IsTimeT seconds) :=
  inferInstanceAs (Decidable (_ ∧ _))

/-- What a `struct timespec` can hold as a point in time. -/
structure Storable (ts : Timespec) : Prop where
  normalised : ts.Normalised
  seconds : IsTimeT ts.tvSec

theorem storable_of_exact {value : ℤ} (normalised : a.Normalised)
    (exact : a.nanoseconds = value) (fits : IsTimeT (value / 1000000000)) :
    a.Storable := by
  refine ⟨normalised, ?_⟩
  rw [seconds_eq normalised, exact]
  exact fits

/-- What the functions promise wherever each sum of seconds that they form is
a `time_t`. -/
structure ArithmeticExact (a b now : Timespec) (milliseconds : ℤ) :
    Prop where
  sum : IsTimeT (a.tvSec + b.tvSec) →
    IsTimeT ((a.nanoseconds + b.nanoseconds) / 1000000000) →
      (emTimespecAdd a b).Storable ∧
        (emTimespecAdd a b).nanoseconds = a.nanoseconds + b.nanoseconds
  difference : IsTimeT (a.tvSec - b.tvSec) →
    IsTimeT ((a.nanoseconds - b.nanoseconds) / 1000000000) →
      (emTimespecSub a b).Storable ∧
        (emTimespecSub a b).nanoseconds = a.nanoseconds - b.nanoseconds
  offset : IsTimeT (now.tvSec + milliseconds.tdiv 1000) →
    IsTimeT ((now.nanoseconds + milliseconds * 1000000) / 1000000000) →
      (emGetOffsetTimestamp now milliseconds).Storable ∧
        (emGetOffsetTimestamp now milliseconds).nanoseconds =
          now.nanoseconds + milliseconds * 1000000
  undone : IsTimeT (a.tvSec + b.tvSec) →
    IsTimeT ((a.nanoseconds + b.nanoseconds) / 1000000000) →
      IsTimeT ((emTimespecAdd a b).tvSec - b.tvSec) →
        emTimespecSub (emTimespecAdd a b) b = a
  product : 0 ≤ milliseconds.tmod 1000 * 1000000 ∧
    milliseconds.tmod 1000 * 1000000 ≤ intMax

/-- The arithmetic of times is exact up to the range of `time_t`. -/
theorem timespec_arithmetic_exact
    (leftNormalised : a.Normalised) (rightNormalised : b.Normalised)
    (nowNormalised : now.Normalised) (forward : 0 ≤ milliseconds) :
    ArithmeticExact a b now milliseconds := by
  refine ⟨?_, ?_, ?_, ?_, ?_⟩
  · intro _ fits
    have exact := @emTimespecAdd_nanoseconds a b
    have normalised :=
      emTimespecAdd_normalised ⟨leftNormalised, rightNormalised⟩
    exact ⟨storable_of_exact normalised exact fits, exact⟩
  · intro _ fits
    have exact := @emTimespecSub_nanoseconds b a
    have normalised :=
      emTimespecSub_normalised ⟨rightNormalised, leftNormalised⟩
    exact ⟨storable_of_exact normalised exact fits, exact⟩
  · intro _ fits
    have exact := @emGetOffsetTimestamp_nanoseconds now milliseconds
    have normalised := emGetOffsetTimestamp_normalised nowNormalised forward
    exact ⟨storable_of_exact normalised exact fits, exact⟩
  · intro _ _ _
    exact emTimespecSub_add ⟨leftNormalised, rightNormalised⟩
  · have remainder := remainder_range forward
    unfold intMax
    omega

/-- A carry, a borrow and an offset across a second. -/
theorem timespec_arithmetic_exact_carried :
    ArithmeticExact ⟨5, 600000000⟩ ⟨2, 700000000⟩ ⟨9, 999000000⟩ 1001 ∧
      emTimespecAdd ⟨5, 600000000⟩ ⟨2, 700000000⟩ = ⟨8, 300000000⟩ ∧
      emTimespecSub ⟨5, 600000000⟩ ⟨2, 700000000⟩ = ⟨2, 900000000⟩ ∧
      emGetOffsetTimestamp ⟨9, 999000000⟩ 1001 = ⟨11, 0⟩ := by
  refine ⟨timespec_arithmetic_exact ?_ ?_ ?_ ?_, ?_, ?_, ?_⟩ <;> decide

/-- Two times whose sum no `struct timespec` can hold. -/
theorem timespec_sum_past_range :
    let a : Timespec := ⟨4611686018427387904, 0⟩
    a.Storable ∧ ¬(emTimespecAdd a a).Storable ∧
      ¬∃ ret : Timespec, ret.Storable ∧
        ret.nanoseconds = a.nanoseconds + a.nanoseconds := by
  refine ⟨⟨by decide, by decide⟩, ?_, ?_⟩
  · intro storable
    have fits := storable.seconds
    revert fits
    decide
  · rintro ⟨ret, storable, same⟩
    have fits := storable.seconds
    rw [seconds_eq storable.normalised, same] at fits
    revert fits
    decide

/-! ## The tick -/

/-- The tick of two readings counts the whole milliseconds since the start. -/
structure TicksExact (tm : EmTimemng) (init first second : Timespec) :
    Prop where
  monotone : emGetTickCount tm first ≤ emGetTickCount tm second
  firstExact : emGetTickCount tm first =
    (first.nanoseconds - init.nanoseconds) / 1000000
  secondExact : emGetTickCount tm second =
    (second.nanoseconds - init.nanoseconds) / 1000000
  nonneg : 0 ≤ emGetTickCount tm first ∧ 0 ≤ emGetTickCount tm second

/-- The tick is the elapsed milliseconds narrowed to an `int`. -/
theorem emGetTickCount_eq (tm : EmTimemng) (initNormalised : init.Normalised)
    (normalised : now.Normalised) :
    emGetTickCount (emTickInit tm (some init)).2 now =
      toInt32 ((now.nanoseconds - init.nanoseconds) / 1000000) := by
  have running : (emTickInit tm (some init)).2.isInitialized ≠ 0 :=
    Int.one_ne_zero
  rw [← emCalcTimespec2ms_sub ⟨initNormalised, normalised⟩]
  exact if_neg running

/-- The tick is monotone and exact as long as the elapsed milliseconds are an
`int`. -/
theorem tick_exact_iff (tm : EmTimemng) (initNormalised : init.Normalised)
    (firstNormalised : first.Normalised)
    (secondNormalised : second.Normalised)
    (started : init.nanoseconds ≤ first.nanoseconds)
    (later : first.nanoseconds ≤ second.nanoseconds) :
    TicksExact (emTickInit tm (some init)).2 init first second ↔
      (second.nanoseconds - init.nanoseconds) / 1000000 ≤ intMax := by
  have firstTick := emGetTickCount_eq tm initNormalised firstNormalised
  have secondTick := emGetTickCount_eq tm initNormalised secondNormalised
  constructor
  · intro exact
    have range :=
      toInt32_range ((second.nanoseconds - init.nanoseconds) / 1000000)
    rw [← secondTick, exact.secondExact] at range
    exact range.2
  · intro bounded
    unfold intMax at bounded
    rw [toInt32_of_range (by omega) (by omega)] at firstTick secondTick
    refine ⟨?_, firstTick, secondTick, ?_, ?_⟩ <;> omega

/-- Ticks before and after one day. -/
theorem tick_exact_one_day :
    TicksExact (emTickInit default (some ⟨1000, 900000000⟩)).2
      ⟨1000, 900000000⟩ ⟨1001, 100000000⟩ ⟨87400, 900000000⟩ := by
  refine (tick_exact_iff default ?_ ?_ ?_ ?_ ?_).mpr ?_ <;> decide

/-- After 25 days the tick is negative and below an earlier one. -/
theorem tick_negative_after_25_days :
    let tm := (emTickInit default (some ⟨1000, 0⟩)).2
    emGetTickCount tm ⟨1001, 0⟩ = 1000 ∧
      emGetTickCount tm ⟨2161000, 0⟩ = -2134967296 ∧
      ¬TicksExact tm ⟨1000, 0⟩ ⟨1001, 0⟩ ⟨2161000, 0⟩ := by
  refine ⟨by decide, by decide, ?_⟩
  intro exact
  have nonneg := exact.nonneg.2
  revert nonneg
  decide

end Timespec

end EmbeddedMiddle
