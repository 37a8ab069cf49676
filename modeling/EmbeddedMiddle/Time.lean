import EmbeddedMiddle.Foundation.MachineInt

/-!
# Points in time

`em_time.c`, as far as timeouts go.  A reading of the clock is an argument of
the functions that take one.
-/

namespace EmbeddedMiddle

open Foundation

structure Timespec where
  tvSec : ℤ
  tvNsec : ℤ
  deriving DecidableEq, Inhabited, Repr

def emTimespecSub (a b : Timespec) : Timespec :=
  let ret : Timespec := ⟨a.tvSec - b.tvSec, a.tvNsec - b.tvNsec⟩
  if ret.tvNsec < 0 then ⟨ret.tvSec - 1, ret.tvNsec + 1000000000⟩ else ret

/-- `ts` is what `em_get_timestamp` returns. -/
def emGetOffsetTimestamp (ts : Timespec) (milliseconds : ℤ) : Timespec :=
  let ts : Timespec := ⟨ts.tvSec + milliseconds.tdiv 1000,
    ts.tvNsec + milliseconds.tmod 1000 * 1000000⟩
  if 1000000000 ≤ ts.tvNsec then ⟨ts.tvSec + 1, ts.tvNsec - 1000000000⟩
  else ts

def emCalcTimespec2ms (ts : Timespec) : ℤ :=
  toInt32 (ts.tvSec * 1000 + ts.tvNsec.tdiv 1000000)

def emCalcTimespec (milliseconds : ℤ) : Timespec :=
  ⟨milliseconds.tdiv 1000, milliseconds.tmod 1000 * 1000000⟩

namespace Timespec

variable {ts start now : Timespec} {milliseconds : ℤ}

/-- The nanoseconds since the epoch. -/
def nanoseconds (ts : Timespec) : ℤ := ts.tvSec * 1000000000 + ts.tvNsec

/-- What `clock_gettime` returns. -/
def Normalised (ts : Timespec) : Prop :=
  0 ≤ ts.tvNsec ∧ ts.tvNsec < 1000000000

instance : Decidable ts.Normalised :=
  inferInstanceAs (Decidable (_ ∧ _))

/-- Readings of a clock that does not go back, fewer than 2^31 ms apart. -/
structure Elapses (start now : Timespec) : Prop where
  normalised : start.Normalised ∧ now.Normalised
  later : start.nanoseconds ≤ now.nanoseconds
  bounded : now.nanoseconds - start.nanoseconds < 2147483648 * 1000000

theorem emTimespecSub_nanoseconds :
    (emTimespecSub now start).nanoseconds =
      now.nanoseconds - start.nanoseconds := by
  unfold emTimespecSub nanoseconds
  dsimp only
  split_ifs
  · dsimp only
    omega
  · dsimp only
    omega

theorem emTimespecSub_normalised
    (normalised : start.Normalised ∧ now.Normalised) :
    (emTimespecSub now start).Normalised := by
  obtain ⟨⟨startLower, startUpper⟩, lower, upper⟩ := normalised
  unfold emTimespecSub Normalised
  dsimp only
  split_ifs with borrowed
  · dsimp only
    omega
  · dsimp only
    omega

theorem emGetOffsetTimestamp_nanoseconds :
    (emGetOffsetTimestamp ts milliseconds).nanoseconds =
      ts.nanoseconds + milliseconds * 1000000 := by
  have whole := Int.mul_tdiv_add_tmod milliseconds 1000
  unfold emGetOffsetTimestamp nanoseconds
  dsimp only
  split_ifs
  · dsimp only
    omega
  · dsimp only
    omega

/-- Only an offset into the past is malformed. -/
theorem malformed_passed (normalised : ts.Normalised)
    (malformed : ¬(emGetOffsetTimestamp ts milliseconds).Normalised) :
    (emGetOffsetTimestamp ts milliseconds).nanoseconds ≤ ts.nanoseconds := by
  obtain ⟨lower, upper⟩ := normalised
  have whole := Int.mul_tdiv_add_tmod milliseconds 1000
  have rest := Int.tmod_lt_of_pos milliseconds (b := 1000) (by decide)
  suffices past : milliseconds < 0 by
    rw [emGetOffsetTimestamp_nanoseconds]
    omega
  by_contra future
  have rest_nonneg := Int.tmod_nonneg 1000 (Int.not_lt.mp future)
  apply malformed
  unfold emGetOffsetTimestamp Normalised
  dsimp only
  split_ifs
  · dsimp only
    omega
  · dsimp only
    omega

/-- The whole milliseconds between two readings, narrowed to an `int`. -/
theorem emCalcTimespec2ms_sub
    (normalised : start.Normalised ∧ now.Normalised) :
    emCalcTimespec2ms (emTimespecSub now start) =
      toInt32 ((now.nanoseconds - start.nanoseconds) / 1000000) := by
  obtain ⟨lower, upper⟩ := emTimespecSub_normalised normalised
  have passed := @emTimespecSub_nanoseconds start now
  unfold emCalcTimespec2ms
  rw [Int.tdiv_eq_ediv_of_nonneg lower, ← passed]
  unfold nanoseconds
  congr 1
  omega

/-- Between two readings the whole milliseconds are counted. -/
theorem Elapses.passedMs (elapses : Elapses start now) :
    emCalcTimespec2ms (emTimespecSub now start) =
      (now.nanoseconds - start.nanoseconds) / 1000000 := by
  have later := elapses.later
  have bounded := elapses.bounded
  rw [emCalcTimespec2ms_sub elapses.normalised]
  exact toInt32_of_range (by omega) (by omega)

end Timespec

end EmbeddedMiddle
