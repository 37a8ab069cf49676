import EmbeddedMiddle.Foundation.MachineInt
import EmbeddedMiddle.Foundation.RegionLifecycle

/-!
# Common definitions and semaphores

Return codes and timeouts of `em_cmndefs.h`, and the counting semaphores of
`em_semaphore.c` as their POSIX counterparts behave.
-/

namespace EmbeddedMiddle

open Foundation

def emSuccess : ℤ := 0
def emError : ℤ := -1
def emErrTimeout : ℤ := -2
def emErrParam : ℤ := -11
def emErrOther : ℤ := -99

/-- The return value of the functions that know 0 and -1 only. -/
def retOf (done : Bool) : ℤ := if done then emSuccess else emError

/-- The pointers of an `em_queue_t` or an `em_ring_t` to its two regions, with
its `free_func`. -/
structure BlockRegions where
  freeFunc : FreeFunc
  rawdata : Option ℕ
  blockPtr : Option ℕ
  deriving DecidableEq, Inhabited

def emNoTimeout : ℤ := -1
def emNoWait : ℤ := 0

/-- The largest value `sem_init` accepts; above it the call fails. -/
def semValueMax : ℕ := intMax

structure EmSem where
  count : ℕ
  deriving DecidableEq, Inhabited, Repr

/-- `none` is a value that `sem_init` refuses. -/
def emSemInit (value : ℤ) : Option EmSem :=
  if 0 ≤ value ∧ value ≤ semValueMax then some ⟨value.toNat⟩ else none

/-- `em_sem_wait` when no other thread runs: `none` is a call that does not
return, since nobody is left to post. -/
def emSemWait (sem : EmSem) (timeoutMs : ℤ) : Option (ℤ × EmSem) :=
  if 0 < sem.count then some (emSuccess, ⟨sem.count - 1⟩)
  else if timeoutMs = emNoTimeout then none
  else some (emError, sem)

def emSemPost (sem : EmSem) : EmSem := ⟨sem.count + 1⟩

@[simp] theorem emSemPost_count (sem : EmSem) :
    (emSemPost sem).count = sem.count + 1 := rfl

/-- A successful wait takes one token. -/
theorem emSemWait_success {sem after : EmSem} {timeoutMs : ℤ}
    (waited : emSemWait sem timeoutMs = some (emSuccess, after)) :
    sem.count = after.count + 1 := by
  unfold emSemWait at waited
  split_ifs at waited with positive
  · obtain ⟨_, rfl⟩ := Prod.mk.inj (Option.some.inj waited)
    exact (Nat.sub_add_cancel positive).symm
  · cases (Prod.mk.inj (Option.some.inj waited)).1

theorem emSemInit_natCast {value : ℕ} (bound : value ≤ semValueMax) :
    emSemInit (value : ℤ) = some ⟨value⟩ := by
  simp [emSemInit, bound]

theorem emSemInit_eq {value : ℕ} (bound : value ≤ semValueMax) :
    emSemInit (toInt32 value) = some ⟨value⟩ := by
  rw [toInt32_natCast bound, emSemInit_natCast bound]

end EmbeddedMiddle
