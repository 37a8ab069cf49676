import EmbeddedMiddle.Mempool

/-!
# The semaphore manager

`em_semmng.c`: semaphores in the blocks of a pool, known by their addresses.
-/

namespace EmbeddedMiddle

open Foundation

/-- `sizeof(em_sem_t)` on a 64-bit system. -/
def sizeofSem : ℕ := 32

/-- `sem` is what the blocks of the pool hold, by address. -/
structure EmSemmng where
  mpSemaphore : EmMpool
  sem : ℤ → EmSem
  deriving Inhabited

def emSemmngInit (smm : EmSemmng) (maxSemNum rawdata : ℤ) : ℤ × EmSemmng :=
  let (ret, mpSemaphore) := emMpoolCreate smm.mpSemaphore sizeofSem
    (intToUint32 maxSemNum) rawdata
  (ret, { smm with mpSemaphore })

/-- `none` is NULL.  `answered` is whether `sem_init` can be carried out; it
refuses some values besides.  The block is not given back then. -/
def emSemmngFactory (smm : EmSemmng) (value : ℤ) (answered : Bool) :
    Option ℤ × EmSemmng :=
  match emMpoolAllocBlock smm.mpSemaphore emNoWait with
  | some (some sem, mpSemaphore) =>
      let smm := { smm with mpSemaphore }
      match if answered then emSemInit value else none with
      | none => (none, smm)
      | some initial =>
          (some sem, { smm with sem := Function.update smm.sem sem initial })
  | some (none, mpSemaphore) => (none, { smm with mpSemaphore })
  -- With EM_NO_WAIT the call always returns.
  | none => (none, smm)

/-- `em_sem_destroy` always returns 0. -/
def emSemmngDispose (smm : EmSemmng) (semP : ℤ) : ℤ × EmSemmng :=
  let (ret, mpSemaphore) := emMpoolFreeBlock smm.mpSemaphore semP
  (ret, { smm with mpSemaphore })

end EmbeddedMiddle
