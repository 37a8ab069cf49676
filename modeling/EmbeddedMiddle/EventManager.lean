import EmbeddedMiddle.Mempool

/-!
# The event manager

The functions `em_evtmng_…` of `em_eventflag.c`: events in the blocks of a pool,
known by their addresses.  An event is a condition variable and a mutex.
-/

namespace EmbeddedMiddle

open Foundation

/-- `sizeof(em_event_t)` on a 64-bit system. -/
def sizeofEvent : ℕ := 88

structure EmEvtmng where
  mpEvent : EmMpool
  deriving Inhabited

/-- `cond` and `mtx` are whether the two calls of the system return 0; the
second one is made after a success of the first. -/
def emEventInit (cond mtx : Bool) : ℤ :=
  if !cond then -1 else if !mtx then -1 else 0

def emEventDestroy (cond mtx : Bool) : ℤ :=
  if !cond then -1 else if !mtx then -1 else 0

def emEvtmngInit (evtmng : EmEvtmng) (maxEventNum : ℕ) (rawdata : ℤ) :
    ℤ × EmEvtmng :=
  let (ret, mpEvent) := emMpoolCreate evtmng.mpEvent sizeofEvent maxEventNum
    rawdata
  if ret ≠ 0 then (-1, { mpEvent }) else (0, { mpEvent })

/-- `none` is NULL; the block of an event that could not be initialised is not
given back. -/
def emEvtmngFactory (evtmng : EmEvtmng) (cond mtx : Bool) :
    Option ℤ × EmEvtmng :=
  match emMpoolAllocBlock evtmng.mpEvent emNoWait with
  | some (some event, mpEvent) =>
      if emEventInit cond mtx ≠ 0 then (none, { mpEvent })
      else (some event, { mpEvent })
  | some (none, mpEvent) => (none, { mpEvent })
  -- With EM_NO_WAIT the call always returns.
  | none => (none, evtmng)

def emEvtmngDispose (evtmng : EmEvtmng) (evtP : ℤ) (cond mtx : Bool) :
    ℤ × EmEvtmng :=
  if emEventDestroy cond mtx ≠ 0 then (-1, evtmng)
  else
    let (ret, mpEvent) := emMpoolFreeBlock evtmng.mpEvent evtP
    (ret, { mpEvent })

end EmbeddedMiddle
