import EmbeddedMiddle.Mempool
import EmbeddedMiddle.Time

/-!
# Timers

`em_timer.c`.  Every timer of the operating system has a record in a block of
the pool `mp_timerinfo`; its callback gets the address of the setting inside
that record.
-/

namespace EmbeddedMiddle

open Foundation

structure Itimerspec where
  itInterval : Timespec
  itValue : Timespec
  deriving DecidableEq, Inhabited, Repr

/-! ## The timers of the operating system -/

structure LinuxTimer where
  sivalPtr : ℤ
  setting : Itimerspec
  deriving DecidableEq, Inhabited, Repr

abbrev LinuxTimers := ℕ → Option LinuxTimer

/-- `timer_create`: a new timer is disarmed; `none` is a failure. -/
def timerCreate (timers : LinuxTimers) (created : Option ℕ) (sivalPtr : ℤ) :
    Option ℕ × LinuxTimers :=
  match created with
  | none => (none, timers)
  | some id => (some id, Function.update timers id (some ⟨sivalPtr, default⟩))

/-- `timer_settime` fails on a timer that does not exist and may fail on any
other. -/
def timerSettime (timers : LinuxTimers) (id : ℕ) (ts : Itimerspec)
    (accepted : Bool) : ℤ × LinuxTimers :=
  match timers id with
  | none => (-1, timers)
  | some timer =>
      if accepted then
        (0, Function.update timers id (some { timer with setting := ts }))
      else (-1, timers)

section Settime

variable {timers : LinuxTimers} {id : ℕ} {timer : LinuxTimer}
  {ts : Itimerspec}

theorem timerSettime_accepted (found : timers id = some timer) :
    timerSettime timers id ts true =
      (0, Function.update timers id (some { timer with setting := ts })) := by
  simp [timerSettime, found]

@[simp] theorem timerSettime_refused :
    timerSettime timers id ts false = (-1, timers) := by
  unfold timerSettime
  split <;> rfl

end Settime

def timerDelete (timers : LinuxTimers) (id : ℕ) : ℤ × LinuxTimers :=
  match timers id with
  | none => (-1, timers)
  | some _ => (0, Function.update timers id none)

/-! ## The manager -/

/-- The function and its argument are addresses. -/
structure EmTimersetting where
  intervalMs : ℤ
  timerFunc : ℤ
  arg : ℤ
  deriving DecidableEq, Inhabited, Repr

structure EmTimerinfo where
  linuxTimerId : ℕ
  setting : EmTimersetting
  deriving DecidableEq, Inhabited, Repr

/-- `sizeof(em_timerinfo_t)` and the offset of `setting` in it, where pointers
have 8 bytes. -/
def sizeofTimerinfo : ℕ := 32

def offsetofSetting : ℤ := 8

/-- `timerinfo` is what the blocks of the pool hold, by address. -/
structure EmTimermng where
  mpTimerinfo : EmMpool
  timerinfo : ℤ → EmTimerinfo
  deriving Inhabited

def emTimermngInit (tmrmng : EmTimermng) (numTimer rawdata : ℤ) :
    ℤ × EmTimermng :=
  let (ret, mpTimerinfo) := emMpoolCreate tmrmng.mpTimerinfo sizeofTimerinfo
    (intToUint32 numTimer) rawdata
  (ret, { tmrmng with mpTimerinfo })

/-- The manager and the timers. -/
structure EmTimers where
  tmrmng : EmTimermng
  timers : LinuxTimers
  deriving Inhabited

namespace EmTimers

/-- Assign to fields of the record at an address. -/
def assign (state : EmTimers) (address : ℤ)
    (change : EmTimerinfo → EmTimerinfo) : EmTimers :=
  { state with
    tmrmng.timerinfo := Function.update state.tmrmng.timerinfo address
      (change (state.tmrmng.timerinfo address)) }

/-- `em_mpool_free_block` on a record. -/
def freeBlock (state : EmTimers) (address : ℤ) : EmTimers :=
  { state with
    tmrmng.mpTimerinfo :=
      (emMpoolFreeBlock state.tmrmng.mpTimerinfo address).2 }

end EmTimers

/-- The return value, the identifier stored through `timer_id` if there is one,
and the state; `created` and `accepted` are the answers of the system. -/
def emTimerCreate (state : EmTimers) (setting : EmTimersetting)
    (created : Option ℕ) (accepted : Bool) : ℤ × Option ℕ × EmTimers :=
  match emMpoolAllocBlock state.tmrmng.mpTimerinfo emNoWait with
  -- With EM_NO_WAIT the call always returns.
  | none => (-1, none, state)
  | some (none, mp) =>
      (-1, none, { state with tmrmng.mpTimerinfo := mp })
  | some (some timerInfo, mp) =>
      let state := { state with tmrmng.mpTimerinfo := mp }
      let state := state.assign timerInfo (fun old => { old with setting })
      let timerId := some (intToUint32 (1 + emMpoolGetDataidx mp timerInfo))
      match timerCreate state.timers created (timerInfo + offsetofSetting) with
      | (none, timers) =>
          let state := { state with timers }
          (-1, timerId, state.freeBlock timerInfo)
      | (some linuxTimerId, timers) =>
          let state := { state with timers }
          let state := state.assign timerInfo
            (fun old => { old with linuxTimerId })
          let ts : Itimerspec := ⟨emCalcTimespec setting.intervalMs,
            emCalcTimespec setting.intervalMs⟩
          let (ret, timers) := timerSettime state.timers linuxTimerId ts
            accepted
          let state := { state with timers }
          if ret = -1 then (-2, timerId, state.freeBlock timerInfo)
          else (0, timerId, state)

def emTimerDelete (state : EmTimers) (timerId : ℕ) : ℤ × EmTimers :=
  match emMpoolGetDataptr state.tmrmng.mpTimerinfo
      (intToUint32 (timerId - 1)) with
  | none => (-1, state)
  | some timerInfo =>
      let (ret, timers) := timerDelete state.timers
        (state.tmrmng.timerinfo timerInfo).linuxTimerId
      let state := { state with timers }
      (ret, state.freeBlock timerInfo)

def emTimerSetInterval (state : EmTimers) (timerId : ℕ) (intervalMs : ℤ)
    (accepted : Bool) : ℤ × EmTimers :=
  match emMpoolGetDataptr state.tmrmng.mpTimerinfo
      (intToUint32 (timerId - 1)) with
  | none => (-1, state)
  | some timerInfo =>
      let ts : Itimerspec :=
        ⟨emCalcTimespec intervalMs, emCalcTimespec intervalMs⟩
      let (ret, timers) := timerSettime state.timers
        (state.tmrmng.timerinfo timerInfo).linuxTimerId ts accepted
      let state := { state with timers }
      if ret = -1 then (-2, state.freeBlock timerInfo)
      else (ret, state)

/-! ## Runs -/

/-- A call with the answers of the operating system. -/
inductive TimerCall where
  | create (setting : EmTimersetting) (created : Option ℕ) (accepted : Bool)
  | delete (timerId : ℕ)
  | setInterval (timerId : ℕ) (intervalMs : ℤ) (accepted : Bool)

namespace EmTimers

def call (state : EmTimers) : TimerCall → ℤ × EmTimers
  | .create setting created accepted =>
      let (ret, _, state) := emTimerCreate state setting created accepted
      (ret, state)
  | .delete timerId => emTimerDelete state timerId
  | .setInterval timerId intervalMs accepted =>
      emTimerSetInterval state timerId intervalMs accepted

/-- A call with its return value; a timer that is created is a new one. -/
def Step (before : EmTimers) (label : TimerCall × ℤ) (after : EmTimers) :
    Prop :=
  (∀ setting id accepted, label.1 = .create setting (some id) accepted →
    before.timers id = none) ∧
  before.call label.1 = (label.2, after)

/-- After `em_timermng_init`, before any timer. -/
def start (memory : EmTimermng) (numTimer rawdata : ℤ) : EmTimers :=
  ⟨(emTimermngInit memory numTimer rawdata).2, fun _ => none⟩

/-- The addresses of the blocks in use. -/
def liveBlocks (state : EmTimers) : Set ℤ :=
  let mp := state.tmrmng.mpTimerinfo
  {address | ∃ slot, slot < mp.numUsed ∧
    (mp.block (mp.blockPtr slot)).dataPtr = address}

def timerIds (state : EmTimers) : Set ℕ :=
  {id | state.timers id ≠ none}

/-- Live records and timers belong to each other, and the callback of a timer
gets the setting of its own record. -/
structure InStep (state : EmTimers) : Prop where
  paired : Set.BijOn
    (fun address => (state.tmrmng.timerinfo address).linuxTimerId)
    state.liveBlocks state.timerIds
  calledBack : ∀ address ∈ state.liveBlocks, ∀ timer,
    state.timers (state.tmrmng.timerinfo address).linuxTimerId = some timer →
      timer.sivalPtr = address + offsetofSetting

/-- The same timers, the same records, and identifiers that mean the same. -/
structure Unchanged (before after : EmTimers) : Prop where
  timers : after.timers = before.timers
  liveBlocks : after.liveBlocks = before.liveBlocks
  timerinfo : ∀ address ∈ before.liveBlocks,
    after.tmrmng.timerinfo address = before.tmrmng.timerinfo address
  dataptr : emMpoolGetDataptr after.tmrmng.mpTimerinfo =
    emMpoolGetDataptr before.tmrmng.mpTimerinfo

/-- The call leaves timers and records in step, and changes nothing when it
fails. -/
def KeepsTimers (before : EmTimers) (label : TimerCall × ℤ)
    (after : EmTimers) : Prop :=
  after.InStep ∧ (label.2 ≠ 0 → before.Unchanged after)

/-- The system accepts the interval whenever the call gets as far as
`timer_settime`: a block is free and the timer could be created, or the
identifier is one of a live block. -/
def SettimeAccepted (before : EmTimers) (label : TimerCall × ℤ) : Prop :=
  match label.1 with
  | .create _ created accepted =>
      before.tmrmng.mpTimerinfo.numUsed < before.tmrmng.mpTimerinfo.numMax →
        created ≠ none → accepted = true
  | .delete _ => True
  | .setInterval timerId _ accepted =>
      emMpoolGetDataptr before.tmrmng.mpTimerinfo
          (intToUint32 (timerId - 1)) ≠ none →
        accepted = true

end EmTimers

end EmbeddedMiddle
