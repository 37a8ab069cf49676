import EmbeddedMiddle.CommonDefs
import EmbeddedMiddle.Foundation.Transition
import EmbeddedMiddle.Time

/-!
# The MQTT client's connect

`em_mqttc_connect` beside the network thread of the MQTT library, which calls
`on_connect_sync` once.  The two meet on the condition variable of
`em_event_wait` and `em_event_broadcast`, which keeps no state: a broadcast
reaches only a caller that is already enrolled.
-/

namespace EmbeddedMiddle

open Foundation

def etimedout : ℤ := 110
def einval : ℤ := 22

/-- What `em_event_wait` returns when the wait for the condition variable
returned `ret`. -/
def emEventWaitResult (timeoutMs ret : ℤ) : ℤ :=
  if ret ≠ 0 then
    if timeoutMs = emNoTimeout then emError else emErrTimeout
  else emSuccess

theorem emEventWaitResult_ne_zero {timeoutMs ret : ℤ} :
    emEventWaitResult timeoutMs ret ≠ 0 ↔ ret ≠ 0 := by
  unfold emEventWaitResult
  split_ifs with failed
  · simpa [emError] using failed
  · simpa [emErrTimeout] using failed
  · simpa [emSuccess] using failed

/-- The caller: in `em_mqttc_connect` before the connection and before the
loop; in `em_event_wait` before the deadline is taken, before the lock, with
the lock, enrolled on the condition variable without the lock, and back from
it without and with the lock; about to disconnect. -/
inductive ConnectPlace where
  | called
  | bound
  | started
  | timed
  | locked
  | waiting
  | woken (condRet : ℤ)
  | relocked (condRet : ℤ)
  | failing
  | returned (ret : ℤ)
  deriving DecidableEq

/-- The network thread: not there; before `on_connect_sync`; in it with
`is_connected` set, with the lock, and with the broadcast made; behind it. -/
inductive NetworkPlace where
  | stopped
  | running
  | connected
  | locked
  | announced
  | done
  deriving DecidableEq

inductive MqttcParty where
  | caller
  | network
  deriving DecidableEq

/-- The client with both threads.  `ret` is the variable of
`em_mqttc_connect`, `deadline` the one of `em_event_wait`, if it has been
computed; `connectedAt` is when `is_connected` was set. -/
structure Connecting where
  caller : ConnectPlace
  network : NetworkPlace
  mtx : Option MqttcParty
  isConnected : Bool
  ret : ℤ
  deadline : Option Timespec
  disconnected : Bool
  clock : Timespec
  connectedAt : Option Timespec
  deriving DecidableEq

inductive ConnectAction where
  | connectBind (ret : ℤ)
  | loopStart (ret : ℤ)
  | setDeadline
  | lock
  | enrol
  | refuse
  | timeout
  | spurious
  | relock
  | unlock
  | disconnect
  | setConnected
  | networkLock
  | broadcast
  | networkUnlock
  | tick (later : Timespec)
  deriving DecidableEq

namespace ConnectPlace

/-- The loop of the network thread has not been started. -/
@[simp] def unlooped : ConnectPlace → Bool
  | .called | .bound => true
  | _ => false

/-- The deadline has not been computed. -/
@[simp] def undated : ConnectPlace → Bool
  | .started => true
  | place => place.unlooped

/-- In `em_mqttc_connect`, not yet enrolled on the condition variable. -/
@[simp] def unenrolled : ConnectPlace → Bool
  | .called | .bound | .started | .timed | .locked => true
  | _ => false

/-- Not yet woken: before the wait or in it. -/
@[simp] def unwoken : ConnectPlace → Bool
  | .waiting => true
  | place => place.unenrolled

/-- The wait has ended without a wake-up. -/
@[simp] def gaveUp : ConnectPlace → Bool
  | .woken condRet | .relocked condRet => condRet != 0
  | .failing => true
  | _ => false

/-- `pthread_cond_broadcast` wakes the caller if it is enrolled. -/
@[simp] def broadcast : ConnectPlace → ConnectPlace
  | .waiting => .woken 0
  | place => place

end ConnectPlace

/-- `on_connect_sync` has set `is_connected` and has not yet made its
broadcast. -/
@[simp] def NetworkPlace.announcing : NetworkPlace → Bool
  | .connected | .locked => true
  | _ => false

/-! ## Steps -/

namespace Connecting

/-- The first lines of `em_event_wait`. -/
def setDeadline (state : Connecting) (timeoutMs : ℤ) : Connecting :=
  { state with
    caller := .timed
    deadline :=
      if timeoutMs = emNoTimeout then none
      else some (emGetOffsetTimestamp state.clock timeoutMs) }

def tick (state : Connecting) (later : Timespec) : Connecting :=
  { state with clock := later }

/-- One step of the caller, of the network thread or of the clock.  A deadline
with a malformed `tv_nsec` is refused; a caller that is enrolled times out once
the deadline is there, and may wake up for no reason. -/
inductive Step (timeoutMs : ℤ) :
    Connecting → ConnectAction → Connecting → Prop where
  | connectBind {state : Connecting} (ret : ℤ) :
      state.caller = .called →
      Step timeoutMs state (.connectBind ret)
        { state with caller := if ret = 0 then .bound else .returned (-2) }
  | loopStart {state : Connecting} (ret : ℤ) :
      state.caller = .bound →
      Step timeoutMs state (.loopStart ret)
        { state with
          caller := .started
          ret := ret
          network := if ret = 0 then .running else .stopped }
  | setDeadline {state : Connecting} :
      state.caller = .started →
      Step timeoutMs state .setDeadline (state.setDeadline timeoutMs)
  | lock {state : Connecting} :
      state.caller = .timed → state.mtx = none →
      Step timeoutMs state .lock
        { state with caller := .locked, mtx := some .caller }
  | enrol {state : Connecting} :
      state.caller = .locked →
      (∀ deadline, state.deadline = some deadline → deadline.Normalised) →
      Step timeoutMs state .enrol { state with caller := .waiting, mtx := none }
  | refuse {state : Connecting} {deadline : Timespec} :
      state.caller = .locked → state.deadline = some deadline →
      ¬deadline.Normalised →
      Step timeoutMs state .refuse { state with caller := .relocked einval }
  | timeout {state : Connecting} {deadline : Timespec} :
      state.caller = .waiting → state.deadline = some deadline →
      deadline.nanoseconds ≤ state.clock.nanoseconds →
      Step timeoutMs state .timeout { state with caller := .woken etimedout }
  | spurious {state : Connecting} :
      state.caller = .waiting →
      Step timeoutMs state .spurious { state with caller := .woken 0 }
  | relock {state : Connecting} {condRet : ℤ} :
      state.caller = .woken condRet → state.mtx = none →
      Step timeoutMs state .relock
        { state with caller := .relocked condRet, mtx := some .caller }
  | unlock {state : Connecting} {condRet : ℤ} :
      state.caller = .relocked condRet →
      Step timeoutMs state .unlock
        { state with
          caller :=
            if emEventWaitResult timeoutMs condRet ≠ 0 then .failing
            else .returned state.ret
          mtx := none }
  | disconnect {state : Connecting} :
      state.caller = .failing →
      Step timeoutMs state .disconnect
        { state with caller := .returned (-1), disconnected := true }
  | setConnected {state : Connecting} :
      state.network = .running →
      Step timeoutMs state .setConnected
        { state with
          network := .connected
          isConnected := true
          connectedAt := some state.clock }
  | networkLock {state : Connecting} :
      state.network = .connected → state.mtx = none →
      Step timeoutMs state .networkLock
        { state with network := .locked, mtx := some .network }
  | broadcast {state : Connecting} :
      state.network = .locked →
      Step timeoutMs state .broadcast
        { state with
          network := .announced
          caller := state.caller.broadcast }
  | networkUnlock {state : Connecting} :
      state.network = .announced →
      Step timeoutMs state .networkUnlock
        { state with network := .done, mtx := none }
  | tick {state : Connecting} {later : Timespec} :
      later.Normalised → state.clock.nanoseconds ≤ later.nanoseconds →
      Step timeoutMs state (.tick later) (state.tick later)

/-- `em_mqttc_connect` is called after `em_mqttc_create`. -/
def start (clock : Timespec) : Connecting where
  caller := .called
  network := .stopped
  mtx := none
  isConnected := false
  ret := 0
  deadline := none
  disconnected := false
  clock := clock
  connectedAt := none

/-! ## What is promised -/

/-- `is_connected` has been set, before the deadline if there is one. -/
def InTime (state : Connecting) : Prop :=
  ∃ moment, state.connectedAt = some moment ∧
    ∀ deadline, state.deadline = some deadline →
      moment.nanoseconds < deadline.nanoseconds

/-- The caller disconnects and returns -1 only without a connection in time;
with one in time it returns 0 if it returns, and if it waits the broadcast
is still to come. -/
structure KeepsSuccess (state : Connecting) : Prop where
  failure : state.caller = .failing ∨ state.disconnected = true →
    ¬state.InTime
  success : state.InTime → ∀ ret, state.caller = .returned ret → ret = 0
  notified : state.InTime → state.caller = .waiting →
    state.network.announcing = true

/-- The deadline is there between `is_connected` and the broadcast, and the
caller has not been woken. -/
def Overdue (state : Connecting) : Prop :=
  state.InTime ∧ state.network.announcing = true ∧
    state.caller.unwoken = true ∧
    ∃ deadline, state.deadline = some deadline ∧
      deadline.nanoseconds ≤ state.clock.nanoseconds

/-- The broadcast of a connection in time finds the caller enrolled or out of
its wait, and the deadline does not come between `is_connected` and it. -/
def Punctual (timeoutMs : ℤ) (before : Connecting) : ConnectAction → Prop
  | .broadcast => before.InTime → before.caller.unenrolled = false
  | .setDeadline => ¬(before.setDeadline timeoutMs).Overdue
  | .tick later => ¬(before.tick later).Overdue
  | _ => True

/-! ## The invariant -/

/-- The deadline has come, and `is_connected` was not set before it. -/
def TooLate (state : Connecting) : Prop :=
  ∃ deadline, state.deadline = some deadline ∧
    deadline.nanoseconds ≤ state.clock.nanoseconds ∧
    ∀ moment, state.connectedAt = some moment →
      deadline.nanoseconds ≤ moment.nanoseconds

theorem TooLate.not_inTime {state : Connecting} (tooLate : state.TooLate) :
    ¬state.InTime := by
  obtain ⟨deadline, set, _, none⟩ := tooLate
  rintro ⟨moment, connected, before⟩
  exact absurd (none moment connected) (Int.not_le.mpr (before deadline set))

/-- Until it is woken, the caller of a connection in time has the broadcast
and the deadline still before it; it gives up only when it is too late. -/
structure Sound (state : Connecting) : Prop where
  normalised : state.clock.Normalised
  malformed : ∀ deadline, state.deadline = some deadline →
    ¬deadline.Normalised →
      deadline.nanoseconds ≤ state.clock.nanoseconds
  undated : state.caller.undated = true → state.deadline = none
  stopped : state.caller.unlooped = true → state.network = .stopped
  unset : state.network = .stopped ∨ state.network = .running →
    state.connectedAt = none
  looping : state.network ≠ .stopped → state.ret = 0
  left : state.disconnected = true → ∃ ret, state.caller = .returned ret
  returned : ∀ ret, state.caller = .returned ret →
    state.disconnected = true ∨ ret = state.ret ∨ state.network = .stopped
  announcing : state.caller.unwoken = true → state.InTime →
    state.network.announcing = true
  punctual : ¬state.Overdue
  gaveUp : state.caller.gaveUp = true ∨ state.disconnected = true →
    state.TooLate

namespace Sound

variable {timeoutMs : ℤ} {before after : Connecting} {action : ConnectAction}

theorem start {clock : Timespec} (normalised : clock.Normalised) :
    (Connecting.start clock).Sound := by
  refine ⟨normalised, ?_, ?_, ?_, ?_, ?_, ?_, ?_, ?_, ?_, ?_⟩
  all_goals
    simp [Connecting.start, InTime, Overdue, ConnectPlace.gaveUp]

/-- In a wait not yet ended, a deadline that has come found no connection. -/
theorem tooLate (sound : before.Sound)
    (unwoken : before.caller.unwoken = true) {deadline : Timespec}
    (set : before.deadline = some deadline)
    (passed : deadline.nanoseconds ≤ before.clock.nanoseconds) :
    before.TooLate := by
  refine ⟨deadline, set, passed, ?_⟩
  intro moment connected
  by_contra early
  have inTime : before.InTime := by
    refine ⟨moment, connected, ?_⟩
    intro other same
    obtain rfl := Option.some.inj (set.symm.trans same)
    exact Int.not_le.mp early
  exact sound.punctual
    ⟨inTime, sound.announcing unwoken inTime, unwoken, deadline, set, passed⟩

theorem not_disconnected (sound : before.Sound)
    (inside : ∀ ret, before.caller ≠ .returned ret) :
    before.disconnected = false := by
  cases gone : before.disconnected with
  | false => rfl
  | true =>
      obtain ⟨ret, there⟩ := sound.left gone
      exact absurd there (inside ret)

theorem returned_of_looping (sound : before.Sound)
    (looping : before.network ≠ .stopped) {ret : ℤ}
    (there : before.caller = .returned ret) :
    before.disconnected = true ∨ ret = before.ret := by
  rcases sound.returned ret there with gone | same | stopped
  · exact .inl gone
  · exact .inr same
  · exact absurd stopped looping

/-- A step of the caller that leaves everything but the mutex alone. -/
theorem moveCaller (sound : before.Sound) (next : ConnectPlace)
    (mtx : Option MqttcParty)
    (inside : ∀ ret, before.caller ≠ .returned ret)
    (undated : next.undated = true → before.caller.undated = true)
    (unlooped : next.unlooped = true → before.caller.unlooped = true)
    (returned : ∀ ret, next = .returned ret →
      ret = before.ret ∨ before.network = .stopped)
    (unwoken : next.unwoken = true → before.caller.unwoken = true)
    (gaveUp : next.gaveUp = true → before.TooLate) :
    Sound { before with caller := next, mtx := mtx } := by
  have going := sound.not_disconnected inside
  refine ⟨sound.normalised, sound.malformed, ?_, ?_, sound.unset,
    sound.looping, ?_, ?_, ?_, ?_, ?_⟩
  · intro before
    exact sound.undated (undated before)
  · intro before
    exact sound.stopped (unlooped before)
  · intro gone
    exact absurd gone (by simp [going])
  · intro ret there
    exact .inr (returned ret there)
  · intro still inTime
    exact sound.announcing (unwoken still) inTime
  · rintro ⟨inTime, announcing, still, passed⟩
    exact sound.punctual ⟨inTime, announcing, unwoken still, passed⟩
  · rintro (given | gone)
    · exact gaveUp given
    · exact absurd gone (by simp [going])

theorem setDeadline (sound : before.Sound) (here : before.caller = .started)
    (punctual : Punctual timeoutMs before .setDeadline) :
    (before.setDeadline timeoutMs).Sound := by
  have going : before.disconnected = false :=
    sound.not_disconnected (by simp [here])
  refine ⟨sound.normalised, ?_, ?_, ?_, sound.unset, sound.looping, ?_, ?_,
    ?_, punctual, ?_⟩
  · intro deadline set malformed
    obtain ⟨_, rfl⟩ : timeoutMs ≠ emNoTimeout ∧
        emGetOffsetTimestamp before.clock timeoutMs = deadline := by
      simpa [Connecting.setDeadline] using set
    exact Timespec.malformed_passed sound.normalised malformed
  · intro there
    simp [Connecting.setDeadline] at there
  · intro there
    simp [Connecting.setDeadline] at there
  · intro gone
    exact absurd gone (by simp [Connecting.setDeadline, going])
  · intro ret there
    simp [Connecting.setDeadline] at there
  · intro _ inTime
    obtain ⟨moment, connected, _⟩ := inTime
    refine sound.announcing (by rw [here]; rfl) ⟨moment, connected, ?_⟩
    intro deadline set
    exact absurd set (by simp [sound.undated, here, ConnectPlace.undated])
  · rintro (given | gone)
    · simp [Connecting.setDeadline] at given
    · exact absurd gone (by simp [Connecting.setDeadline, going])

theorem loopStart (sound : before.Sound) (ret : ℤ)
    (here : before.caller = .bound) :
    Sound
      { before with
        caller := .started
        ret := ret
        network := if ret = 0 then .running else .stopped } := by
  have going : before.disconnected = false :=
    sound.not_disconnected (by simp [here])
  have stopped : before.network = .stopped :=
    sound.stopped (by rw [here]; rfl)
  have unset : before.connectedAt = none := sound.unset (.inl stopped)
  have undated : before.deadline = none :=
    sound.undated (by rw [here]; rfl)
  refine ⟨sound.normalised, sound.malformed, fun _ => undated, ?_,
    fun _ => unset, ?_, ?_, ?_, ?_, ?_, ?_⟩
  · intro there
    simp at there
  · intro running
    by_contra failed
    exact running (if_neg failed)
  · intro gone
    exact absurd gone (by simp [going])
  · intro other there
    cases there
  · rintro _ ⟨moment, connected, _⟩
    exact absurd connected (by simp [unset])
  · rintro ⟨⟨moment, connected, _⟩, _⟩
    exact absurd connected (by simp [unset])
  · rintro (given | gone)
    · simp at given
    · exact absurd gone (by simp [going])

theorem disconnect (sound : before.Sound) (here : before.caller = .failing) :
    Sound
      { before with caller := .returned (-1), disconnected := true } := by
  have tooLate : before.TooLate := sound.gaveUp (.inl (by rw [here]; rfl))
  refine ⟨sound.normalised, sound.malformed, ?_, ?_, sound.unset,
    sound.looping, fun _ => ⟨_, rfl⟩, fun _ _ => .inl rfl, ?_, ?_,
    fun _ => tooLate⟩
  · intro there
    simp at there
  · intro there
    simp at there
  · intro there
    simp at there
  · rintro ⟨_, _, there, _⟩
    simp at there

theorem setConnected (sound : before.Sound)
    (here : before.network = .running) :
    Sound
      { before with
        network := .connected
        isConnected := true
        connectedAt := some before.clock } := by
  refine ⟨sound.normalised, sound.malformed, sound.undated, ?_, ?_, ?_,
    sound.left, ?_, fun _ _ => rfl, ?_, ?_⟩
  · intro unlooped
    exact absurd (sound.stopped unlooped) (by simp [here])
  · simp
  · intro _
    exact sound.looping (by simp [here])
  · intro ret there
    exact (sound.returned_of_looping (by simp [here]) there).imp_right .inl
  · rintro ⟨⟨moment, connected, early⟩, _, _, deadline, set, passed⟩
    obtain rfl := Option.some.inj connected
    exact absurd passed (Int.not_le.mpr (early deadline set))
  · intro given
    obtain ⟨deadline, set, passed, _⟩ := sound.gaveUp given
    refine ⟨deadline, set, passed, ?_⟩
    intro moment connected
    obtain rfl := Option.some.inj connected
    exact passed

/-- A step of the network thread behind `is_connected`; when it leaves the
broadcast behind it, no caller in time is left unwoken. -/
theorem moveNetwork (sound : before.Sound) (next : NetworkPlace)
    (mtx : Option MqttcParty)
    (running : before.network ≠ .stopped)
    (behind : next ≠ .stopped ∧ next ≠ .running)
    (announcing : before.caller.unwoken = true → before.InTime →
      next.announcing = true)
    (set : next.announcing = true → before.network.announcing = true) :
    Sound { before with network := next, mtx := mtx } := by
  refine ⟨sound.normalised, sound.malformed, sound.undated, ?_, ?_,
    fun _ => sound.looping running, sound.left, ?_, announcing, ?_,
    sound.gaveUp⟩
  · intro unlooped
    exact absurd (sound.stopped unlooped) running
  · rintro (stopped | notSet)
    · exact absurd stopped behind.1
    · exact absurd notSet behind.2
  · intro ret there
    exact (sound.returned_of_looping running there).imp_right .inl
  · rintro ⟨inTime, still, rest⟩
    exact sound.punctual ⟨inTime, set still, rest⟩

theorem broadcast (sound : before.Sound) (here : before.network = .locked)
    (punctual : Punctual timeoutMs before .broadcast) :
    Sound
      { before with
        network := .announced
        caller := before.caller.broadcast } := by
  have running : before.network ≠ .stopped := by simp [here]
  cases place : before.caller with
  | waiting =>
      have woken : Sound { before with caller := .woken 0 } :=
        sound.moveCaller (.woken 0) before.mtx (by simp [place])
          (by simp) (by simp) (by simp) (by simp) (by simp)
      exact woken.moveNetwork .announced before.mtx running (by simp)
        (by simp) (by simp)
  | _ =>
      have unmoved : before.caller.broadcast = before.caller := by
        rw [place]
        rfl
      rw [← place, unmoved]
      refine sound.moveNetwork .announced before.mtx running (by simp) ?_
        (by simp)
      intro unwoken inTime
      have enrolled := punctual inTime
      rw [place] at unwoken enrolled
      exact absurd (enrolled.symm.trans unwoken) (by simp)

theorem tick (sound : before.Sound) {later : Timespec}
    (normalised : later.Normalised)
    (forward : before.clock.nanoseconds ≤ later.nanoseconds)
    (punctual : Punctual timeoutMs before (.tick later)) :
    (before.tick later).Sound := by
  refine ⟨normalised, ?_, sound.undated, sound.stopped, sound.unset,
    sound.looping, sound.left, sound.returned, sound.announcing, punctual, ?_⟩
  · intro deadline set malformed
    exact Int.le_trans (sound.malformed deadline set malformed) forward
  · intro given
    obtain ⟨deadline, set, passed, none⟩ := sound.gaveUp given
    exact ⟨deadline, set, Int.le_trans passed forward, none⟩

theorem step (sound : before.Sound)
    (taken : Guarded (Punctual timeoutMs) (Step timeoutMs) before action
      after) :
    after.Sound := by
  obtain ⟨punctual, taken⟩ := taken
  cases taken with
  | connectBind ret here =>
      have stopped : before.network = .stopped :=
        sound.stopped (by rw [here]; rfl)
      apply sound.moveCaller _ before.mtx
      · simp [here]
      · simp [here]
      · simp [here]
      · exact fun _ _ => .inr stopped
      · simp [here]
      · split_ifs <;> simp
  | loopStart ret here => exact sound.loopStart ret here
  | setDeadline here => exact sound.setDeadline here punctual
  | lock here free =>
      exact sound.moveCaller .locked (some .caller) (by simp [here])
        (by simp) (by simp) (by simp) (by simp [here]) (by simp)
  | enrol here fine =>
      exact sound.moveCaller .waiting none (by simp [here])
        (by simp) (by simp) (by simp) (by simp [here]) (by simp)
  | refuse here set malformed =>
      have passed := sound.malformed _ set malformed
      have tooLate : before.TooLate :=
        sound.tooLate (by rw [here]; rfl) set passed
      exact sound.moveCaller (.relocked einval) before.mtx (by simp [here])
        (by simp) (by simp) (by simp) (by simp) (fun _ => tooLate)
  | timeout here set passed =>
      have tooLate : before.TooLate :=
        sound.tooLate (by rw [here]; rfl) set passed
      exact sound.moveCaller (.woken etimedout) before.mtx (by simp [here])
        (by simp) (by simp) (by simp) (by simp) (fun _ => tooLate)
  | spurious here =>
      exact sound.moveCaller (.woken 0) before.mtx (by simp [here])
        (by simp) (by simp) (by simp) (by simp) (by simp)
  | relock here free =>
      refine sound.moveCaller _ (some .caller) (by simp [here])
        (by simp) (by simp) (by simp) (by simp) ?_
      intro given
      exact sound.gaveUp (.inl (by rw [here]; exact given))
  | @unlock condRet here =>
      refine sound.moveCaller _ none (by simp [here]) ?_ ?_ ?_ ?_ ?_
      · split_ifs <;> simp
      · split_ifs <;> simp
      · intro ret there
        split_ifs at there
        cases there
        exact .inl rfl
      · split_ifs <;> simp
      · split_ifs with woken
        · intro _
          refine sound.gaveUp (.inl ?_)
          rw [here]
          simpa [emEventWaitResult_ne_zero] using woken
        · simp
  | disconnect here => exact sound.disconnect here
  | setConnected here => exact sound.setConnected here
  | networkLock here free =>
      exact sound.moveNetwork .locked (some .network) (by simp [here])
        (by simp) (fun _ _ => rfl) (fun _ => by rw [here]; rfl)
  | broadcast here => exact sound.broadcast here punctual
  | networkUnlock here =>
      refine sound.moveNetwork .done none (by simp [here]) (by simp) ?_
        (by simp)
      intro unwoken inTime
      have announcing := sound.announcing unwoken inTime
      rw [here] at announcing
      exact announcing
  | tick normalised forward =>
      exact sound.tick normalised forward punctual

theorem keepsSuccess (sound : before.Sound) : before.KeepsSuccess := by
  refine ⟨?_, ?_, ?_⟩
  · rintro (failing | gone)
    · exact (sound.gaveUp (.inl (by rw [failing]; rfl))).not_inTime
    · exact (sound.gaveUp (.inr gone)).not_inTime
  · intro inTime ret there
    have running : before.network ≠ .stopped := by
      intro stopped
      obtain ⟨moment, connected, _⟩ := inTime
      rw [sound.unset (.inl stopped)] at connected
      cases connected
    rcases sound.returned_of_looping running there with gone | same
    · exact absurd inTime (sound.gaveUp (.inr gone)).not_inTime
    · exact same.trans (sound.looping running)
  · intro inTime waiting
    exact sound.announcing (by rw [waiting]; rfl) inTime

end Sound

end Connecting

/-- As long as every broadcast of a connection in time finds the caller
enrolled and the deadline does not come just before it, a connection in time
makes `em_mqttc_connect` succeed. -/
theorem mqttc_connect_keeps_success {timeoutMs : ℤ} {clock : Timespec}
    {labels : List ConnectAction} {state : Connecting}
    (normalised : clock.Normalised)
    (run : Run
      (Guarded (Connecting.Punctual timeoutMs) (Connecting.Step timeoutMs))
      (Connecting.start clock) labels state) :
    state.KeepsSuccess := by
  have sound : state.Sound :=
    run.invariant Connecting.Sound (.start normalised)
      (fun _ _ _ sound taken => sound.step taken)
  exact sound.keepsSuccess

/-- The caller enrols, the callback runs, and the call returns 0. -/
theorem mqttc_connect_succeeds :
    ∃ state : Connecting,
      Run (Guarded (Connecting.Punctual 1000) (Connecting.Step 1000))
        (Connecting.start ⟨0, 0⟩)
        [.connectBind 0, .loopStart 0, .setDeadline, .lock, .enrol,
          .setConnected, .networkLock, .broadcast, .networkUnlock, .relock,
          .unlock] state ∧
      state.caller = .returned 0 ∧ state.InTime ∧ state.KeepsSuccess := by
  have run : Run
      (Guarded (Connecting.Punctual 1000) (Connecting.Step 1000))
      (Connecting.start ⟨0, 0⟩)
      [.connectBind 0, .loopStart 0, .setDeadline, .lock, .enrol,
        .setConnected, .networkLock, .broadcast, .networkUnlock, .relock,
        .unlock] _ :=
    .cons ⟨trivial, .connectBind 0 rfl⟩ <|
    .cons ⟨trivial, .loopStart 0 rfl⟩ <|
    .cons ⟨fun overdue => absurd overdue.2.1 (by decide), .setDeadline rfl⟩ <|
    .cons ⟨trivial, .lock rfl rfl⟩ <|
    .cons ⟨trivial, .enrol rfl (by decide)⟩ <|
    .cons ⟨trivial, .setConnected rfl⟩ <|
    .cons ⟨trivial, .networkLock rfl rfl⟩ <|
    .cons ⟨fun _ => rfl, .broadcast rfl⟩ <|
    .cons ⟨trivial, .networkUnlock rfl⟩ <|
    .cons ⟨trivial, .relock rfl rfl⟩ <|
    .cons ⟨trivial, .unlock rfl⟩ .nil
  refine ⟨_, run, rfl, ⟨⟨0, 0⟩, rfl, ?_⟩,
    mqttc_connect_keeps_success (by decide) run⟩
  intro deadline set
  obtain rfl := Option.some.inj set
  decide

/-- The callback runs before the caller is enrolled: its broadcast is lost,
and the call disconnects the connection that it has. -/
theorem mqttc_connect_misses_success :
    ∃ state : Connecting,
      Run (Connecting.Step 1000) (Connecting.start ⟨0, 0⟩)
        [.connectBind 0, .loopStart 0, .setConnected, .networkLock,
          .broadcast, .networkUnlock, .setDeadline, .lock, .enrol,
          .tick ⟨1, 0⟩, .timeout, .relock, .unlock, .disconnect] state ∧
      state.caller = .returned (-1) ∧ state.disconnected = true ∧
      state.isConnected = true ∧ state.InTime ∧ ¬state.KeepsSuccess := by
  have run : Run (Connecting.Step 1000) (Connecting.start ⟨0, 0⟩)
      [.connectBind 0, .loopStart 0, .setConnected, .networkLock,
        .broadcast, .networkUnlock, .setDeadline, .lock, .enrol,
        .tick ⟨1, 0⟩, .timeout, .relock, .unlock, .disconnect] _ :=
    .cons (.connectBind 0 rfl) <|
    .cons (.loopStart 0 rfl) <|
    .cons (.setConnected rfl) <|
    .cons (.networkLock rfl rfl) <|
    .cons (.broadcast rfl) <|
    .cons (.networkUnlock rfl) <|
    .cons (.setDeadline rfl) <|
    .cons (.lock rfl rfl) <|
    .cons (.enrol rfl (by decide)) <|
    .cons (.tick (by decide) (by decide)) <|
    .cons (.timeout rfl rfl (by decide)) <|
    .cons (.relock rfl rfl) <|
    .cons (.unlock rfl) <|
    .cons (.disconnect rfl) .nil
  have early : ∀ deadline : Timespec, some ⟨1, 0⟩ = some deadline →
      Timespec.nanoseconds ⟨0, 0⟩ < deadline.nanoseconds := by
    intro deadline set
    obtain rfl := Option.some.inj set
    decide
  refine ⟨_, run, rfl, rfl, rfl, ⟨⟨0, 0⟩, rfl, early⟩, ?_⟩
  intro keeps
  exact keeps.failure (.inr rfl) ⟨⟨0, 0⟩, rfl, early⟩

end EmbeddedMiddle
