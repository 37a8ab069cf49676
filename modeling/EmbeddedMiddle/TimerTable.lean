import EmbeddedMiddle.TimerRecords

/-!
# The table of timers

What callers see of `em_timer.c`: under each identifier a function, its
argument and the period in which it is called.  The records, the pool and the
timers of the system are how the table is kept.
-/

namespace EmbeddedMiddle

open Foundation

/-! ## The callback -/

/-- `_em_timer_cbfunc`: the function that is called and its argument. -/
def emTimerCbfunc (tmrmng : EmTimermng) (sivalPtr : ℤ) : ℤ × ℤ :=
  let timersetting := (tmrmng.timerinfo (sivalPtr - offsetofSetting)).setting
  (timersetting.timerFunc, timersetting.arg)

/-! ## The table -/

/-- What is called and when. -/
structure TimerEntry where
  callback : ℤ × ℤ
  period : Itimerspec
  deriving DecidableEq

def periodOf (intervalMs : ℤ) : Itimerspec :=
  ⟨emCalcTimespec intervalMs, emCalcTimespec intervalMs⟩

def EmTimersetting.entry (setting : EmTimersetting) : TimerEntry :=
  ⟨(setting.timerFunc, setting.arg), periodOf setting.intervalMs⟩

/-- The block that an identifier stands for. -/
def timerKey (timerId : ℕ) : ℕ := intToUint32 (timerId - 1)

abbrev TimerTable := ℕ → Option TimerEntry

/-- A call, what it returned and the identifier it stored. -/
abbrev TimerLabel := TimerCall × ℤ × Option ℕ

/-- A timer is refused only by the system or when the table is full. -/
inductive TimerTable.Step (capacity : ℕ) :
    TimerTable → TimerLabel → TimerTable → Prop where
  | create {table : TimerTable} {setting : EmTimersetting}
      {created : Option ℕ} {accepted : Bool} {timerId : ℕ} :
      timerKey timerId < capacity → table (timerKey timerId) = none →
      Step capacity table (.create setting created accepted, 0, some timerId)
        (Function.update table (timerKey timerId) (some setting.entry))
  | createFailed {table : TimerTable} {setting : EmTimersetting}
      {created : Option ℕ} {accepted : Bool} {stored : Option ℕ} :
      created = none ∨ (∀ key < capacity, table key ≠ none) →
      Step capacity table (.create setting created accepted, -1, stored) table
  | delete {table : TimerTable} {timerId : ℕ} :
      table (timerKey timerId) ≠ none →
      Step capacity table (.delete timerId, 0, none)
        (Function.update table (timerKey timerId) none)
  | deleteUnknown {table : TimerTable} {timerId : ℕ} :
      table (timerKey timerId) = none →
      Step capacity table (.delete timerId, -1, none) table
  | setInterval {table : TimerTable} {timerId : ℕ} {intervalMs : ℤ}
      {accepted : Bool} {entry : TimerEntry} :
      table (timerKey timerId) = some entry →
      Step capacity table (.setInterval timerId intervalMs accepted, 0, none)
        (Function.update table (timerKey timerId)
          (some { entry with period := periodOf intervalMs }))
  | setIntervalUnknown {table : TimerTable} {timerId : ℕ} {intervalMs : ℤ}
      {accepted : Bool} :
      table (timerKey timerId) = none →
      Step capacity table (.setInterval timerId intervalMs accepted, -1, none)
        table

namespace EmTimers

/-- What happens when a timer of the system expires, and when it does. -/
def expiry (state : EmTimers) (timer : LinuxTimer) : TimerEntry :=
  ⟨emTimerCbfunc state.tmrmng timer.sivalPtr, timer.setting⟩

/-- The timer whose record is at an address. -/
def recordEntry (state : EmTimers) (address : ℤ) : Option TimerEntry :=
  (state.timers (state.tmrmng.timerinfo address).linuxTimerId).map
    state.expiry

def table (state : EmTimers) : TimerTable := fun key =>
  (emMpoolGetDataptr state.tmrmng.mpTimerinfo key).bind state.recordEntry

/-- The identifier that a call stores. -/
def storedId (state : EmTimers) : TimerCall → Option ℕ
  | .create setting created accepted =>
      (emTimerCreate state setting created accepted).2.1
  | _ => none

def SeenStep (before : EmTimers) (label : TimerLabel) (after : EmTimers) :
    Prop :=
  Step before (label.1, label.2.1) after ∧
    label.2.2 = before.storedId label.1

/-! ## What the records show -/

variable {params : PoolParams} {state before after : EmTimers}
  {addresses kept : Finset ℤ} {address : ℤ} {key : ℕ}

theorem address_mem_of_full
    (holds : state.tmrmng.mpTimerinfo.Holds params addresses)
    (full : addresses.card = params.capacity) (bound : key < params.capacity) :
    params.address key ∈ addresses := by
  have inside : addresses ⊆
      (Finset.range params.capacity).image params.address := by
    intro address member
    obtain ⟨k, below, _, _, isAddress⟩ := holds.getDataidx member
    exact Finset.mem_image.mpr ⟨k, Finset.mem_range.mpr below, isAddress⟩
  have all : addresses =
      (Finset.range params.capacity).image params.address := by
    apply Finset.eq_of_subset_of_card_le inside
    rw [full]
    exact Finset.card_image_le.trans_eq (Finset.card_range _)
  rw [all]
  exact Finset.mem_image_of_mem _ (Finset.mem_range.mpr bound)

/-- A live block is found under its index only. -/
theorem table_eq (holds : state.tmrmng.mpTimerinfo.Holds params addresses)
    (key : ℕ) :
    state.table key =
      if key < params.capacity ∧ params.address key ∈ addresses
      then state.recordEntry (params.address key) else none := by
  rw [table, holds.getDataptr]
  split_ifs <;> rfl

theorem key_of_getDataptr
    (holds : state.tmrmng.mpTimerinfo.Holds params addresses)
    (found : emMpoolGetDataptr state.tmrmng.mpTimerinfo key = some address) :
    key < params.capacity ∧ params.address key = address := by
  rw [holds.getDataptr] at found
  split_ifs at found with live
  exact ⟨live.1, Option.some.inj found⟩

namespace Matched

variable {timerinfo : ℤ → EmTimerinfo} {timers : LinuxTimers}
  {timer : LinuxTimer}

/-- The callback of a timer reads the record that the timer belongs to. -/
theorem expiry_eq
    (matched : Matched addresses state.tmrmng.timerinfo state.timers)
    (member : address ∈ addresses)
    (present : state.timers
      (state.tmrmng.timerinfo address).linuxTimerId = some timer) :
    state.recordEntry address = some
      ⟨((state.tmrmng.timerinfo address).setting.timerFunc,
        (state.tmrmng.timerinfo address).setting.arg), timer.setting⟩ := by
  have back := matched.calledBack address member timer present
  rw [recordEntry, present, Option.map_some, expiry, emTimerCbfunc, back,
    Int.add_sub_cancel]

theorem recordEntry_ne_none
    (matched : Matched addresses state.tmrmng.timerinfo state.timers)
    (member : address ∈ addresses) : state.recordEntry address ≠ none := by
  obtain ⟨timer, present⟩ := matched.exists_timer member
  rw [matched.expiry_eq member present]
  exact Option.some_ne_none _

theorem table_full
    (matched : Matched addresses state.tmrmng.timerinfo state.timers)
    (holds : state.tmrmng.mpTimerinfo.Holds params addresses)
    (full : addresses.card = params.capacity) (bound : key < params.capacity) :
    state.table key ≠ none := by
  have member : params.address key ∈ addresses :=
    address_mem_of_full holds full bound
  rw [table_eq holds, if_pos ⟨bound, member⟩]
  exact matched.recordEntry_ne_none member

/-- A record and its timer that are as before show the same. -/
theorem recordEntry_congr
    (matched : Matched addresses before.tmrmng.timerinfo before.timers)
    (later : Matched kept after.tmrmng.timerinfo after.timers)
    (member : address ∈ addresses) (stays : address ∈ kept)
    (info : after.tmrmng.timerinfo address = before.tmrmng.timerinfo address)
    (same : after.timers (before.tmrmng.timerinfo address).linuxTimerId =
      before.timers (before.tmrmng.timerinfo address).linuxTimerId) :
    after.recordEntry address = before.recordEntry address := by
  obtain ⟨timer, present⟩ := matched.exists_timer member
  rw [matched.expiry_eq member present,
    later.expiry_eq stays (by rw [info, same, present]), info]

end Matched

/-- Two states whose live records show the same have the same table. -/
theorem table_congr
    (holds : before.tmrmng.mpTimerinfo.Holds params addresses)
    (still : after.tmrmng.mpTimerinfo.Holds params addresses)
    (same : ∀ address ∈ addresses,
      after.recordEntry address = before.recordEntry address) :
    after.table = before.table := by
  funext key
  rw [table_eq holds, table_eq still]
  split_ifs with live
  · exact same _ live.2
  · rfl

/-- All entries but that of one block stay. -/
theorem table_update
    (holds : before.tmrmng.mpTimerinfo.Holds params addresses)
    (still : after.tmrmng.mpTimerinfo.Holds params kept)
    (bound : key < params.capacity)
    (others : ∀ other, other ≠ params.address key →
      (other ∈ kept ↔ other ∈ addresses) ∧
        (other ∈ addresses →
          after.recordEntry other = before.recordEntry other)) :
    after.table = Function.update before.table key (after.table key) := by
  funext other
  by_cases isKey : other = key
  · rw [isKey, Function.update_self]
  · rw [Function.update_of_ne isKey, table_eq holds, table_eq still]
    by_cases inside : other < params.capacity
    · have different : params.address other ≠ params.address key := by
        intro same
        exact isKey (holds.distinct.address_injective inside bound same)
      obtain ⟨lives, shows⟩ := others _ different
      simp only [inside, lives, true_and]
      split_ifs with live
      · exact shows live
      · rfl
    · simp only [inside, false_and, if_false]

/-! ## The calls -/

/-- The block of the identifier that `em_timer_create` stores. -/
theorem storedId_key
    (holds : state.tmrmng.mpTimerinfo.Holds params addresses)
    (member : address ∈ addresses) :
    let key := timerKey (intToUint32
      (1 + emMpoolGetDataidx state.tmrmng.mpTimerinfo address))
    key < params.capacity ∧ params.address key = address :=
  key_of_getDataptr holds (timerId_found holds member)

theorem table_mem
    (holds : state.tmrmng.mpTimerinfo.Holds params addresses)
    (bound : key < params.capacity)
    (member : params.address key ∈ addresses) :
    state.table key = state.recordEntry (params.address key) := by
  rw [table_eq holds, if_pos ⟨bound, member⟩]

theorem table_eq_none
    (holds : state.tmrmng.mpTimerinfo.Holds params addresses)
    (absent : params.address key ∉ addresses) : state.table key = none := by
  rw [table_eq holds, if_neg (fun live => absent live.2)]

namespace Matched

variable {mp : EmMpool} {timer : LinuxTimer}

/-- A block that is not in use gets a record and a timer. -/
theorem create_table {setting : EmTimersetting} {id : ℕ}
    (matched : Matched addresses before.tmrmng.timerinfo before.timers)
    (holds : before.tmrmng.mpTimerinfo.Holds params addresses)
    (more : mp.Holds params (insert address addresses))
    (isNew : address ∉ addresses) (free : before.timers id = none)
    (made : after =
      ⟨⟨mp, Function.update before.tmrmng.timerinfo address ⟨id, setting⟩⟩,
        Function.update before.timers id
          (some ⟨address + offsetofSetting, periodOf setting.intervalMs⟩)⟩) :
    let key := timerKey (intToUint32 (1 + emMpoolGetDataidx mp address))
    key < params.capacity ∧ before.table key = none ∧
      after.table =
        Function.update before.table key (some setting.entry) := by
  intro key
  have member := Finset.mem_insert_self address addresses
  have holdsAfter :
      after.tmrmng.mpTimerinfo.Holds params (insert address addresses) := by
    rw [made]
    exact more
  have same : ∀ other ∈ addresses,
      after.tmrmng.timerinfo other = before.tmrmng.timerinfo other := by
    intro other old
    have different : other ≠ address := fun isAddress =>
      isNew (isAddress ▸ old)
    rw [made]
    exact Function.update_of_ne different _ _
  have stored : after.tmrmng.timerinfo address = ⟨id, setting⟩ := by
    rw [made]
    exact Function.update_self ..
  have later : Matched (insert address addresses) after.tmrmng.timerinfo
      after.timers := by
    have created := @Matched.create _ _ _ _ _ id
      ⟨address + offsetofSetting, periodOf setting.intervalMs⟩ matched free
        same (by rw [stored]) rfl
    rw [made] at created ⊢
    exact created
  obtain ⟨bound, isAddress⟩ :
      key < params.capacity ∧ params.address key = address := by
    have found := storedId_key holdsAfter member
    rw [made] at found
    exact found
  have shown : after.table key = some setting.entry := by
    have present : after.timers
        (after.tmrmng.timerinfo address).linuxTimerId =
          some ⟨address + offsetofSetting, periodOf setting.intervalMs⟩ := by
      rw [stored, made]
      exact Function.update_self ..
    rw [table_mem holdsAfter bound (isAddress ▸ member), isAddress,
      later.expiry_eq member present, stored]
    rfl
  refine ⟨bound, table_eq_none holds (isAddress ▸ isNew), ?_⟩
  rw [← shown]
  apply table_update holds holdsAfter bound
  intro other different
  rw [isAddress] at different
  refine ⟨Finset.mem_insert.trans (or_iff_right different), ?_⟩
  intro old
  apply matched.recordEntry_congr later old (Finset.mem_insert_of_mem old)
    (same other old)
  have otherTimer : (before.tmrmng.timerinfo other).linuxTimerId ≠ id := by
    intro isId
    exact matched.paired.mapsTo old (isId ▸ free)
  rw [made]
  exact Function.update_of_ne otherTimer _ _

theorem delete_table
    (matched : Matched addresses before.tmrmng.timerinfo before.timers)
    (holds : before.tmrmng.mpTimerinfo.Holds params addresses)
    (member : address ∈ addresses)
    (fewer : mp.Holds params (addresses.erase address))
    (found : emMpoolGetDataptr before.tmrmng.mpTimerinfo key =
      some address)
    (made : after =
      ⟨⟨mp, before.tmrmng.timerinfo⟩, Function.update before.timers
        (before.tmrmng.timerinfo address).linuxTimerId none⟩) :
    before.table key ≠ none ∧
      after.table = Function.update before.table key none := by
  obtain ⟨bound, rfl⟩ := key_of_getDataptr holds found
  have holdsAfter : after.tmrmng.mpTimerinfo.Holds params
      (addresses.erase (params.address key)) := by
    rw [made]
    exact fewer
  have later : Matched (addresses.erase (params.address key))
      after.tmrmng.timerinfo after.timers := by
    rw [made]
    exact matched.delete member
  constructor
  · rw [table_mem holds bound member]
    exact matched.recordEntry_ne_none member
  · rw [← table_eq_none holdsAfter (Finset.notMem_erase _ _)]
    apply table_update holds holdsAfter bound
    intro other different
    refine ⟨Finset.mem_erase.trans (and_iff_right different), ?_⟩
    intro old
    apply matched.recordEntry_congr later old
      (Finset.mem_erase_of_ne_of_mem different old) (by rw [made])
    have otherTimer : (before.tmrmng.timerinfo other).linuxTimerId ≠
        (before.tmrmng.timerinfo (params.address key)).linuxTimerId :=
      fun same => different (matched.paired.injOn old member same)
    rw [made]
    exact Function.update_of_ne otherTimer _ _

theorem settime_table {intervalMs : ℤ}
    (matched : Matched addresses before.tmrmng.timerinfo before.timers)
    (holds : before.tmrmng.mpTimerinfo.Holds params addresses)
    (member : address ∈ addresses)
    (found : emMpoolGetDataptr before.tmrmng.mpTimerinfo key =
      some address)
    (present : before.timers
      (before.tmrmng.timerinfo address).linuxTimerId = some timer)
    (made : after = ⟨before.tmrmng, Function.update before.timers
      (before.tmrmng.timerinfo address).linuxTimerId
        (some { timer with setting := periodOf intervalMs })⟩) :
    ∃ entry, before.table key = some entry ∧
      after.table = Function.update before.table key
        (some { entry with period := periodOf intervalMs }) := by
  obtain ⟨bound, rfl⟩ := key_of_getDataptr holds found
  have holdsAfter : after.tmrmng.mpTimerinfo.Holds params addresses := by
    rw [made]
    exact holds
  have later : Matched addresses after.tmrmng.timerinfo after.timers := by
    rw [made]
    exact matched.settime present _
  have set : after.timers (after.tmrmng.timerinfo
      (params.address key)).linuxTimerId =
        some { timer with setting := periodOf intervalMs } := by
    rw [made]
    exact Function.update_self ..
  have info : after.tmrmng.timerinfo = before.tmrmng.timerinfo := by
    rw [made]
  have shown : after.table key = _ :=
    (table_mem holdsAfter bound member).trans (later.expiry_eq member set)
  rw [info] at shown
  refine ⟨_, (table_mem holds bound member).trans
    (matched.expiry_eq member present), ?_⟩
  rw [← shown]
  apply table_update holds holdsAfter bound
  intro other different
  refine ⟨Iff.rfl, ?_⟩
  intro old
  apply matched.recordEntry_congr later old old (by rw [made])
  have otherTimer : (before.tmrmng.timerinfo other).linuxTimerId ≠
      (before.tmrmng.timerinfo (params.address key)).linuxTimerId :=
    fun same => different (matched.paired.injOn old member same)
  rw [made]
  exact Function.update_of_ne otherTimer _ _

end Matched

namespace Consistent

variable {ret : ℤ}

theorem create_step (consistent : before.Consistent params)
    {setting : EmTimersetting} {created : Option ℕ} {accepted : Bool}
    (fresh : ∀ id, created = some id → before.timers id = none)
    (allowed : before.SettimeAccepted (.create setting created accepted, ret))
    (called : before.call (.create setting created accepted) =
      (ret, after)) :
    TimerTable.Step params.capacity before.table
      (.create setting created accepted, ret,
        before.storedId (.create setting created accepted))
      after.table := by
  obtain ⟨⟨addresses, holds⟩, inStep⟩ := consistent
  have matched := inStep.matched holds
  have numUsed := holds.numUsed_eq
  have numMax := holds.numMax_eq
  rcases Nat.lt_or_ge addresses.card params.capacity with room | full
  · obtain ⟨address, mp, allocated, isNew, more⟩ := holds.alloc_room room
    obtain ⟨freed, freeCalled, back⟩ :=
      more.free (Finset.mem_insert_self address addresses)
    rw [Finset.erase_insert isNew] at back
    simp only [call, emTimerCreate, allocated] at called
    simp only [storedId, emTimerCreate, allocated]
    cases created with
    | none =>
        simp only [timerCreate, freeBlock, assign, freeCalled] at called ⊢
        obtain ⟨rfl, made⟩ := Prod.mk.inj called
        have same : ∀ other ∈ addresses,
            after.tmrmng.timerinfo other = before.tmrmng.timerinfo other := by
          intro other old
          have different : other ≠ address := fun isAddress =>
            isNew (isAddress ▸ old)
          rw [← made]
          exact Function.update_of_ne different _ _
        have unchanged : after.table = before.table := by
          apply table_congr holds (by rw [← made]; exact back)
          intro other old
          have later : Matched addresses after.tmrmng.timerinfo
              after.timers := by
            have kept := matched.congr same
            rw [← made] at kept ⊢
            exact kept
          exact matched.recordEntry_congr later old old (same other old)
            (by rw [← made])
        rw [unchanged]
        exact .createFailed (.inl rfl)
    | some id =>
        have isAccepted : accepted = true := allowed (by omega) (by simp)
        simp only [isAccepted, timerCreate, assign, Function.update_self,
          Function.update_idem,
          timerSettime_accepted (Function.update_self ..), Int.reduceEq,
          Int.reduceNeg, ↓reduceIte] at called ⊢
        obtain ⟨rfl, made⟩ := Prod.mk.inj called
        obtain ⟨bound, absent, shown⟩ := matched.create_table holds more
          isNew (fresh id rfl) made.symm
        rw [shown]
        exact .create bound absent
  · have isFull : addresses.card = params.capacity :=
      Nat.le_antisymm holds.card_le full
    simp only [call, emTimerCreate, holds.alloc_full isFull] at called
    obtain ⟨rfl, rfl⟩ := Prod.mk.inj called
    exact .createFailed (.inr fun _ bound => matched.table_full holds isFull
      bound)

theorem table_eq_none_of_rejected {timerId : ℕ}
    (rejected : emMpoolGetDataptr before.tmrmng.mpTimerinfo
      (timerKey timerId) = none) :
    before.table (timerKey timerId) = none := by
  rw [table, rejected, Option.bind_none]

theorem delete_step (consistent : before.Consistent params) {timerId : ℕ}
    (called : before.call (.delete timerId) = (ret, after)) :
    TimerTable.Step params.capacity before.table (.delete timerId, ret, none)
      after.table := by
  obtain ⟨⟨addresses, holds⟩, inStep⟩ := consistent
  have matched := inStep.matched holds
  rcases getDataptr_cases holds (timerKey timerId) with
    rejected | ⟨address, member, found⟩
  · have absent := table_eq_none_of_rejected rejected
    rw [timerKey] at rejected
    simp only [call, emTimerDelete, rejected] at called
    obtain ⟨rfl, rfl⟩ := Prod.mk.inj called
    exact .deleteUnknown absent
  · obtain ⟨timer, present⟩ := matched.exists_timer member
    obtain ⟨freed, freeCalled, fewer⟩ := holds.free member
    have pointer := found
    rw [timerKey] at pointer
    simp only [call, emTimerDelete, pointer, timerDelete, present, freeBlock,
      freeCalled] at called
    obtain ⟨rfl, made⟩ := Prod.mk.inj called
    obtain ⟨live, shown⟩ := matched.delete_table holds member fewer found
      made.symm
    rw [shown]
    exact .delete live

theorem setInterval_step (consistent : before.Consistent params)
    {timerId : ℕ} {intervalMs : ℤ} {accepted : Bool}
    (allowed : before.SettimeAccepted
      (.setInterval timerId intervalMs accepted, ret))
    (called : before.call (.setInterval timerId intervalMs accepted) =
      (ret, after)) :
    TimerTable.Step params.capacity before.table
      (.setInterval timerId intervalMs accepted, ret, none) after.table := by
  obtain ⟨⟨addresses, holds⟩, inStep⟩ := consistent
  have matched := inStep.matched holds
  rcases getDataptr_cases holds (timerKey timerId) with
    rejected | ⟨address, member, found⟩
  · have absent := table_eq_none_of_rejected rejected
    rw [timerKey] at rejected
    simp only [call, emTimerSetInterval, rejected] at called
    obtain ⟨rfl, rfl⟩ := Prod.mk.inj called
    exact .setIntervalUnknown absent
  · obtain ⟨timer, present⟩ := matched.exists_timer member
    have pointer := found
    rw [timerKey] at pointer
    have isAccepted : accepted = true :=
      allowed (by rw [pointer]; exact Option.some_ne_none _)
    simp only [isAccepted, call, emTimerSetInterval, pointer,
      timerSettime_accepted present, Int.reduceEq, Int.reduceNeg,
      ↓reduceIte] at called
    obtain ⟨rfl, made⟩ := Prod.mk.inj called
    obtain ⟨entry, live, shown⟩ := matched.settime_table holds member found
      present made.symm
    rw [shown]
    exact .setInterval live

theorem table_step (consistent : before.Consistent params)
    {label : TimerLabel} (seen : before.SeenStep label after)
    (allowed : before.SettimeAccepted (label.1, label.2.1)) :
    TimerTable.Step params.capacity before.table label after.table := by
  obtain ⟨call, ret, stored⟩ := label
  obtain ⟨⟨fresh, called⟩, isStored⟩ := seen
  dsimp only at fresh called isStored
  rw [isStored]
  cases call with
  | create setting created accepted =>
      refine consistent.create_step ?_ allowed called
      intro id isId
      exact fresh setting id accepted (by rw [isId])
  | delete timerId => exact consistent.delete_step called
  | setInterval timerId intervalMs accepted =>
      exact consistent.setInterval_step allowed called

/-- The timers of the system are those of the entries, and each does what its
entry says. -/
theorem timers_shown (consistent : state.Consistent params) :
    ∃ timerOf : ℕ → ℕ,
      Set.BijOn timerOf {key | state.table key ≠ none} state.timerIds ∧
      ∀ key timer, state.table key ≠ none →
        state.timers (timerOf key) = some timer →
          state.table key = some (state.expiry timer) := by
  obtain ⟨⟨addresses, holds⟩, inStep⟩ := consistent
  have matched := inStep.matched holds
  have live : ∀ key, state.table key ≠ none ↔
      key < params.capacity ∧ params.address key ∈ addresses := by
    intro key
    rw [table_eq holds]
    split_ifs with here
    · exact iff_of_true (matched.recordEntry_ne_none here.2) here
    · exact iff_of_false (not_not_intro rfl) here
  have blocks : Set.BijOn params.address {key | state.table key ≠ none}
      addresses := by
    refine ⟨?_, ?_, ?_⟩
    · intro key shown
      exact ((live key).mp shown).2
    · intro key shown other otherShown same
      exact holds.distinct.address_injective ((live key).mp shown).1
        ((live other).mp otherShown).1 same
    · intro address member
      obtain ⟨bound, isAddress⟩ := storedId_key holds member
      have found := isAddress.symm ▸ member
      exact ⟨_, (live _).mpr ⟨bound, found⟩, isAddress⟩
  refine ⟨_, matched.paired.comp blocks, ?_⟩
  intro key timer shown present
  obtain ⟨bound, member⟩ := (live key).mp shown
  rw [table_mem holds bound member]
  exact congrArg (Option.map state.expiry) present

end Consistent

/-- While the system accepts every interval, what the calls return and the
identifiers they store are those of a table of timers, and the timers of the
system do what the table says. -/
theorem timers_refine_table (memory : EmTimermng) {numTimer rawdata : ℤ}
    (positive : 0 < numTimer)
    (fits : sizeofTimerinfo * numTimer < 4294967296)
    {labels : List TimerLabel} {state : EmTimers}
    (run : Run (Guarded (fun before (label : TimerLabel) =>
        before.SettimeAccepted (label.1, label.2.1)) SeenStep)
      (start memory numTimer rawdata) labels state) :
    Run (TimerTable.Step (intToUint32 numTimer)) (fun _ => none) labels
        state.table ∧
      ∃ timerOf : ℕ → ℕ,
        Set.BijOn timerOf {key | state.table key ≠ none} state.timerIds ∧
        ∀ key timer, state.table key ≠ none →
          state.timers (timerOf key) = some timer →
            state.table key = some (state.expiry timer) := by
  have consistent : (start memory numTimer rawdata).Consistent _ :=
    .start memory positive fits
  have empty : (start memory numTimer rawdata).table = fun _ => none := by
    funext key
    cases pointer : emMpoolGetDataptr
        (start memory numTimer rawdata).tmrmng.mpTimerinfo key with
    | none => rw [table, pointer, Option.bind_none]
    | some address => rw [table, pointer]; rfl
  obtain ⟨shown, tableRun, isShown, later⟩ := run.simulate
    (fun state shown => shown = state.table ∧ state.Consistent _)
    ⟨empty.symm, consistent⟩ <| by
      rintro before _ label after ⟨rfl, holds⟩ ⟨allowed, seen⟩
      have outcome := holds.step seen.1
      exact ⟨after.table, holds.table_step seen allowed, rfl, outcome.shown,
        (outcome.kept allowed).1⟩
  rw [isShown] at tableRun
  exact ⟨tableRun, later.timers_shown⟩

/-- A timer is created, its period changed and another one refused. -/
theorem timers_refine_table_three :
    ∃ state, Run (TimerTable.Step 1) (fun _ => none)
      [(.create ⟨100, 5, 6⟩ (some 7) true, 0, some 1),
        (.setInterval 1 50 true, 0, none),
        (.create ⟨100, 8, 9⟩ (some 3) true, -1, none)] (table state) := by
  have run : ∃ state, Run (Guarded (fun before (label : TimerLabel) =>
        before.SettimeAccepted (label.1, label.2.1)) SeenStep)
      (start default 1 0)
      [(.create ⟨100, 5, 6⟩ (some 7) true, 0, some 1),
        (.setInterval 1 50 true, 0, none),
        (.create ⟨100, 8, 9⟩ (some 3) true, -1, none)] state :=
    ⟨_, .cons ⟨fun _ _ => rfl, ⟨fun _ _ _ _ => rfl, rfl⟩, rfl⟩ <|
      .cons ⟨fun _ => rfl, ⟨nofun, rfl⟩, rfl⟩ <|
      .cons ⟨fun _ _ => rfl, ⟨fun _ _ _ same => by cases same; rfl, rfl⟩,
        rfl⟩ .nil⟩
  obtain ⟨state, run⟩ := run
  exact ⟨state, (@timers_refine_table default 1 0 (by decide) (by decide)
    _ state run).1⟩

end EmTimers

end EmbeddedMiddle
