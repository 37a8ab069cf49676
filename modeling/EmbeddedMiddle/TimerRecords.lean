import EmbeddedMiddle.MempoolAddresses
import EmbeddedMiddle.Timer
import EmbeddedMiddle.Foundation.Transition
import Mathlib.Data.Set.Function

/-!
# Timers and their records

As long as the system accepts every interval, the timers that exist are those
of the live records.  A refused interval gives the record back while its timer
stays.
-/

namespace EmbeddedMiddle

open Foundation

namespace EmTimers

/-! ## Records and timers -/

/-- `InStep` where the blocks in use are given by their addresses. -/
structure Matched (addresses : Finset ℤ) (timerinfo : ℤ → EmTimerinfo)
    (timers : LinuxTimers) : Prop where
  paired : Set.BijOn (fun address => (timerinfo address).linuxTimerId)
    addresses {id | timers id ≠ none}
  calledBack : ∀ address ∈ addresses, ∀ timer,
    timers (timerinfo address).linuxTimerId = some timer →
      timer.sivalPtr = address + offsetofSetting

namespace Matched

variable {addresses : Finset ℤ} {timerinfo after : ℤ → EmTimerinfo}
  {timers : LinuxTimers} {address : ℤ} {id : ℕ} {timer : LinuxTimer}

theorem empty : Matched ∅ timerinfo (fun _ => none) := by
  refine ⟨?_, ?_⟩
  · simp
  · intro address member
    cases member

theorem exists_timer (matched : Matched addresses timerinfo timers)
    (member : address ∈ addresses) :
    ∃ timer, timers (timerinfo address).linuxTimerId = some timer :=
  Option.ne_none_iff_exists'.mp (matched.paired.mapsTo member)

/-- Only the live records matter. -/
theorem congr (matched : Matched addresses timerinfo timers)
    (same : ∀ address ∈ addresses, after address = timerinfo address) :
    Matched addresses after timers := by
  constructor
  · apply matched.paired.congr
    intro address member
    exact congrArg EmTimerinfo.linuxTimerId (same address member).symm
  · intro address member
    rw [same address member]
    exact matched.calledBack address member

theorem create (matched : Matched addresses timerinfo timers)
    (free : timers id = none)
    (same : ∀ other ∈ addresses, after other = timerinfo other)
    (stored : (after address).linuxTimerId = id)
    (back : timer.sivalPtr = address + offsetofSetting) :
    Matched (insert address addresses) after
      (Function.update timers id (some timer)) := by
  have kept := matched.congr same
  have absent : (after address).linuxTimerId ∉ {id | timers id ≠ none} := by
    rw [stored]
    exact not_not_intro free
  constructor
  · have larger := kept.paired.insert absent
    rw [Finset.coe_insert]
    convert larger using 1
    ext other
    by_cases isNew : other = id
    · simp [isNew, stored]
    · simp [stored, isNew]
  · intro other member found present
    rcases Finset.mem_insert.mp member with isAddress | old
    · rw [isAddress, stored, Function.update_self] at present
      rw [← Option.some.inj present, isAddress]
      exact back
    · have different : (after other).linuxTimerId ≠ id := by
        intro isId
        exact kept.paired.mapsTo old (isId ▸ free)
      rw [Function.update_of_ne different] at present
      exact kept.calledBack other old found present

theorem delete (matched : Matched addresses timerinfo timers)
    (member : address ∈ addresses) :
    Matched (addresses.erase address) timerinfo
      (Function.update timers (timerinfo address).linuxTimerId none) := by
  constructor
  · have smaller := matched.paired.sdiff_singleton member
    rw [Finset.coe_erase]
    convert smaller using 1
    ext other
    by_cases isDeleted : other = (timerinfo address).linuxTimerId
    · simp [isDeleted]
    · simp [isDeleted]
  · intro other stays found present
    have old := Finset.mem_of_mem_erase stays
    have different : (timerinfo other).linuxTimerId ≠
        (timerinfo address).linuxTimerId := by
      intro same
      exact Finset.ne_of_mem_erase stays
        (matched.paired.injOn old member same)
    rw [Function.update_of_ne different] at present
    exact matched.calledBack other old found present

theorem settime (matched : Matched addresses timerinfo timers)
    (found : timers id = some timer) (setting : Itimerspec) :
    Matched addresses timerinfo
      (Function.update timers id (some { timer with setting })) := by
  constructor
  · convert matched.paired using 1
    ext other
    by_cases isId : other = id
    · simp [isId, found]
    · simp [Function.update_of_ne isId]
  · intro address member other present
    by_cases isId : (timerinfo address).linuxTimerId = id
    · rw [isId, Function.update_self] at present
      rw [← Option.some.inj present]
      exact matched.calledBack address member timer (isId ▸ found)
    · rw [Function.update_of_ne isId] at present
      exact matched.calledBack address member other present

/-- A timer without a record. -/
theorem not_leaked (matched : Matched addresses timerinfo timers)
    (free : timers id = none)
    (same : ∀ other ∈ addresses, after other = timerinfo other) :
    ¬ Matched addresses after
      (Function.update timers id (some timer)) := by
  intro leaked
  have present : id ∈
      {other | Function.update timers id (some timer) other ≠ none} := by
    simp
  obtain ⟨address, member, isId⟩ := leaked.paired.surjOn present
  apply matched.paired.mapsTo member
  change (after address).linuxTimerId = id at isId
  change timers (timerinfo address).linuxTimerId = none
  rw [← same address member, isId]
  exact free

end Matched

/-! ## The calls -/

variable {params : PoolParams} {state before after : EmTimers}
  {addresses : Finset ℤ}

theorem liveBlocks_eq
    (holds : state.tmrmng.mpTimerinfo.Holds params addresses) :
    state.liveBlocks = addresses := by
  ext address
  constructor
  · rintro ⟨slot, live, rfl⟩
    exact holds.slot_mem live
  · intro member
    exact holds.exists_slot member

theorem InStep.matched (inStep : state.InStep)
    (holds : state.tmrmng.mpTimerinfo.Holds params addresses) :
    Matched addresses state.tmrmng.timerinfo state.timers := by
  obtain ⟨paired, calledBack⟩ := inStep
  rw [liveBlocks_eq holds] at paired calledBack
  exact ⟨paired, calledBack⟩

theorem Matched.inStep {mp : EmMpool} {timerinfo : ℤ → EmTimerinfo}
    {timers : LinuxTimers} (matched : Matched addresses timerinfo timers)
    (holds : mp.Holds params addresses) :
    InStep ⟨⟨mp, timerinfo⟩, timers⟩ := by
  have live : liveBlocks ⟨⟨mp, timerinfo⟩, timers⟩ = addresses :=
    liveBlocks_eq holds
  constructor
  · rw [live]
    exact matched.paired
  · rw [live]
    exact matched.calledBack

/-- Both pools have the same blocks in use. -/
theorem Unchanged.of_holds
    (holds : before.tmrmng.mpTimerinfo.Holds params addresses)
    (kept : after.tmrmng.mpTimerinfo.Holds params addresses)
    (timers : after.timers = before.timers)
    (timerinfo : ∀ address ∈ addresses,
      after.tmrmng.timerinfo address = before.tmrmng.timerinfo address) :
    before.Unchanged after := by
  constructor
  · exact timers
  · rw [liveBlocks_eq holds, liveBlocks_eq kept]
  · intro address member
    rw [liveBlocks_eq holds] at member
    exact timerinfo address member
  · funext dataIdx
    rw [holds.getDataptr, kept.getDataptr]

theorem keepsTimers_of_success {call : TimerCall}
    (inStep : after.InStep) : before.KeepsTimers (call, 0) after :=
  ⟨inStep, fun failed => absurd rfl failed⟩

theorem keepsTimers_of_unchanged {label : TimerCall × ℤ}
    (holds : before.tmrmng.mpTimerinfo.Holds params addresses)
    (inStep : before.InStep)
    (kept : after.tmrmng.mpTimerinfo.Holds params addresses)
    (timers : after.timers = before.timers)
    (timerinfo : ∀ address ∈ addresses,
      after.tmrmng.timerinfo address = before.tmrmng.timerinfo address) :
    before.KeepsTimers label after := by
  have matched := inStep.matched holds
  refine ⟨Matched.inStep ?_ kept, ?_⟩
  · rw [timers]
    exact matched.congr timerinfo
  · intro _
    exact .of_holds holds kept timers timerinfo

/-- The identifier that `em_timer_create` stores is the one by which the other
calls find the block. -/
theorem timerId_found {mp : EmMpool} (holds : mp.Holds params addresses)
    {address : ℤ} (member : address ∈ addresses) :
    emMpoolGetDataptr mp (intToUint32
      (intToUint32 (1 + emMpoolGetDataidx mp address) - 1)) =
        some address := by
  obtain ⟨k, bound, atMost, index, isAddress⟩ := holds.getDataidx member
  have timerId : intToUint32 (intToUint32 (1 + (k : ℤ)) - 1) = k := by
    unfold intToUint32
    unfold semValueMax intMax at atMost
    omega
  rw [index, timerId, holds.getDataptr, isAddress, if_pos ⟨bound, member⟩]

/-- Between calls. -/
structure Consistent (params : PoolParams) (state : EmTimers) : Prop where
  shown : ∃ addresses, state.tmrmng.mpTimerinfo.Holds params addresses
  inStep : state.InStep

namespace Consistent

variable {label : TimerCall × ℤ}

/-- What a step does: it keeps the timers exactly when the system accepts the
interval, and then the pool is one again. -/
structure Outcome (params : PoolParams) (before : EmTimers)
    (label : TimerCall × ℤ) (after : EmTimers) : Prop where
  kept : before.SettimeAccepted label → before.KeepsTimers label after
  broken : ¬ before.SettimeAccepted label → ¬ before.KeepsTimers label after
  shown : ∃ addresses, after.tmrmng.mpTimerinfo.Holds params addresses

theorem Outcome.of_kept
    (accepted : before.SettimeAccepted label)
    (kept : before.KeepsTimers label after)
    (shown : after.tmrmng.mpTimerinfo.Holds params addresses) :
    Outcome params before label after :=
  ⟨fun _ => kept, fun refused => absurd accepted refused, addresses, shown⟩

theorem Outcome.of_broken
    (refused : ¬ before.SettimeAccepted label)
    (broken : ¬ before.KeepsTimers label after)
    (shown : after.tmrmng.mpTimerinfo.Holds params addresses) :
    Outcome params before label after :=
  ⟨fun accepted => absurd accepted refused, fun _ => broken, addresses, shown⟩

theorem create (consistent : before.Consistent params)
    {setting : EmTimersetting} {created : Option ℕ} {accepted : Bool}
    {ret : ℤ}
    (fresh : ∀ id, created = some id → before.timers id = none)
    (called : before.call (.create setting created accepted) =
      (ret, after)) :
    Outcome params before (.create setting created accepted, ret) after := by
  obtain ⟨⟨addresses, holds⟩, inStep⟩ := consistent
  have matched := inStep.matched holds
  have numUsed := holds.numUsed_eq
  have numMax := holds.numMax_eq
  rcases Nat.lt_or_ge addresses.card params.capacity with room | full
  · obtain ⟨address, mp, allocated, isNew, more⟩ := holds.alloc_room room
    obtain ⟨freed, freeCalled, back⟩ :=
      more.free (Finset.mem_insert_self address addresses)
    rw [Finset.erase_insert isNew] at back
    have elsewhere : ∀ info, ∀ other ∈ addresses,
        Function.update before.tmrmng.timerinfo address info other =
          before.tmrmng.timerinfo other := by
      intro info other member
      have different : other ≠ address := by
        intro isAddress
        exact isNew (isAddress ▸ member)
      exact Function.update_of_ne different _ _
    simp only [call, emTimerCreate, allocated] at called
    cases created with
    | none =>
        simp only [timerCreate, freeBlock, assign, freeCalled] at called
        obtain ⟨rfl, rfl⟩ := Prod.mk.inj called
        refine .of_kept ?_ ?_ back
        · exact fun _ impossible => absurd rfl impossible
        · exact keepsTimers_of_unchanged holds inStep back rfl (elsewhere _)
    | some id =>
        have free := fresh id rfl
        simp only [timerCreate, freeBlock, assign, freeCalled,
          Function.update_self, Function.update_idem] at called
        cases accepted with
        | true =>
            simp only [timerSettime_accepted (Function.update_self ..),
              Function.update_idem, Int.reduceEq, Int.reduceNeg,
              ↓reduceIte] at called
            obtain ⟨rfl, rfl⟩ := Prod.mk.inj called
            refine .of_kept (fun _ _ => rfl) (keepsTimers_of_success ?_) more
            refine Matched.inStep (matched.create free (elsewhere _) ?_ ?_)
              more
            · rw [Function.update_self]
            · rfl
        | false =>
            simp only [timerSettime_refused, ↓reduceIte] at called
            obtain ⟨rfl, rfl⟩ := Prod.mk.inj called
            refine .of_broken ?_ ?_ back
            · intro accepted
              have reached := accepted (by omega) (by simp)
              cases reached
            · intro kept
              exact matched.not_leaked free (elsewhere _)
                (kept.1.matched back)
  · have isFull : addresses.card = params.capacity :=
      Nat.le_antisymm holds.card_le full
    simp only [call, emTimerCreate, holds.alloc_full isFull] at called
    obtain ⟨rfl, rfl⟩ := Prod.mk.inj called
    refine .of_kept ?_ ?_ holds
    · intro free
      omega
    · exact keepsTimers_of_unchanged holds inStep holds rfl (fun _ _ => rfl)

/-- The identifier of a live block, or one that is rejected. -/
theorem getDataptr_cases
    (holds : before.tmrmng.mpTimerinfo.Holds params addresses)
    (dataIdx : ℕ) :
    emMpoolGetDataptr before.tmrmng.mpTimerinfo dataIdx = none ∨
      ∃ address ∈ addresses,
        emMpoolGetDataptr before.tmrmng.mpTimerinfo dataIdx =
          some address := by
  rw [holds.getDataptr]
  split_ifs with live
  · exact Or.inr ⟨_, live.2, rfl⟩
  · exact Or.inl rfl

theorem delete (consistent : before.Consistent params) {timerId : ℕ}
    {ret : ℤ} (called : before.call (.delete timerId) = (ret, after)) :
    Outcome params before (.delete timerId, ret) after := by
  obtain ⟨⟨addresses, holds⟩, inStep⟩ := consistent
  have matched := inStep.matched holds
  rcases getDataptr_cases holds (intToUint32 (timerId - 1)) with
    rejected | ⟨address, member, found⟩
  · simp only [call, emTimerDelete, rejected] at called
    obtain ⟨rfl, rfl⟩ := Prod.mk.inj called
    refine .of_kept (by trivial) ?_ holds
    exact keepsTimers_of_unchanged holds inStep holds rfl (fun _ _ => rfl)
  · obtain ⟨timer, present⟩ := matched.exists_timer member
    obtain ⟨freed, freeCalled, fewer⟩ := holds.free member
    simp only [call, emTimerDelete, found, timerDelete, present, freeBlock,
      freeCalled] at called
    obtain ⟨rfl, rfl⟩ := Prod.mk.inj called
    refine .of_kept (by trivial) (keepsTimers_of_success ?_) fewer
    exact (matched.delete member).inStep fewer

theorem setInterval (consistent : before.Consistent params)
    {timerId : ℕ} {intervalMs : ℤ} {accepted : Bool} {ret : ℤ}
    (called : before.call (.setInterval timerId intervalMs accepted) =
      (ret, after)) :
    Outcome params before (.setInterval timerId intervalMs accepted, ret)
      after := by
  obtain ⟨⟨addresses, holds⟩, inStep⟩ := consistent
  have matched := inStep.matched holds
  rcases getDataptr_cases holds (intToUint32 (timerId - 1)) with
    rejected | ⟨address, member, found⟩
  · simp only [call, emTimerSetInterval, rejected] at called
    obtain ⟨rfl, rfl⟩ := Prod.mk.inj called
    refine .of_kept (fun live => absurd rejected live) ?_ holds
    exact keepsTimers_of_unchanged holds inStep holds rfl (fun _ _ => rfl)
  · obtain ⟨timer, present⟩ := matched.exists_timer member
    obtain ⟨freed, freeCalled, fewer⟩ := holds.free member
    simp only [call, emTimerSetInterval, found, freeBlock, freeCalled]
      at called
    cases accepted with
    | true =>
        simp only [timerSettime_accepted present, Int.reduceEq, Int.reduceNeg,
          ↓reduceIte] at called
        obtain ⟨rfl, rfl⟩ := Prod.mk.inj called
        refine .of_kept (fun _ => rfl) (keepsTimers_of_success ?_) holds
        exact (matched.settime present _).inStep holds
    | false =>
        simp only [timerSettime_refused, ↓reduceIte] at called
        obtain ⟨rfl, rfl⟩ := Prod.mk.inj called
        refine .of_broken ?_ ?_ fewer
        · intro accepted
          have isLive : emMpoolGetDataptr before.tmrmng.mpTimerinfo
              (intToUint32 (timerId - 1)) ≠ none := by
            rw [found]
            exact Option.some_ne_none _
          cases accepted isLive
        · intro kept
          have same := (kept.2 (by simp)).liveBlocks
          rw [liveBlocks_eq holds, liveBlocks_eq fewer] at same
          have gone := Finset.notMem_erase address addresses
          rw [Finset.coe_injective same] at gone
          exact gone member

theorem step (consistent : before.Consistent params)
    (taken : before.Step label after) :
    Outcome params before label after := by
  obtain ⟨fresh, called⟩ := taken
  obtain ⟨call, ret⟩ := label
  cases call with
  | create setting created accepted =>
      refine consistent.create ?_ called
      intro id isId
      exact fresh setting id accepted (by rw [isId])
  | delete timerId => exact consistent.delete called
  | setInterval timerId intervalMs accepted =>
      exact consistent.setInterval called

theorem start (memory : EmTimermng) {numTimer rawdata : ℤ}
    (positive : 0 < numTimer)
    (fits : sizeofTimerinfo * numTimer < 4294967296) :
    (start memory numTimer rawdata).Consistent
      ⟨intToUint32 numTimer, sizeofTimerinfo, rawdata⟩ := by
  obtain ⟨number, rfl⟩ := Int.eq_ofNat_of_zero_le positive.le
  unfold sizeofTimerinfo at fits
  have accepted : number ≤ semValueMax := by
    unfold semValueMax intMax
    omega
  have distinct : PoolParams.Distinct
      ⟨number, sizeofTimerinfo, rawdata⟩ := by
    constructor
    · exact Nat.succ_pos 31
    · change 32 * number < 4294967296
      omega
  have holds := emMpoolCreate_holds memory.mpTimerinfo (by omega) accepted
    distinct
  rw [← intToUint32_natCast accepted] at holds
  exact ⟨⟨∅, holds⟩, Matched.empty.inStep holds⟩

end Consistent

/-- A manager has its timers in step after `em_timermng_init`, and the runs in
which every call keeps them so, and changes nothing when it fails, are those in
which the system accepts every interval. -/
theorem timers_kept_iff (memory : EmTimermng) {numTimer rawdata : ℤ}
    (positive : 0 < numTimer)
    (fits : sizeofTimerinfo * numTimer < 4294967296)
    (labels : List (TimerCall × ℤ)) (state : EmTimers) :
    (start memory numTimer rawdata).InStep ∧
      (Run (Upholding KeepsTimers Step) (start memory numTimer rawdata)
          labels state ↔
        Run (Guarded SettimeAccepted Step) (start memory numTimer rawdata)
          labels state) := by
  have consistent : (start memory numTimer rawdata).Consistent _ :=
    .start memory positive fits
  refine ⟨consistent.inStep, ?_⟩
  apply Run.upholding_iff (Consistent _) consistent
  · intro before label after consistent taken
    have outcome := consistent.step taken.2
    exact ⟨outcome.shown, (outcome.kept taken.1).1⟩
  · intro before label after consistent taken
    have outcome := consistent.step taken
    constructor
    · intro kept
      by_contra refused
      exact outcome.broken refused kept
    · exact outcome.kept

/-- A timer is created and deleted by the identifier it got. -/
theorem timers_kept_two_calls :
    ∃ state, Run (Upholding KeepsTimers Step) (start default 1 0)
      [(.create ⟨100, 0, 0⟩ (some 7) true, 0), (.delete 1, 0)] state := by
  have run : ∃ state,
      Run (Guarded SettimeAccepted Step) (start default 1 0)
        [(.create ⟨100, 0, 0⟩ (some 7) true, 0), (.delete 1, 0)] state :=
    ⟨_, .cons ⟨fun _ _ => rfl, fun _ _ _ _ => rfl, rfl⟩ <|
      .cons ⟨trivial, nofun, rfl⟩ .nil⟩
  obtain ⟨state, run⟩ := run
  exact ⟨state, (@timers_kept_iff default 1 0 (by decide) (by decide)
    _ state).2.mpr run⟩

/-- A negative interval is refused by `timer_settime`; the timer stays. -/
theorem timer_leaked :
    ∃ after, Step (start default 1 0)
        (.create ⟨-1, 0, 0⟩ (some 7) false, -2) after ∧
      ¬ (start default 1 0).KeepsTimers
        (.create ⟨-1, 0, 0⟩ (some 7) false, -2) after := by
  have taken : Step (start default 1 0)
      (.create ⟨-1, 0, 0⟩ (some 7) false, -2) _ :=
    ⟨fun _ _ _ _ => rfl, rfl⟩
  have consistent : (start default 1 0).Consistent _ :=
    .start default (by decide) (by decide)
  refine ⟨_, taken, (consistent.step taken).broken ?_⟩
  intro accepted
  cases accepted (by decide) (by simp)

end EmTimers

end EmbeddedMiddle
