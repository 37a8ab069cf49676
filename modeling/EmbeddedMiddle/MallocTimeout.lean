import EmbeddedMiddle.Malloc
import EmbeddedMiddle.Time

/-!
# The timeout of an allocation

The loop of `em_trymalloc` as one caller sees it: between two of its attempts
the other threads may do what they like to the manager.
-/

namespace EmbeddedMiddle

open Foundation

/-- What a round of the loop finds: the manager once its mutex is taken, the
clock when the deadline is set anew, and the clock after the wait.  Whether the
wait ended by a broadcast or by itself is not looked at. -/
structure TrymallocRound where
  mm : EmMemmng
  rearmed : Timespec
  now : Timespec
  deriving Inhabited

/-- What the call returns, after how many attempts, and until when it was
prepared to wait in between. -/
structure TrymallocResult where
  ret : Option ℤ
  attempts : ℕ
  deadlines : List Timespec
  deriving DecidableEq, Repr

def TrymallocResult.afterWait (timeoutTs : Timespec)
    (result : TrymallocResult) : TrymallocResult :=
  { result with
    attempts := result.attempts + 1
    deadlines := timeoutTs :: result.deadlines }

/-- `while (1)`; `none` is a call that is still waiting after these rounds. -/
def emTrymallocLoop (size : ℕ) (timeoutMs : ℤ) (startTs : Timespec) :
    Timespec → List TrymallocRound → Option TrymallocResult
  | _, [] => none
  | timeoutTs, round :: later =>
      let (mallocRet, ret, _) := emMallocUnlocked round.mm size
      if mallocRet = emSuccess then some ⟨ret, 1, []⟩
      else if timeoutMs = emNoWait then some ⟨ret, 1, []⟩
      else
        let timeoutTs :=
          if timeoutMs = emNoTimeout then
            emGetOffsetTimestamp round.rearmed 10000
          else timeoutTs
        let passedTs := emTimespecSub round.now startTs
        let passedMs := emCalcTimespec2ms passedTs
        if timeoutMs ≤ passedMs then some ⟨ret, 1, [timeoutTs]⟩
        else
          (emTrymallocLoop size timeoutMs startTs timeoutTs later).map
            (.afterWait timeoutTs)

/-- `startTs` and `armed` are the two readings before the loop. -/
def emTrymalloc (size : ℕ) (timeoutMs : ℤ) (startTs armed : Timespec)
    (rounds : List TrymallocRound) : Option TrymallocResult :=
  emTrymallocLoop size timeoutMs startTs (emGetOffsetTimestamp armed timeoutMs)
    rounds

/-! ## One attempt -/

/-- An attempt stores a pointer exactly when it reports success. -/
theorem emMallocUnlocked_success_iff {mm : EmMemmng} {size : ℕ} :
    (emMallocUnlocked mm size).1 = emSuccess ↔
      (emMallocUnlocked mm size).2.1 ≠ none := by
  unfold emMallocUnlocked
  split_ifs
  · simp [emErrParam, emSuccess]
  · dsimp only
    split
    · simp [emSuccess]
    · split <;> simp [emSuccess]

namespace TrymallocRound

variable {size : ℕ} {timeoutMs : ℤ} {startTs timeoutTs : Timespec}
  {round : TrymallocRound} {rounds later : List TrymallocRound}
  {result : TrymallocResult}

/-- The pointer `_em_malloc` stores in this round. -/
def attempt (size : ℕ) (round : TrymallocRound) : Option ℤ :=
  (emMallocUnlocked round.mm size).2.1

/-- The three exits are not taken. -/
structure GoesOn (size : ℕ) (timeoutMs : ℤ) (startTs : Timespec)
    (round : TrymallocRound) : Prop where
  failed : round.attempt size = none
  waits : timeoutMs ≠ emNoWait
  early : emCalcTimespec2ms (emTimespecSub round.now startTs) < timeoutMs

theorem loop_goesOn (goesOn : round.GoesOn size timeoutMs startTs) :
    ∃ deadline, emTrymallocLoop size timeoutMs startTs timeoutTs
        (round :: later) =
      (emTrymallocLoop size timeoutMs startTs deadline later).map
        (.afterWait deadline) := by
  have unsuccessful : (emMallocUnlocked round.mm size).1 ≠ emSuccess :=
    fun success => emMallocUnlocked_success_iff.mp success goesOn.failed
  rw [emTrymallocLoop]
  dsimp only
  rw [if_neg unsuccessful, if_neg goesOn.waits,
    if_neg (Int.not_le.mpr goesOn.early)]
  exact ⟨_, rfl⟩

theorem loop_stops (stops : ¬ round.GoesOn size timeoutMs startTs) :
    ∃ deadlines, emTrymallocLoop size timeoutMs startTs timeoutTs
        (round :: later) = some ⟨round.attempt size, 1, deadlines⟩ := by
  rw [emTrymallocLoop]
  dsimp only
  by_cases success : (emMallocUnlocked round.mm size).1 = emSuccess
  · rw [if_pos success]
    exact ⟨[], rfl⟩
  · have failed : round.attempt size = none :=
      Classical.not_not.mp (mt emMallocUnlocked_success_iff.mpr success)
    by_cases noWait : timeoutMs = emNoWait
    · rw [if_neg success, if_pos noWait]
      exact ⟨[], rfl⟩
    · have late := Int.not_lt.mp fun early => stops ⟨failed, noWait, early⟩
      rw [if_neg success, if_neg noWait, if_pos late]
      exact ⟨_, rfl⟩

/-! ## The loop -/

theorem loop_none_iff :
    emTrymallocLoop size timeoutMs startTs timeoutTs rounds = none ↔
      ∀ round ∈ rounds, round.GoesOn size timeoutMs startTs := by
  induction rounds generalizing timeoutTs with
  | nil => simp [emTrymallocLoop]
  | cons round later induction =>
      by_cases goesOn : round.GoesOn size timeoutMs startTs
      · obtain ⟨deadline, continued⟩ :=
          @loop_goesOn _ _ _ timeoutTs _ later goesOn
        rw [continued, Option.map_eq_none_iff, induction]
        simp [goesOn]
      · obtain ⟨deadlines, stopped⟩ :=
          @loop_stops _ _ _ timeoutTs _ later goesOn
        simp [stopped, goesOn]

/-- The call returns in the first round that takes an exit, with the pointer of
that round. -/
theorem loop_append {earlier : List TrymallocRound}
    (goOn : ∀ before ∈ earlier, before.GoesOn size timeoutMs startTs)
    (stops : ¬ round.GoesOn size timeoutMs startTs) :
    ∃ deadlines, emTrymallocLoop size timeoutMs startTs timeoutTs
        (earlier ++ round :: later) =
      some ⟨round.attempt size, earlier.length + 1, deadlines⟩ := by
  induction earlier generalizing timeoutTs with
  | nil => exact loop_stops stops
  | cons before earlier induction =>
      obtain ⟨deadline, continued⟩ :=
        @loop_goesOn _ _ _ timeoutTs _ (earlier ++ round :: later)
          (goOn before (List.mem_cons_self ..))
      obtain ⟨deadlines, returned⟩ := @induction deadline
        (fun other among => goOn other (List.mem_cons_of_mem _ among))
      exact ⟨deadline :: deadlines, by
        rw [List.cons_append, continued, returned]; rfl⟩

theorem loop_some
    (returned : emTrymallocLoop size timeoutMs startTs timeoutTs rounds =
      some result) :
    ∃ earlier round later, rounds = earlier ++ round :: later ∧
      (∀ before ∈ earlier, before.GoesOn size timeoutMs startTs) ∧
      ¬ round.GoesOn size timeoutMs startTs ∧
      result.ret = round.attempt size ∧
      result.attempts = earlier.length + 1 := by
  induction rounds generalizing timeoutTs result with
  | nil => cases returned
  | cons first rest induction =>
      by_cases goesOn : first.GoesOn size timeoutMs startTs
      · obtain ⟨deadline, continued⟩ :=
          @loop_goesOn _ _ _ timeoutTs _ rest goesOn
        rw [continued] at returned
        obtain ⟨after, returnedAfter, rfl⟩ :=
          Option.map_eq_some_iff.mp returned
        obtain ⟨earlier, round, later, rfl, goOn, stops, ret, attempts⟩ :=
          induction returnedAfter
        refine ⟨first :: earlier, round, later, rfl, ?_, stops, ret, ?_⟩
        · exact List.forall_mem_cons.mpr ⟨goesOn, goOn⟩
        · exact congrArg (· + 1) attempts
      · obtain ⟨deadlines, stopped⟩ :=
          @loop_stops _ _ _ timeoutTs _ rest goesOn
        rw [stopped] at returned
        obtain rfl := Option.some.inj returned
        exact ⟨[], first, rest, rfl, by simp, goesOn, rfl, rfl⟩

end TrymallocRound

/-! ## The timeout -/

/-- The timeout is honoured: without waiting there is one attempt; without a
timeout NULL is not returned; with one it is returned only once the
milliseconds have passed; and a pointer is returned at once. -/
structure TrymallocHonoured (size : ℕ) (timeoutMs : ℤ)
    (startTs armed : Timespec) (rounds : List TrymallocRound) : Prop where
  noWait : timeoutMs = emNoWait → ∀ round ∈ rounds.head?,
    ∃ deadlines, emTrymalloc size timeoutMs startTs armed rounds =
      some ⟨round.attempt size, 1, deadlines⟩
  noTimeout : timeoutMs = emNoTimeout → ∀ result,
    emTrymalloc size timeoutMs startTs armed rounds = some result →
      result.ret ≠ none
  timeout : 0 < timeoutMs → ∀ result,
    emTrymalloc size timeoutMs startTs armed rounds = some result →
      result.ret = none →
      ∃ last, rounds[result.attempts - 1]? = some last ∧
        startTs.nanoseconds + timeoutMs * 1000000 ≤ last.now.nanoseconds
  atOnce : ∀ earlier round later, rounds = earlier ++ round :: later →
    emTrymalloc size timeoutMs startTs armed earlier = none →
    round.attempt size ≠ none →
      ∃ deadlines, emTrymalloc size timeoutMs startTs armed rounds =
        some ⟨round.attempt size, earlier.length + 1, deadlines⟩

/-- A caller without a timeout gets a pointer at its first attempt. -/
def SucceedsAtFirst (size : ℕ) (rounds : List TrymallocRound) : Prop :=
  ∀ round ∈ rounds.head?, round.attempt size ≠ none

section Honoured

variable {size : ℕ} {timeoutMs : ℤ} {startTs armed : Timespec}
  {rounds : List TrymallocRound}

/-- Every elapsed time is at least `EM_NO_TIMEOUT`. -/
theorem goesOn_noTimeout {round : TrymallocRound}
    (elapses : startTs.Elapses round.now) :
    ¬ round.GoesOn size emNoTimeout startTs := by
  intro goesOn
  have early := goesOn.early
  have later := elapses.later
  rw [elapses.passedMs, emNoTimeout] at early
  omega

/-- Whatever the rounds bring, the timeout is honoured unless a caller without
a timeout fails at its first attempt. -/
theorem trymalloc_honoured_iff
    (sentinelOrTime : timeoutMs = emNoTimeout ∨ timeoutMs = emNoWait ∨
      0 < timeoutMs)
    (elapse : ∀ round ∈ rounds, startTs.Elapses round.now) :
    TrymallocHonoured size timeoutMs startTs armed rounds ↔
      (timeoutMs = emNoTimeout → SucceedsAtFirst size rounds) := by
  constructor
  · rintro honoured rfl round first
    obtain ⟨later, rfl⟩ := List.head?_eq_some_iff.mp first
    obtain ⟨deadlines, returned⟩ := TrymallocRound.loop_stops
      (goesOn_noTimeout (elapse round (List.mem_cons_self ..)))
    exact honoured.noTimeout rfl _ returned
  · intro succeeds
    refine ⟨?_, ?_, ?_, ?_⟩
    · rintro rfl round first
      obtain ⟨later, rfl⟩ := List.head?_eq_some_iff.mp first
      exact TrymallocRound.loop_stops (fun goesOn => goesOn.waits rfl)
    · rintro rfl result returned
      obtain ⟨earlier, round, later, rfl, goOn, stops, ret, -⟩ :=
        TrymallocRound.loop_some returned
      cases earlier with
      | nil =>
          rw [ret]
          exact succeeds rfl round rfl
      | cons before earlier =>
          exact absurd (goOn before (List.mem_cons_self ..))
            (goesOn_noTimeout (elapse before (List.mem_cons_self ..)))
    · intro positive result returned null
      obtain ⟨earlier, round, later, rfl, goOn, stops, ret, attempts⟩ :=
        TrymallocRound.loop_some returned
      refine ⟨round, by simp [attempts], ?_⟩
      have elapses := elapse round (by simp)
      have late : timeoutMs ≤
          emCalcTimespec2ms (emTimespecSub round.now startTs) := by
        refine Int.not_lt.mp fun early => stops ⟨ret ▸ null, ?_, early⟩
        rw [emNoWait]
        omega
      rw [elapses.passedMs] at late
      omega
    · rintro earlier round later rfl waiting success
      exact TrymallocRound.loop_append (TrymallocRound.loop_none_iff.mp waiting)
        (fun goesOn => success goesOn.failed)

/-- A caller that waits for 100 ms is woken after 5 ms, in vain, and served in
its second round. -/
theorem trymalloc_honoured_second_round :
    let mm := emMemmngCreate default 8 1 2 none ⟨0, 1000, 2000⟩
    let startTs : Timespec := ⟨100, 0⟩
    TrymallocHonoured 8 100 startTs startTs
        [⟨(emMalloc mm 8).2, startTs, ⟨100, 5000000⟩⟩,
          ⟨mm, startTs, ⟨100, 5000000⟩⟩] := by
  intro mm startTs
  have elapses : startTs.Elapses ⟨100, 5000000⟩ :=
    ⟨by decide, by decide, by decide⟩
  exact (trymalloc_honoured_iff (.inr (.inr (by decide)))
    (by simp [elapses])).mpr (fun sentinel => absurd sentinel (by decide))

/-- The only unit of an arena is in use.  A caller that wants to wait for it
without a timeout is woken after 5 ms, in vain, and returns NULL. -/
theorem trymalloc_gives_up_without_timeout :
    let mm := emMemmngCreate default 8 1 2 none ⟨0, 1000, 2000⟩
    let startTs : Timespec := ⟨100, 0⟩
    let rounds : List TrymallocRound :=
      [⟨(emMalloc mm 8).2, startTs, ⟨100, 5000000⟩⟩]
    startTs.Elapses ⟨100, 5000000⟩ ∧
      emTrymalloc 8 emNoTimeout startTs startTs rounds =
        some ⟨none, 1, [⟨110, 0⟩]⟩ ∧
      ¬ TrymallocHonoured 8 emNoTimeout startTs startTs rounds := by
  intro mm startTs rounds
  have returned : emTrymalloc 8 emNoTimeout startTs startTs rounds =
      some ⟨none, 1, [⟨110, 0⟩]⟩ := by decide +kernel
  exact ⟨⟨by decide, by decide, by decide⟩, returned,
    fun honoured => honoured.noTimeout rfl _ returned rfl⟩

end Honoured

end EmbeddedMiddle
