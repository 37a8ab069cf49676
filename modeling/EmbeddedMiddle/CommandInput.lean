import EmbeddedMiddle.Foundation.LineStream
import EmbeddedMiddle.Foundation.Transition
import Mathlib.Data.List.TakeWhile

/-!
# Commands from the console

`em_cmd_start` of `em_command.c`: lines are read from the standard input and
passed on, until the commands are stopped.  The end of the input is not noticed.
-/

namespace EmbeddedMiddle

open Foundation

def emCmdWordNumMax : ℕ := 10

def emCmdWordLengthMax : ℕ := 128

def emCmdBufLength : ℕ := emCmdWordNumMax * (emCmdWordLengthMax + 1)

/-- `timedOut` is the answer 0 of `select`.  The answer of `fgets` is not
looked at. -/
def timedFgets (dst : Bytes) (size : ℕ) (stream : List UInt8)
    (timeoutSec : ℤ) (timedOut : Bool) : ℤ × Bytes × List UInt8 :=
  if 0 ≤ timeoutSec ∧ timedOut = true then (-1, dst, stream)
  else (0, fgets dst size stream)

/-- Removes the newline. -/
def emCmdTrim (inputBuf : Bytes) : Bytes :=
  let inputBuf := Function.update inputBuf
    (strcspn inputBuf emCmdBufLength newline) 0
  Function.update inputBuf (emCmdBufLength - 1) 0

/-- One round of the loop: the buffer, what is left of the input, and the
string that is passed to `em_cmd_exec_string`, if there is one. -/
def emCmdRound (inputBuf : Bytes) (stdin : List UInt8) (timedOut : Bool) :
    Bytes × List UInt8 × Option (List UInt8) :=
  match timedFgets inputBuf emCmdBufLength stdin 1 timedOut with
  | (ret, inputBuf, stdin) =>
      if ret ≠ 0 then (inputBuf, stdin, none)
      else
        let inputBuf := emCmdTrim inputBuf
        (inputBuf, stdin, some (inputBuf.cString emCmdBufLength))

/-! ## One line -/

def upToZero (line : List UInt8) : List UInt8 :=
  line.takeWhile (fun byte => byte ≠ 0)

theorem upToZero_eq_self_iff {line : List UInt8} :
    upToZero line = line ↔ 0 ∉ line := by
  rw [upToZero, List.takeWhile_eq_self_iff]
  constructor
  · intro nonzero zero
    simpa using nonzero 0 zero
  · intro noZero byte member
    simpa using ne_of_mem_of_not_mem member noZero

theorem upToZero_length_le (line : List UInt8) :
    (upToZero line).length ≤ line.length :=
  (List.takeWhile_prefix _).length_le

theorem zero_notMem_upToZero (line : List UInt8) : 0 ∉ upToZero line := by
  intro zero
  simpa using List.mem_takeWhile_imp zero

theorem map_upToZero_eq_self_iff {lines : List (List UInt8)} :
    lines.map upToZero = lines ↔ ∀ line ∈ lines, 0 ∉ line := by
  have texts := @List.map_inj_left _ _ lines upToZero id
  rw [List.map_id] at texts
  simpa only [id_eq, upToZero_eq_self_iff] using texts

theorem emCmdTrim_holdsText {inputBuf : Bytes} {text : List UInt8}
    (found : strcspn inputBuf emCmdBufLength newline = text.length)
    (content : inputBuf.read 0 text.length = text)
    (fits : text.length < emCmdBufLength) :
    (emCmdTrim inputBuf).HoldsText text := by
  rw [emCmdTrim, found]
  constructor
  · rwa [Bytes.read_update _ (by omega), Bytes.read_update _ (Nat.le_refl _)]
  · simp [Function.update_apply]

/-- Trimming leaves the text of the line, up to a zero in it. -/
theorem emCmdTrim_line {dst : Bytes} {line : List UInt8} {ended : Bool}
    {rest : List (List UInt8)} (noNewline : newline ∉ line)
    (short : line.length + 1 < emCmdBufLength) :
    (emCmdTrim (dst.startingWith
        (line ++ lineEnd ended rest ++ [0]))).HoldsText (upToZero line) := by
  have stopped : ∃ next behind, lineEnd ended rest ++ [0] = next :: behind ∧
      (next = 0 ∨ next = newline) ∧ behind.length ≤ 1 := by
    unfold lineEnd
    split_ifs
    · exact ⟨0, [], rfl, Or.inl rfl, Nat.zero_le 1⟩
    · exact ⟨newline, [0], rfl, Or.inr rfl, Nat.le_refl 1⟩
  obtain ⟨next, behind, isEnd, stops, few⟩ := stopped
  rw [List.append_assoc, isEnd]
  have isText : upToZero line <+: line := List.takeWhile_prefix _
  have shorter := isText.length_le
  apply emCmdTrim_holdsText
  · have inside : (line ++ next :: behind).length ≤ emCmdBufLength := by
      simp only [List.length_append, List.length_cons]
      omega
    obtain ⟨more, isMore⟩ := Nat.exists_eq_add_of_le inside
    rw [strcspn, isMore, Bytes.read_startingWith_behind, List.append_assoc,
      List.cons_append, strcspn_line noNewline stops, upToZero]
  · have isPrefix := isText.trans (List.prefix_append line (next :: behind))
    rw [Bytes.read_startingWith_take _ _ isPrefix.length_le]
    exact (List.prefix_iff_eq_take.mp isPrefix).symm
  · omega

/-- What has been trimmed stays as it is. -/
theorem emCmdTrim_again {inputBuf : Bytes} {text : List UInt8}
    (holds : inputBuf.HoldsText text) (noZero : 0 ∉ text)
    (noNewline : newline ∉ text) (fits : text.length < emCmdBufLength) :
    (emCmdTrim inputBuf).HoldsText text := by
  apply emCmdTrim_holdsText _ holds.content fits
  obtain ⟨behind, whole⟩ := holds.read_eq fits
  have isText : upToZero text = text := upToZero_eq_self_iff.mpr noZero
  rw [strcspn, whole, strcspn_line noNewline (Or.inl rfl)]
  exact congrArg List.length isText

/-! ## One round -/

/-- A round that reads passes the next line on, up to a zero in it. -/
theorem emCmdRound_line {ended : Bool} {line : List UInt8}
    {rest : List (List UInt8)}
    (lines : AreLines ended emCmdBufLength (line :: rest))
    (inputBuf : Bytes) :
    ∃ after : Bytes, after.HoldsText (upToZero line) ∧
      emCmdRound inputBuf (streamOf ended (line :: rest)) false =
        (after, streamOf ended rest, some (upToZero line)) := by
  have noNewline := lines.noNewline line (List.mem_cons_self ..)
  have short := lines.short line (List.mem_cons_self ..)
  have read := fgets_line lines inputBuf
  have shorter := upToZero_length_le line
  have holds := @emCmdTrim_line inputBuf line ended rest noNewline short
  refine ⟨_, holds, ?_⟩
  simp only [emCmdRound, timedFgets, read, Bool.false_eq_true, and_false,
    ↓reduceIte, ne_eq, not_true_eq_false]
  rw [holds.cString_eq (zero_notMem_upToZero line) (by omega)]

/-- At the end of the input a round passes the old text on once more. -/
theorem emCmdRound_again {inputBuf : Bytes} {text : List UInt8}
    (holds : inputBuf.HoldsText text) (noZero : 0 ∉ text)
    (noNewline : newline ∉ text) (fits : text.length < emCmdBufLength) :
    ∃ after : Bytes, after.HoldsText text ∧
      emCmdRound inputBuf [] false = (after, [], some text) := by
  have again := emCmdTrim_again holds noZero noNewline fits
  refine ⟨_, again, ?_⟩
  simp only [emCmdRound, timedFgets, fgets, Bool.false_eq_true, and_false,
    ↓reduceIte, ne_eq, not_true_eq_false]
  rw [again.cString_eq noZero fits]

theorem emCmdRound_timeout (inputBuf : Bytes) (stdin : List UInt8) :
    emCmdRound inputBuf stdin true = (inputBuf, stdin, none) :=
  rfl

/-! ## Runs -/

/-- Where `em_cmd_start` is: before `is_running` is set, at the test of the
loop, in `timed_fgets`, before `em_cmd_exec_string` and in it, or at its end. -/
inductive EmCmdPlace where
  | starting
  | testing
  | reading
  | passing (string : List UInt8)
  | executing
  | returned

/-- The string that has been read and not yet been passed on. -/
def EmCmdPlace.pending : EmCmdPlace → List (List UInt8)
  | .passing string => [string]
  | _ => []

/-- The loop, and, for the record, the strings it has passed on. -/
structure EmCmdLoop where
  isRunning : Bool
  place : EmCmdPlace
  inputBuf : Bytes
  stdin : List UInt8
  passed : List (List UInt8)

/-- A step of the loop, or a call of `em_cmd_stop` by the command that is being
executed or by another thread. -/
inductive EmCmdAction where
  | start
  | test
  | timeout
  | read
  | pass
  | executed
  | stop
  deriving DecidableEq

/-- How often the loop has read. -/
def EmCmdAction.reads (labels : List EmCmdAction) : ℕ :=
  labels.count .read

namespace EmCmdLoop

/-- `input_buf` is not initialised. -/
def start (isRunning : Bool) (inputBuf : Bytes) (ended : Bool)
    (lines : List (List UInt8)) : EmCmdLoop :=
  ⟨isRunning, .starting, inputBuf, streamOf ended lines, []⟩

/-- `is_running` is the only thing that the loop shares. -/
inductive Step : EmCmdLoop → EmCmdAction → EmCmdLoop → Prop where
  | start {isRunning inputBuf stdin passed} :
      Step ⟨isRunning, .starting, inputBuf, stdin, passed⟩ .start
        ⟨true, .testing, inputBuf, stdin, passed⟩
  | test {isRunning inputBuf stdin passed} :
      Step ⟨isRunning, .testing, inputBuf, stdin, passed⟩ .test
        ⟨isRunning, if isRunning then .reading else .returned, inputBuf,
          stdin, passed⟩
  | timeout {isRunning inputBuf after stdin left passed} :
      emCmdRound inputBuf stdin true = (after, left, none) →
      Step ⟨isRunning, .reading, inputBuf, stdin, passed⟩ .timeout
        ⟨isRunning, .testing, after, left, passed⟩
  | read {isRunning inputBuf after stdin left string passed} :
      emCmdRound inputBuf stdin false = (after, left, some string) →
      Step ⟨isRunning, .reading, inputBuf, stdin, passed⟩ .read
        ⟨isRunning, .passing string, after, left, passed⟩
  | pass {isRunning string inputBuf stdin passed} :
      Step ⟨isRunning, .passing string, inputBuf, stdin, passed⟩ .pass
        ⟨isRunning, .executing, inputBuf, stdin, passed ++ [string]⟩
  | executed {isRunning inputBuf stdin passed} :
      Step ⟨isRunning, .executing, inputBuf, stdin, passed⟩ .executed
        ⟨isRunning, .testing, inputBuf, stdin, passed⟩
  | stop {isRunning place inputBuf stdin passed} :
      Step ⟨isRunning, place, inputBuf, stdin, passed⟩ .stop
        ⟨false, place, inputBuf, stdin, passed⟩

/-- After `count` reads, the texts of the lines that have been read are passed
on, or are about to be, and then, for each further read, the text of the last
line again. -/
structure HasRead (ended : Bool) (lines : List (List UInt8)) (count : ℕ)
    (state : EmCmdLoop) : Prop where
  stdin : state.stdin = streamOf ended (lines.drop count)
  inputBuf : ∀ line ∈ (lines.take count).getLast?,
    state.inputBuf.HoldsText (upToZero line)
  passed : ∃ again, again.length = count - lines.length ∧
    (∀ line ∈ lines.getLast?, ∀ string ∈ again, string = upToZero line) ∧
    state.passed ++ state.place.pending =
      (lines.take count).map upToZero ++ again

variable {ended : Bool} {lines : List (List UInt8)} {count : ℕ}

section Read

variable {isRunning : Bool} {inputBuf after : Bytes}
  {stdin left string : List UInt8} {passed : List (List UInt8)}

theorem HasRead.read_line
    (areLines : AreLines ended emCmdBufLength lines)
    (hasRead : HasRead ended lines count
      ⟨isRunning, .reading, inputBuf, stdin, passed⟩)
    (inside : count < lines.length)
    (round : emCmdRound inputBuf stdin false = (after, left, some string)) :
    HasRead ended lines (count + 1)
      ⟨isRunning, .passing string, after, left, passed⟩ := by
  obtain ⟨isStdin, -, again, isCount, -, isPassed⟩ := hasRead
  obtain rfl : passed = (lines.take count).map upToZero ++ again := by
    simpa [EmCmdPlace.pending] using isPassed
  obtain rfl : stdin = streamOf ended (lines.drop count) := isStdin
  obtain rfl : again = [] := List.length_eq_zero_iff.mp (by omega)
  have isNext := List.drop_eq_getElem_cons inside
  have nextLines := areLines.drop count
  rw [isNext] at round nextLines
  obtain ⟨buffer, holds, passes⟩ := emCmdRound_line nextLines inputBuf
  obtain ⟨rfl, rfl, rfl⟩ : _ ∧ _ ∧ _ := by
    simpa using round.symm.trans passes
  have isTake := List.take_succ_eq_append_getElem inside
  refine ⟨rfl, ?_, [], ?_, ?_, ?_⟩
  · intro line isLast
    rw [isTake, List.getLast?_concat, Option.mem_some_iff] at isLast
    rw [← isLast]
    exact holds
  · rw [List.length_nil]
    omega
  · intro line _ string none
    cases none
  · rw [isTake, List.map_append]
    simp [EmCmdPlace.pending]

theorem HasRead.read_end
    (areLines : AreLines ended emCmdBufLength lines)
    (hasRead : HasRead ended lines count
      ⟨isRunning, .reading, inputBuf, stdin, passed⟩)
    (behind : lines.length ≤ count)
    (round : emCmdRound inputBuf stdin false = (after, left, some string)) :
    HasRead ended lines (count + 1)
      ⟨isRunning, .passing string, after, left, passed⟩ := by
  obtain ⟨isStdin, holdsText, again, isCount, same, isPassed⟩ := hasRead
  obtain rfl : passed = (lines.take count).map upToZero ++ again := by
    simpa [EmCmdPlace.pending] using isPassed
  rw [List.drop_eq_nil_of_le behind] at isStdin
  obtain rfl : stdin = [] := isStdin
  rw [List.take_of_length_le behind] at holdsText
  have last : ∀ line ∈ lines.getLast?,
      after.HoldsText (upToZero line) ∧ string = upToZero line := by
    intro line isLast
    have member := List.mem_of_getLast? isLast
    have shorter := upToZero_length_le line
    have short := areLines.short line member
    have noNewline : newline ∉ upToZero line := fun isIn =>
      areLines.noNewline line member ((List.takeWhile_prefix _).subset isIn)
    obtain ⟨buffer, holds, passes⟩ := emCmdRound_again
      (holdsText line isLast) (zero_notMem_upToZero line) noNewline (by omega)
    obtain ⟨rfl, -, rfl⟩ : _ ∧ _ ∧ _ := by
      simpa using round.symm.trans passes
    exact ⟨holds, rfl⟩
  have isTake : lines.take (count + 1) = lines :=
    List.take_of_length_le (Nat.le_succ_of_le behind)
  refine ⟨?_, ?_, again ++ [string], ?_, ?_, ?_⟩
  · rw [List.drop_eq_nil_of_le (Nat.le_succ_of_le behind)]
    exact congrArg (fun result => result.2.1) round.symm
  · rw [isTake]
    exact fun line isLast => (last line isLast).1
  · rw [List.length_append, isCount, List.length_singleton]
    omega
  · intro line isLast other member
    rcases List.mem_append.mp member with earlier | isNew
    · exact same line isLast other earlier
    · rw [List.mem_singleton.mp isNew]
      exact (last line isLast).2
  · rw [isTake, List.take_of_length_le behind, EmCmdPlace.pending,
      List.append_assoc]

end Read

theorem HasRead.step {before after : EmCmdLoop} {action : EmCmdAction}
    (areLines : AreLines ended emCmdBufLength lines)
    (hasRead : before.HasRead ended lines count)
    (taken : Step before action after) :
    after.HasRead ended lines (count + EmCmdAction.reads [action]) := by
  cases taken with
  | start => exact ⟨hasRead.stdin, hasRead.inputBuf, hasRead.passed⟩
  | @test isRunning =>
      refine ⟨hasRead.stdin, hasRead.inputBuf, ?_⟩
      cases isRunning with
      | true => exact hasRead.passed
      | false => exact hasRead.passed
  | timeout round =>
      rw [emCmdRound_timeout] at round
      obtain ⟨rfl, rfl⟩ : _ ∧ _ := by
        simpa using round
      exact ⟨hasRead.stdin, hasRead.inputBuf, hasRead.passed⟩
  | read round =>
      rcases Nat.lt_or_ge count lines.length with inside | behind
      · exact hasRead.read_line areLines inside round
      · exact hasRead.read_end areLines behind round
  | pass =>
      obtain ⟨isStdin, holdsText, again, isCount, same, isPassed⟩ := hasRead
      exact ⟨isStdin, holdsText, again, isCount, same,
        (List.append_nil _).trans isPassed⟩
  | executed => exact ⟨hasRead.stdin, hasRead.inputBuf, hasRead.passed⟩
  | stop => exact ⟨hasRead.stdin, hasRead.inputBuf, hasRead.passed⟩

/-- What is asked of a run.  The loop reads while there is input, a line without
a zero byte, and nobody has called `em_cmd_stop` since it tested `is_running`;
and nobody calls it before `is_running` is set, or with a string that is about
to be passed on. -/
def Careful (before : EmCmdLoop) : EmCmdAction → Prop
  | .read => before.isRunning = true ∧ before.stdin ≠ [] ∧
      0 ∉ before.stdin.takeWhile (fun byte => byte ≠ newline)
  | .stop => before.place ≠ .starting ∧
      ∀ string, before.place ≠ .passing string
  | _ => True

/-- A careful read is one of the lines. -/
theorem HasRead.careful {before : EmCmdLoop} {action : EmCmdAction}
    (areLines : AreLines ended emCmdBufLength lines)
    (hasRead : before.HasRead ended lines count)
    (few : count ≤ lines.length)
    (noZero : ∀ line ∈ lines.take count, 0 ∉ line)
    (careful : before.Careful action) :
    count + EmCmdAction.reads [action] ≤ lines.length ∧
      ∀ line ∈ lines.take (count + EmCmdAction.reads [action]),
        0 ∉ line := by
  by_cases reads : action = .read
  · subst reads
    obtain ⟨-, more, clean⟩ := careful
    rw [hasRead.stdin] at more clean
    have inside : count < lines.length := by
      by_contra behind
      rw [List.drop_eq_nil_of_le (not_lt.mp behind)] at more
      exact more rfl
    rw [List.drop_eq_getElem_cons inside, takeWhile_streamOf
      (areLines.noNewline _ (List.getElem_mem inside))] at clean
    refine ⟨inside, ?_⟩
    intro line member
    change line ∈ lines.take (count + 1) at member
    rw [List.take_succ_eq_append_getElem inside] at member
    rcases List.mem_append.mp member with earlier | isNew
    · exact noZero line earlier
    · rwa [List.mem_singleton.mp isNew]
  · have none : EmCmdAction.reads [action] = 0 :=
      List.count_eq_zero_of_not_mem (by simpa using Ne.symm reads)
    rw [none, Nat.add_zero]
    exact ⟨few, noZero⟩

/-- `is_running` tells whether `em_cmd_stop` has been called, and no string has
been passed on after that. -/
structure Watched (labels : List EmCmdAction) (state : EmCmdLoop) : Prop where
  starting : state.place = .starting → .stop ∉ labels
  running : state.place ≠ .starting →
    (state.isRunning = true ↔ .stop ∉ labels)
  passing : ∀ string, state.place = .passing string → state.isRunning = true
  returned : state.place = .returned → state.isRunning = false
  notLate : labels.Pairwise
    (fun earlier later => earlier = .stop → later ≠ .pass)

theorem Watched.step {before after : EmCmdLoop} {action : EmCmdAction}
    {labels : List EmCmdAction} (watched : Watched labels before)
    (taken : Guarded Careful Step before action after) :
    Watched (labels ++ [action]) after := by
  obtain ⟨careful, taken⟩ := taken
  have notLate : (action = .pass → .stop ∉ labels) →
      (labels ++ [action]).Pairwise
        (fun earlier later => earlier = .stop → later ≠ .pass) := by
    intro early
    rw [List.pairwise_append]
    refine ⟨watched.notLate, List.pairwise_singleton .., ?_⟩
    rintro earlier member later isLast rfl rfl
    exact early (List.mem_singleton.mp isLast).symm member
  cases taken with
  | start =>
      have unstopped := watched.starting rfl
      exact ⟨nofun, fun _ => by simp [unstopped], nofun, nofun, notLate nofun⟩
  | @test isRunning =>
      have running := watched.running nofun
      cases isRunning with
      | true =>
          exact ⟨nofun, fun _ => by simpa using running, nofun, nofun,
            notLate nofun⟩
      | false =>
          exact ⟨nofun, fun _ => by simpa using running, nofun,
            fun _ => rfl, notLate nofun⟩
  | timeout =>
      have running := watched.running nofun
      exact ⟨nofun, fun _ => by simpa using running, nofun, nofun,
        notLate nofun⟩
  | read =>
      have running := watched.running nofun
      exact ⟨nofun, fun _ => by simpa using running, fun _ _ => careful.1,
        nofun, notLate nofun⟩
  | pass =>
      have running := watched.running nofun
      have unstopped := running.mp (watched.passing _ rfl)
      exact ⟨nofun, fun _ => by simpa using running, nofun, nofun,
        notLate fun _ => unstopped⟩
  | executed =>
      have running := watched.running nofun
      exact ⟨nofun, fun _ => by simpa using running, nofun, nofun,
        notLate nofun⟩
  | stop =>
      obtain ⟨notStarting, notPassing⟩ := careful
      exact ⟨fun starting => absurd starting notStarting,
        fun _ => by simp, fun string passing =>
          absurd passing (notPassing string), fun _ => rfl, notLate nofun⟩

/-! ### Nothing is left out -/

/-- The loop is at its test after some steps in which it is not stopped. -/
def CanTest (ended : Bool) (lines : List (List UInt8)) (count : ℕ)
    (state : EmCmdLoop) : Prop :=
  ∃ labels after, Run (Guarded Careful Step) state labels after ∧
    .stop ∉ labels ∧ after.isRunning = true ∧ after.place = .testing ∧
      after.HasRead ended lines count

theorem CanTest.of_step {before after : EmCmdLoop} (action : EmCmdAction)
    (careful : before.Careful action) (taken : Step before action after)
    (notStop : action ≠ .stop) (canTest : after.CanTest ended lines count) :
    before.CanTest ended lines count := by
  obtain ⟨labels, final, run, noStop, rest⟩ := canTest
  refine ⟨action :: labels, final, .cons ⟨careful, taken⟩ run, ?_, rest⟩
  simpa using ⟨notStop.symm, noStop⟩

/-- A loop that has not been stopped gets back to its test. -/
theorem HasRead.canTest {state : EmCmdLoop}
    (areLines : AreLines ended emCmdBufLength lines)
    (hasRead : state.HasRead ended lines count)
    (running : state.place = .starting ∨ state.isRunning = true)
    (notReturned : state.place ≠ .returned) :
    state.CanTest ended lines count := by
  obtain ⟨isRunning, place, inputBuf, stdin, passed⟩ := state
  have tests {after : EmCmdLoop} (runs : after.isRunning = true)
      (testing : after.place = .testing)
      (hasRead : after.HasRead ended lines count) :
      after.CanTest ended lines count :=
    ⟨[], after, .nil, by simp, runs, testing, hasRead⟩
  cases place with
  | starting =>
      exact .of_step .start trivial .start nofun
        (tests rfl rfl (hasRead.step areLines .start))
  | testing => exact tests (running.resolve_left nofun) rfl hasRead
  | reading =>
      exact .of_step .timeout trivial (.timeout rfl) nofun
        (tests (running.resolve_left nofun) rfl
          (hasRead.step areLines (.timeout rfl)))
  | passing string =>
      have passed := hasRead.step areLines .pass
      exact .of_step .pass trivial .pass nofun
        (.of_step .executed trivial .executed nofun
          (tests (running.resolve_left nofun) rfl
            (passed.step areLines .executed)))
  | executing =>
      exact .of_step .executed trivial .executed nofun
        (tests (running.resolve_left nofun) rfl
          (hasRead.step areLines .executed))
  | returned => exact absurd rfl notReturned

/-- From its test the loop passes on the next line. -/
theorem HasRead.canTest_next {state : EmCmdLoop}
    (areLines : AreLines ended emCmdBufLength lines)
    (hasRead : state.HasRead ended lines count)
    (runs : state.isRunning = true) (tests : state.place = .testing)
    (inside : count < lines.length) (noZero : ∀ line ∈ lines, 0 ∉ line) :
    state.CanTest ended lines (count + 1) := by
  obtain ⟨isRunning, place, inputBuf, stdin, passed⟩ := state
  obtain rfl : isRunning = true := runs
  obtain rfl : place = .testing := tests
  have tested := hasRead.step areLines .test
  have careful : Careful ⟨true, .reading, inputBuf, stdin, passed⟩ .read := by
    obtain rfl : stdin = streamOf ended (lines.drop count) := hasRead.stdin
    have member := List.getElem_mem inside
    have nextLines := areLines.drop count
    rw [List.drop_eq_getElem_cons inside] at nextLines ⊢
    refine ⟨rfl, streamOf_ne_nil nextLines, ?_⟩
    dsimp only
    rw [takeWhile_streamOf (areLines.noNewline _ member)]
    exact noZero _ member
  have read := tested.step areLines (.read rfl)
  exact .of_step .test trivial .test nofun
    (.of_step .read careful (.read rfl) nofun
      (read.canTest areLines (.inr rfl) nofun))

/-- From its test the loop can go on to pass all lines on. -/
theorem HasRead.exists_all {state : EmCmdLoop}
    (areLines : AreLines ended emCmdBufLength lines)
    (hasRead : state.HasRead ended lines count)
    (few : count ≤ lines.length) (noZero : ∀ line ∈ lines, 0 ∉ line)
    (runs : state.isRunning = true) (tests : state.place = .testing) :
    ∃ labels after, Run (Guarded Careful Step) state labels after ∧
      .stop ∉ labels ∧ after.passed = lines := by
  induction left : lines.length - count generalizing count state with
  | zero =>
      obtain ⟨-, -, again, isCount, -, isPassed⟩ := hasRead
      obtain rfl : again = [] := List.length_eq_zero_iff.mp (by omega)
      rw [tests, List.take_of_length_le (by omega),
        map_upToZero_eq_self_iff.mpr noZero] at isPassed
      exact ⟨[], state, .nil, by simp, by
        simpa [EmCmdPlace.pending] using isPassed⟩
  | succ left induction =>
      obtain ⟨labels, next, run, noStop, runs, tests, hasRead⟩ :=
        hasRead.canTest_next areLines runs tests (by omega) noZero
      obtain ⟨more, after, later, stillNoStop, isAll⟩ :=
        induction hasRead (by omega) runs tests (by omega)
      exact ⟨labels ++ more, after, run.append later,
        by simp [noStop, stillNoStop], isAll⟩

section Run

variable {isRunning : Bool} {inputBuf : Bytes} {labels : List EmCmdAction}
  {state : EmCmdLoop}

theorem hasRead_of_run
    (areLines : AreLines ended emCmdBufLength lines)
    (run : Run Step (start isRunning inputBuf ended lines) labels state) :
    state.HasRead ended lines (EmCmdAction.reads labels) := by
  apply run.history_invariant
    (fun labels => HasRead ended lines (EmCmdAction.reads labels))
  · refine ⟨rfl, ?_, [], ?_, ?_, rfl⟩
    · intro line none
      cases none
    · exact (Nat.zero_sub lines.length).symm
    · intro line _ string none
      cases none
  · intro labels before action after hasRead taken
    have following := hasRead.step areLines taken
    rwa [EmCmdAction.reads, EmCmdAction.reads, ← List.count_append]
      at following

/-- Behind the last line, the loop passes the last line on again and again. -/
theorem passed_of_run
    (areLines : AreLines ended emCmdBufLength lines)
    {last : List UInt8} (isLast : last ∈ lines.getLast?)
    (run : Run Step (start isRunning inputBuf ended lines) labels state) :
    state.passed ++ state.place.pending =
      (lines.take (EmCmdAction.reads labels)).map upToZero ++
        List.replicate (EmCmdAction.reads labels - lines.length)
          (upToZero last) := by
  obtain ⟨-, -, again, isCount, same, isPassed⟩ :=
    hasRead_of_run areLines run
  rw [isPassed, ← isCount,
    ← List.eq_replicate_of_mem (same last isLast)]

/-- What a careful run has read is the first lines of the input. -/
theorem read_of_careful
    (areLines : AreLines ended emCmdBufLength lines)
    (run : Run (Guarded Careful Step)
      (start isRunning inputBuf ended lines) labels state) :
    state.HasRead ended lines (EmCmdAction.reads labels) ∧
      EmCmdAction.reads labels ≤ lines.length ∧
      ∀ line ∈ lines.take (EmCmdAction.reads labels), 0 ∉ line := by
  apply run.history_invariant (fun labels state =>
    state.HasRead ended lines (EmCmdAction.reads labels) ∧
      EmCmdAction.reads labels ≤ lines.length ∧
      ∀ line ∈ lines.take (EmCmdAction.reads labels), 0 ∉ line)
  · exact ⟨hasRead_of_run areLines .nil, Nat.zero_le _, by
      simp [EmCmdAction.reads]⟩
  · rintro labels before action after ⟨hasRead, few, noZero⟩ taken
    have following := hasRead.step areLines taken.2
    have still := hasRead.careful areLines few noZero taken.1
    rw [EmCmdAction.reads, EmCmdAction.reads, ← List.count_append]
      at following still
    exact ⟨following, still⟩

theorem watched_of_careful
    (run : Run (Guarded Careful Step)
      (start isRunning inputBuf ended lines) labels state) :
    Watched labels state := by
  apply run.history_invariant Watched
  · exact ⟨fun _ => by simp, fun notStarting => absurd rfl notStarting,
      nofun, nofun, .nil⟩
  · exact fun _ _ _ _ watched taken => watched.step taken

/-- In every careful run the lines are passed on, each once, in order, and
nothing behind the last one and nothing after `em_cmd_stop`.  The loop ends only
when it has been stopped; until then it can go on to pass all lines on. -/
theorem cmd_lines_passed
    (areLines : AreLines ended emCmdBufLength lines)
    (run : Run (Guarded Careful Step)
      (start isRunning inputBuf ended lines) labels state) :
    state.passed <+: lines ∧
      labels.Pairwise (fun earlier later => earlier = .stop → later ≠ .pass) ∧
      (state.place = .returned → .stop ∈ labels) ∧
      (.stop ∉ labels → (∀ line ∈ lines, 0 ∉ line) →
        ∃ more after, Run (Guarded Careful Step) state more after ∧
          .stop ∉ more ∧ after.passed = lines) := by
  obtain ⟨hasRead, few, noZero⟩ := read_of_careful areLines run
  have watched := watched_of_careful run
  have ends : state.place = .returned → .stop ∈ labels := by
    intro returned
    have stopped := watched.running (by simp [returned])
    rw [watched.returned returned] at stopped
    simpa using stopped
  refine ⟨?_, watched.notLate, ends, ?_⟩
  · obtain ⟨-, -, again, isCount, -, isPassed⟩ := hasRead
    obtain rfl : again = [] := List.length_eq_zero_iff.mp (by omega)
    rw [map_upToZero_eq_self_iff.mpr noZero, List.append_nil] at isPassed
    exact (List.prefix_append _ _).trans
      (isPassed ▸ List.take_prefix _ lines)
  · intro noStop allClean
    have running : state.place = .starting ∨ state.isRunning = true := by
      by_cases starting : state.place = .starting
      · exact .inl starting
      · exact .inr ((watched.running starting).mpr noStop)
    obtain ⟨labels, tested, run, noStop, runs, tests, hasRead⟩ :=
      hasRead.canTest areLines running
        (fun returned => noStop (ends returned))
    obtain ⟨more, after, later, stillNoStop, isAll⟩ :=
      hasRead.exists_all areLines few allClean runs tests
    exact ⟨labels ++ more, after, run.append later,
      by simp [noStop, stillNoStop], isAll⟩

end Run

/-- Two lines, with a time-out between; the second command stops the loop. -/
theorem cmd_lines_passed_two : ∃ state,
    Run (Guarded Careful Step)
      (start false (fun _ => 0) false [[65], [66]])
      [.start, .test, .read, .pass, .executed, .test, .timeout, .test, .read,
        .pass, .stop, .executed, .test] state ∧
    state.place = .returned ∧ state.passed <+: [[65], [66]] := by
  have areLines : AreLines false emCmdBufLength [[65], [66]] :=
    ⟨by decide, by decide, by decide⟩
  have run : ∃ state, Run (Guarded Careful Step)
      (start false (fun _ => 0) false [[65], [66]])
      [.start, .test, .read, .pass, .executed, .test, .timeout, .test, .read,
        .pass, .stop, .executed, .test] state ∧ state.place = .returned := by
    refine ⟨_, .cons ⟨trivial, .start⟩ <| .cons ⟨trivial, .test⟩ <|
      .cons ⟨⟨rfl, by decide +kernel, by decide +kernel⟩, .read rfl⟩ <|
      .cons ⟨trivial, .pass⟩ <|
      .cons ⟨trivial, .executed⟩ <| .cons ⟨trivial, .test⟩ <|
      .cons ⟨trivial, .timeout rfl⟩ <| .cons ⟨trivial, .test⟩ <|
      .cons ⟨⟨rfl, by decide +kernel, by decide +kernel⟩, .read rfl⟩ <|
      .cons ⟨trivial, .pass⟩ <|
      .cons ⟨⟨nofun, nofun⟩, .stop⟩ <| .cons ⟨trivial, .executed⟩ <|
      .cons ⟨trivial, .test⟩ .nil, rfl⟩
  obtain ⟨state, run, returned⟩ := run
  exact ⟨state, run, returned, (cmd_lines_passed areLines run).1⟩

/-- The input is one line, and nobody calls `em_cmd_stop`: the loop executes the
line again when the input is at its end. -/
theorem cmd_line_passed_again :
    AreLines true emCmdBufLength [[65]] ∧
    ∃ state, Run Step (start false (fun _ => 0) true [[65]])
        [.start, .test, .read, .pass, .executed, .test, .read, .pass] state ∧
      state.isRunning = true ∧ state.passed = [[65], [65]] ∧
      ¬ state.passed <+: [[65]] := by
  have areLines : AreLines true emCmdBufLength [[65]] :=
    ⟨by decide, by decide, by decide⟩
  have run : ∃ state, Run Step (start false (fun _ => 0) true [[65]])
      [.start, .test, .read, .pass, .executed, .test, .read, .pass] state ∧
        state.isRunning = true ∧ state.place = .executing :=
    ⟨_, .cons .start <| .cons .test <| .cons (.read rfl) <| .cons .pass <|
      .cons .executed <| .cons .test <| .cons (.read rfl) <|
      .cons .pass .nil, rfl, rfl⟩
  obtain ⟨state, run, running, executing⟩ := run
  have isPassed : state.passed = [[65], [65]] := by
    have passed := passed_of_run areLines rfl run
    rw [executing] at passed
    exact (List.append_nil _).symm.trans passed
  refine ⟨areLines, state, run, running, isPassed, ?_⟩
  rw [isPassed]
  decide

end EmCmdLoop

end EmbeddedMiddle
