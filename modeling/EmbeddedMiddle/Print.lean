import EmbeddedMiddle.Foundation.ChainedPrint
import EmbeddedMiddle.Foundation.Printf
import Mathlib.Data.Nat.Digits.Defs

/-!
# The log formatter

`em_print.c`.  A line of the log is put together in a buffer of `maxlength`
bytes on the stack: the time, the level, the place in the source, the message.
Only the last of these looks at the room that is left.
-/

namespace EmbeddedMiddle

open Foundation

/-! ## Settings -/

/-- `outstream` is a stream that the caller opened, `none` for NULL. -/
structure EmPrintsetting where
  maxlength : ℤ
  loglevel : ℤ
  isTimeprint : ℤ
  isErrorlevelprint : ℤ
  isFuncprint : ℤ
  isStdout : ℤ
  outstream : Option ℕ
  deriving DecidableEq, Inhabited, Repr

def emLogDefault : ℤ := 3

def emLogError : ℤ := 5

/-- The value that the static variable starts with. -/
def defaultsetting : EmPrintsetting := ⟨512, emLogDefault, 0, 1, 1, 1, none⟩

def emPrintSetLoglevel (setting : EmPrintsetting) (newlevel : ℤ) :
    EmPrintsetting :=
  { setting with loglevel := newlevel }

def emPrintIsTimeprint (setting : EmPrintsetting) (isTimeprint : ℤ) :
    EmPrintsetting :=
  { setting with isTimeprint }

def emPrintSetOutstream (setting : EmPrintsetting) (outstream : Option ℕ) :
    EmPrintsetting :=
  { setting with outstream }

/-- The table has an entry for each level from 0 to 6. -/
def sLoglevelChar (type : ℤ) : UInt8 :=
  (ascii " TDIWE-").getD type.toNat 0

/-! ## One line -/

/-- What `localtime` and `gettimeofday` return. -/
structure LocalTime where
  tmYear : ℤ
  tmMon : Fin 12
  tmMday : Fin 32
  tmHour : Fin 24
  tmMin : Fin 60
  tmSec : Fin 61
  tvUsec : Fin 1000000
  deriving DecidableEq, Repr

/-- The arguments of `_em_printf` behind the setting, with the time of the call
and the text that the format and its arguments make. -/
structure LogCall where
  now : LocalTime
  file : List UInt8
  function : List UInt8
  line : ℤ
  type : ℤ
  message : List UInt8

/-- `[%d/%02d/%02d %02d:%02d:%02d.%03ld] `. -/
def timeText (now : LocalTime) : List UInt8 :=
  ascii "[" ++ intText (toInt32 (now.tmYear + 1900)) ++
    ascii "/" ++ paddedDecimal 2 (now.tmMon.val + 1) ++
    ascii "/" ++ paddedDecimal 2 now.tmMday ++
    ascii " " ++ paddedDecimal 2 now.tmHour ++
    ascii ":" ++ paddedDecimal 2 now.tmMin ++
    ascii ":" ++ paddedDecimal 2 now.tmSec ++
    ascii "." ++ paddedDecimal 3 (now.tvUsec.val / 1000) ++ ascii "] "

/-- `[%c] `. -/
def levelText (type : ℤ) : List UInt8 :=
  ascii "[" ++ [sLoglevelChar type] ++ ascii "] "

/-- The loop with `strstr`: `filename` moves behind each slash. -/
def filenameFrom (filename : List UInt8) : List UInt8 → List UInt8
  | [] => filename
  | byte :: rest =>
      if byte = 47 then filenameFrom rest rest else filenameFrom filename rest

/-- `[%s:%d %s] `. -/
def funcText (call : LogCall) : List UInt8 :=
  ascii "[" ++ filenameFrom call.file call.file ++ ascii ":" ++
    intText call.line ++ ascii " " ++ call.function ++ ascii "] "

/-- `buf` and `total_length` behind the time. -/
def emPrintfTime (psetting : EmPrintsetting) (call : LogCall) : PrintBuf :=
  PrintBuf.start.printIf (psetting.isTimeprint ≠ 0) psetting.maxlength
    (timeText call.now)

def emPrintfLevel (psetting : EmPrintsetting) (call : LogCall) : PrintBuf :=
  (emPrintfTime psetting call).printIf (psetting.isErrorlevelprint ≠ 0)
    psetting.maxlength (levelText call.type)

def emPrintfFunc (psetting : EmPrintsetting) (call : LogCall) : PrintBuf :=
  (emPrintfLevel psetting call).printIf (psetting.isFuncprint ≠ 0)
    psetting.maxlength (funcText call)

/-- The message is printed only where there is room for it. -/
def emPrintfMessage (psetting : EmPrintsetting) (call : LogCall) : PrintBuf :=
  let buf := emPrintfFunc psetting call
  buf.printIf (0 < toInt32 (psetting.maxlength - buf.offset))
    psetting.maxlength call.message

inductive LogStream where
  | stdout
  | outstream (stream : ℕ)
  deriving DecidableEq, Repr

/-- The return value, what is written to which stream, and the buffer. -/
structure Printed where
  ret : ℤ
  output : List (LogStream × List UInt8)
  buf : PrintBuf

/-- `_em_printf`.  `stack` is what lies in `buf` before. -/
def emPrintf (defaults : EmPrintsetting) (setting : Option EmPrintsetting)
    (stack : ℤ → UInt8) (call : LogCall) : Printed :=
  let psetting := setting.getD defaults
  if call.type < psetting.loglevel then ⟨0, [], .start⟩
  else
    let buf := emPrintfMessage psetting call
    let text := (buf.written.overlay stack 0).cString psetting.maxlength.toNat
    { ret := text.length
      output :=
        (if psetting.isStdout = 1 then [(.stdout, text)] else []) ++
          (match psetting.outstream with
          | none => []
          | some stream => [(.outstream stream, text)])
      buf }

/-! ## Lengths -/

theorem decimal_length_le {n width : ℕ} (positive : 0 < width)
    (bound : n < 10 ^ width) : (decimal n).length ≤ width := by
  unfold decimal
  rw [List.length_map]
  exact Nat.toDigits_length 10 n width positive bound

theorem intText_length_le {n : ℤ} (lower : -2147483648 ≤ n)
    (upper : n ≤ 2147483647) : (intText n).length ≤ 11 := by
  have digits : (decimal n.natAbs).length ≤ 10 :=
    decimal_length_le (by decide) (by omega)
  unfold intText signed
  split
  · rw [List.length_cons]
    omega
  · omega

/-- The characters of the year. -/
def yearLength (now : LocalTime) : ℕ :=
  (intText (toInt32 (now.tmYear + 1900))).length

theorem yearLength_le (now : LocalTime) : yearLength now ≤ 11 := by
  obtain ⟨lower, upper⟩ := toInt32_range (now.tmYear + 1900)
  exact intText_length_le lower upper

theorem timeText_length (now : LocalTime) :
    (timeText now).length = 22 + yearLength now := by
  have bracket : (ascii "[").length = 1 := rfl
  have slash : (ascii "/").length = 1 := rfl
  have blank : (ascii " ").length = 1 := rfl
  have colon : (ascii ":").length = 1 := rfl
  have point : (ascii ".").length = 1 := rfl
  have ending : (ascii "] ").length = 2 := rfl
  unfold timeText
  simp only [List.length_append, length_paddedDecimal, bracket, slash, blank,
    colon, point, ending]
  unfold yearLength
  omega

theorem levelText_length (type : ℤ) : (levelText type).length = 4 := rfl

/-- The characters of the place in the source. -/
def placeLength (call : LogCall) : ℕ :=
  (filenameFrom call.file call.file).length + (intText call.line).length +
    call.function.length + 5

theorem funcText_length (call : LogCall) :
    (funcText call).length = placeLength call := by
  have bracket : (ascii "[").length = 1 := rfl
  have blank : (ascii " ").length = 1 := rfl
  have colon : (ascii ":").length = 1 := rfl
  have ending : (ascii "] ").length = 2 := rfl
  unfold funcText placeLength
  simp only [List.length_append, bracket, blank, colon, ending]
  omega

/-- The characters of the time, if it is printed. -/
def timeLength (psetting : EmPrintsetting) (call : LogCall) : ℕ :=
  if psetting.isTimeprint ≠ 0 then 22 + yearLength call.now else 0

/-- The characters of the time and the level. -/
def headLength (psetting : EmPrintsetting) (call : LogCall) : ℕ :=
  timeLength psetting call + if psetting.isErrorlevelprint ≠ 0 then 4 else 0

theorem headLength_le (psetting : EmPrintsetting) (call : LogCall) :
    timeLength psetting call ≤ 33 ∧ headLength psetting call ≤ 37 := by
  have year := yearLength_le call.now
  unfold headLength timeLength
  constructor
  · split
    · omega
    · omega
  · split
    · split
      · omega
      · omega
    · split
      · omega
      · omega

/-! ## Where the calls start -/

variable {psetting : EmPrintsetting} {call : LogCall}

theorem emPrintfTime_offset :
    (emPrintfTime psetting call).offset = timeLength psetting call := by
  have year := yearLength_le call.now
  have short : 0 + (timeText call.now).length ≤ intMax := by
    rw [timeText_length]
    unfold intMax
    omega
  unfold emPrintfTime timeLength
  rw [PrintBuf.printIf_offset rfl short, timeText_length, Nat.zero_add]

theorem emPrintfLevel_offset :
    (emPrintfLevel psetting call).offset = headLength psetting call := by
  have head := (headLength_le psetting call).1
  have short : timeLength psetting call + (levelText call.type).length ≤
      intMax := by
    rw [levelText_length]
    unfold intMax
    omega
  unfold emPrintfLevel headLength
  rw [PrintBuf.printIf_offset emPrintfTime_offset short, levelText_length]

/-- The buffer holds what is in front of each piece; a place that comes first
has a length that can be reported. -/
structure HasRoom (psetting : EmPrintsetting) (call : LogCall) : Prop where
  level : psetting.isErrorlevelprint ≠ 0 →
    timeLength psetting call ≤ psetting.maxlength
  place : psetting.isFuncprint ≠ 0 →
    headLength psetting call ≤ psetting.maxlength
  alone : psetting.isFuncprint ≠ 0 → headLength psetting call = 0 →
    placeLength call ≤ intMax ∨ psetting.maxlength = intMax

/-- The test in front of the message is enough, where the place was printed
inside the buffer. -/
theorem message_inside_iff (positive : 1 ≤ psetting.maxlength)
    (isInt : psetting.maxlength ≤ intMax)
    (place : psetting.isFuncprint ≠ 0 →
      headLength psetting call ≤ psetting.maxlength) :
    (0 < toInt32
        (psetting.maxlength - (emPrintfFunc psetting call).offset) →
      0 ≤ (emPrintfFunc psetting call).offset ∧
        (emPrintfFunc psetting call).offset ≤ psetting.maxlength) ↔
      (psetting.isFuncprint ≠ 0 → headLength psetting call = 0 →
        placeLength call ≤ intMax ∨ psetting.maxlength = intMax) := by
  have offset := @emPrintfLevel_offset psetting call
  unfold emPrintfFunc PrintBuf.printIf
  split_ifs with printed
  · rw [PrintBuf.print_offset, offset, ← funcText_length]
    rw [PrintBuf.room_tested_iff positive isInt (place printed)]
    exact ⟨fun tested _ => tested, fun tested => tested printed⟩
  · rw [offset]
    have head := (headLength_le psetting call).2
    have inside : 0 < toInt32
        (psetting.maxlength - headLength psetting call) →
          (0 : ℤ) ≤ headLength psetting call ∧
            headLength psetting call ≤ psetting.maxlength := by
      unfold intMax at isInt
      unfold toInt32
      omega
    exact iff_of_true inside fun wanted => absurd wanted printed

theorem emPrintfMessage_contained_iff (positive : 1 ≤ psetting.maxlength)
    (isInt : psetting.maxlength ≤ intMax) :
    (emPrintfMessage psetting call).Contained psetting.maxlength ↔
      HasRoom psetting call := by
  have timeOffset := @emPrintfTime_offset psetting call
  have levelOffset := @emPrintfLevel_offset psetting call
  have timeContained :
      (emPrintfTime psetting call).Contained psetting.maxlength := by
    apply (PrintBuf.printIf_contained_iff isInt).mpr
    refine ⟨PrintBuf.start_contained, fun _ => ⟨le_rfl, ?_⟩⟩
    exact Int.le_of_lt positive
  have levelContained := @PrintBuf.printIf_contained_iff
    (emPrintfTime psetting call) psetting.maxlength (levelText call.type)
    (psetting.isErrorlevelprint ≠ 0) _ isInt
  have funcContained := @PrintBuf.printIf_contained_iff
    (emPrintfLevel psetting call) psetting.maxlength (funcText call)
    (psetting.isFuncprint ≠ 0) _ isInt
  rw [timeOffset] at levelContained
  rw [levelOffset] at funcContained
  unfold emPrintfMessage
  dsimp only
  rw [PrintBuf.printIf_contained_iff isInt]
  constructor
  · rintro ⟨contained, message⟩
    obtain ⟨levelKept, place⟩ := funcContained.mp contained
    obtain ⟨-, level⟩ := levelContained.mp levelKept
    have placed := fun wanted => (place wanted).2
    exact ⟨fun wanted => (level wanted).2, placed,
      (message_inside_iff positive isInt placed).mp message⟩
  · rintro ⟨level, place, alone⟩
    have levelKept := levelContained.mpr ⟨timeContained,
      fun wanted => ⟨Int.natCast_nonneg _, level wanted⟩⟩
    have funcKept := funcContained.mpr ⟨levelKept,
      fun wanted => ⟨Int.natCast_nonneg _, place wanted⟩⟩
    exact ⟨funcKept, (message_inside_iff positive isInt place).mpr alone⟩

theorem emPrintfMessage_terminated (positive : 1 ≤ psetting.maxlength)
    (isInt : psetting.maxlength ≤ intMax) (room : HasRoom psetting call) :
    (emPrintfMessage psetting call).Terminated psetting.maxlength := by
  have timeOffset := @emPrintfTime_offset psetting call
  have levelOffset := @emPrintfLevel_offset psetting call
  have timeReady : (emPrintfTime psetting call).Ready psetting.maxlength := by
    apply PrintBuf.printIf_ready isInt positive _ (.inr rfl)
    intro _
    exact ⟨le_rfl, Int.le_of_lt positive⟩
  have levelReady : (emPrintfLevel psetting call).Ready psetting.maxlength := by
    apply PrintBuf.printIf_ready isInt positive _ timeReady
    intro wanted
    rw [timeOffset]
    exact ⟨Int.natCast_nonneg _, room.level wanted⟩
  have funcReady : (emPrintfFunc psetting call).Ready psetting.maxlength := by
    apply PrintBuf.printIf_ready isInt positive _ levelReady
    intro wanted
    rw [levelOffset]
    exact ⟨Int.natCast_nonneg _, room.place wanted⟩
  have message := (message_inside_iff positive isInt room.place).mpr room.alone
  unfold emPrintfMessage PrintBuf.printIf
  dsimp only
  split_ifs with tested
  · obtain ⟨started, within⟩ := message tested
    apply PrintBuf.print_terminated isInt started within
    rcases funcReady with terminated | isStart
    · exact .inl terminated
    · right
      omega
  · rcases funcReady with terminated | isStart
    · exact terminated
    · rw [isStart, Int.sub_zero] at tested
      unfold intMax at isInt
      rw [toInt32_of_range (by omega) isInt] at tested
      exact absurd positive tested

/-! ## The result -/

/-- No byte outside the buffer is written, every call is told what is left of
the buffer, and what is put out ends in the buffer. -/
structure Printed.Kept (printed : Printed) (psetting : EmPrintsetting)
    (call : LogCall) : Prop where
  contained : printed.buf.Contained psetting.maxlength
  terminated : psetting.loglevel ≤ call.type →
    printed.buf.Terminated psetting.maxlength

/-- A line below the level is not put together at all. -/
theorem emPrintf_silent {defaults : EmPrintsetting}
    {setting : Option EmPrintsetting} {stack : ℤ → UInt8}
    (silent : call.type < (setting.getD defaults).loglevel) :
    (emPrintf defaults setting stack call).Kept (setting.getD defaults)
      call := by
  unfold emPrintf
  dsimp only
  rw [if_pos silent]
  refine ⟨PrintBuf.start_contained, ?_⟩
  intro loud
  exact absurd silent (Int.not_lt.mpr loud)

theorem emPrintf_buf {defaults : EmPrintsetting}
    {setting : Option EmPrintsetting} {stack : ℤ → UInt8}
    (loud : ¬ call.type < (setting.getD defaults).loglevel) :
    (emPrintf defaults setting stack call).buf =
      emPrintfMessage (setting.getD defaults) call := by
  unfold emPrintf
  dsimp only
  rw [if_neg loud]

theorem emPrintf_kept {defaults : EmPrintsetting}
    {setting : Option EmPrintsetting} {stack : ℤ → UInt8}
    (positive : 1 ≤ (setting.getD defaults).maxlength)
    (isInt : (setting.getD defaults).maxlength ≤ intMax)
    (room : HasRoom (setting.getD defaults) call) :
    (emPrintf defaults setting stack call).Kept (setting.getD defaults)
      call := by
  by_cases silent : call.type < (setting.getD defaults).loglevel
  · exact emPrintf_silent silent
  · constructor
    · rw [emPrintf_buf silent]
      exact (emPrintfMessage_contained_iff positive isInt).mpr room
    · intro _
      rw [emPrintf_buf silent]
      exact emPrintfMessage_terminated positive isInt room

/-- A line stays in its buffer exactly if the time and the level do, as far as
another piece comes behind them. -/
theorem log_line_kept_iff (defaults : EmPrintsetting)
    (setting : Option EmPrintsetting) (stack : ℤ → UInt8) (call : LogCall)
    (positive : 1 ≤ (setting.getD defaults).maxlength)
    (isInt : (setting.getD defaults).maxlength ≤ intMax) :
    (emPrintf defaults setting stack call).Kept (setting.getD defaults) call ↔
      call.type < (setting.getD defaults).loglevel ∨
        HasRoom (setting.getD defaults) call := by
  constructor
  · intro kept
    by_cases silent : call.type < (setting.getD defaults).loglevel
    · exact .inl silent
    · right
      apply (emPrintfMessage_contained_iff positive isInt).mp
      rw [← emPrintf_buf silent]
      exact kept.contained
  · rintro (silent | room)
    · exact emPrintf_silent silent
    · exact emPrintf_kept positive isInt room

/-- A setting for a buffer of 64 bytes with everything in front of the
message. -/
theorem log_line_kept_64 :
    (emPrintf defaultsetting (some ⟨64, 3, 1, 1, 1, 1, none⟩) (fun _ => 0)
      ⟨⟨124, 0, 1, 12, 30, 0, 0⟩, ascii "src/em_queue.c", ascii "em_queue_init",
        73, 5, ascii "Error: no memory"⟩).Kept ⟨64, 3, 1, 1, 1, 1, none⟩
      ⟨⟨124, 0, 1, 12, 30, 0, 0⟩, ascii "src/em_queue.c", ascii "em_queue_init",
        73, 5, ascii "Error: no memory"⟩ :=
  (log_line_kept_iff defaultsetting (some ⟨64, 3, 1, 1, 1, 1, none⟩)
    (fun _ => 0) _ (by decide) (by decide)).mpr
      (.inr ⟨by decide +kernel, by decide +kernel, by decide +kernel⟩)

/-- In a buffer of 16 bytes the level is printed from byte 26 on, with a size
of 2^64 - 10. -/
theorem log_line_leaves_buffer :
    let psetting : EmPrintsetting := ⟨16, 3, 1, 1, 0, 1, none⟩
    let call : LogCall := ⟨⟨124, 0, 1, 12, 30, 0, 0⟩, ascii "em_queue.c",
      ascii "em_queue_init", 73, 5, ascii "Error: no memory"⟩
    let printed := emPrintf defaultsetting (some psetting) (fun _ => 0) call
    printed.buf.calls = [⟨0, 16⟩, ⟨26, 18446744073709551606⟩] ∧
      printed.buf.written 26 = some 91 ∧ ¬printed.Kept psetting call := by
  refine ⟨by decide +kernel, by decide +kernel, ?_⟩
  intro kept
  have outside := kept.contained.inside 26 (by decide)
  revert outside
  decide +kernel

/-! ## The lines of the library -/

/-- The calls that change the static setting. -/
inductive PrintSetter where
  | loglevel (newlevel : ℤ)
  | timeprint (isTimeprint : ℤ)
  | outstream (stream : Option ℕ)
  deriving DecidableEq, Repr

def PrintSetter.apply (setting : EmPrintsetting) :
    PrintSetter → EmPrintsetting
  | .loglevel newlevel => emPrintSetLoglevel setting newlevel
  | .timeprint isTimeprint => emPrintIsTimeprint setting isTimeprint
  | .outstream stream => emPrintSetOutstream setting stream

theorem setters_maxlength (setting : EmPrintsetting)
    (setters : List PrintSetter) :
    (setters.foldl PrintSetter.apply setting).maxlength =
      setting.maxlength := by
  induction setters generalizing setting with
  | nil => rfl
  | cons setter setters induction =>
      rw [List.foldl_cons, induction]
      cases setter with
      | loglevel newlevel => rfl
      | timeprint isTimeprint => rfl
      | outstream stream => rfl

/-- Time and level take 37 bytes at most. -/
theorem hasRoom_of_large (large : 37 ≤ psetting.maxlength)
    (named : placeLength call ≤ intMax) : HasRoom psetting call := by
  obtain ⟨time, head⟩ := headLength_le psetting call
  refine ⟨?_, ?_, ?_⟩
  · intro _
    omega
  · intro _
    omega
  · intro _ _
    exact .inl named

/-- No setter changes the length, so each line that the library logs without a
setting of its own stays in the buffer. -/
theorem default_line_kept (setters : List PrintSetter) (stack : ℤ → UInt8)
    (named : placeLength call ≤ intMax) :
    (emPrintf (setters.foldl PrintSetter.apply defaultsetting) none stack
        call).Kept (setters.foldl PrintSetter.apply defaultsetting) call := by
  have length := setters_maxlength defaultsetting setters
  have isDefault : defaultsetting.maxlength = 512 := rfl
  apply emPrintf_kept
  · rw [Option.getD_none]
    omega
  · rw [Option.getD_none, length, isDefault]
    decide
  · apply hasRoom_of_large _ named
    rw [Option.getD_none]
    omega

end EmbeddedMiddle
