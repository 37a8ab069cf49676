import EmbeddedMiddle.Command
import EmbeddedMiddle.Foundation.WordScan
import EmbeddedMiddle.GdatamngRefinement
import EmbeddedMiddle.QueueCalls

/-!
# Commands in the foreground and in the background

A command line is split into words and run, or, behind the word `async`, put
into a queue as it is.  The background thread takes it out, splits it once more
and leaves out the first word.  Both split ten words off, so that a command in
the background gets one word less.
-/

namespace EmbeddedMiddle

open Foundation

/-- `EM_CMD_ASYNC_CMDNAME`, which is "async". -/
def emCmdAsyncCmdname : List UInt8 := [97, 115, 121, 110, 99]

theorem isBlank_emCmdAsyncCmdname :
    ∀ byte ∈ emCmdAsyncCmdname, isBlank byte = false := by
  simp [emCmdAsyncCmdname, isBlank]

/-! ## Words -/

/-- The words of a line, of which `sscanf` stores the first. -/
def cmdWords (line : List UInt8) : List (List UInt8) :=
  wordsOf emCmdWordLengthMax line

/-- The words are stored with a zero behind each. -/
def storeWords (dst : ℕ → Bytes) (words : List (List UInt8)) : ℕ → Bytes :=
  fun i =>
    match words[i]? with
    | some word => (dst i).startingWith (word ++ [0])
    | none => dst i

/-- `_em_read_line` of the string in `src`, or of NULL: the return value, and
what `dst` and `word_num` are afterwards. -/
def emReadLine (src : Option (List UInt8)) (dst : ℕ → Bytes) (wordNum : ℤ) :
    ℤ × (ℕ → Bytes) × ℤ :=
  match src with
  | none => (-1, dst, wordNum)
  | some src =>
      let words := scanWords emCmdWordLengthMax emCmdWordNumMax src
      let retScan : ℤ := words.length
      if retScan ≤ 0 then (-1, dst, wordNum)
      else (0, storeWords dst words, retScan)

/-- The return value, the manager, and the call that is made.  `wordBuf` is
what the words on the stack hold before. -/
def emCmdExecString (cm : EmCmdmng) (cmdStr : CText) (wordBuf : ℕ → Bytes)
    (command : CmdCall → ℤ) : ℤ × EmCmdmng × Option CmdCall :=
  match emReadLine (some cmdStr.text) wordBuf 0 with
  | (ret, wordPtr, wordNum) =>
      if ret = 0 then
        if 1 < wordNum ∧ Bytes.strncmp emCmdWordLengthMax (wordPtr 0)
            (.ofList emCmdAsyncCmdname) = 0 then
          match emEnqueue cm.quCmd cmdStr.memory emNoWait with
          | some (_, quCmd) => (-1, { cm with quCmd }, none)
          -- With EM_NO_WAIT the call always returns.
          | none => (-1, cm, none)
        else
          let (ret, call) := emCmdExecArgs cm wordNum wordPtr command
          (ret, cm, call)
      else (-1, cm, none)

/-- One round of the loop of `em_cmd_start_bg`: the manager, `input_buf`,
`cmdstr` and the call that is made.  Of a block that does not end with a zero
no byte behind the buffer is read here. -/
def emCmdStartBgRound (cm : EmCmdmng) (inputBuf : Bytes) (cmdstr : ℕ → Bytes)
    (command : CmdCall → ℤ) :
    EmCmdmng × Bytes × (ℕ → Bytes) × Option CmdCall :=
  match emDequeue cm.quCmd 100 with
  | some (.ok data, quCmd) =>
      let cm := { cm with quCmd }
      let inputBuf := inputBuf.startingWith data
      match emReadLine (some (inputBuf.cString emCmdBufLength)) cmdstr 0 with
      | (ret, cmdstr, posWord) =>
          if ret = 0 then
            (cm, inputBuf, cmdstr, (emCmdExecArgs cm (posWord - 1)
              (fun i => cmdstr (i + 1)) command).2)
          else (cm, inputBuf, cmdstr, none)
  | some (.error _, quCmd) => ({ cm with quCmd }, inputBuf, cmdstr, none)
  -- With a timeout the call always returns.
  | none => (cm, inputBuf, cmdstr, none)

/-! ## What is run for which words -/

/-- The pointers of `argv` point to the words. -/
def HoldsWords (argv : ℕ → Bytes) (words : List (List UInt8)) : Prop :=
  ∀ i word, words[i]? = some word → (argv i).HoldsText word

/-- Words as they are stored: short enough, and without a zero. -/
def AreWords (words : List (List UInt8)) : Prop :=
  ∀ word ∈ words, word.length ≤ emCmdWordLengthMax ∧ 0 ∉ word

theorem storeWords_holds (dst : ℕ → Bytes) (words : List (List UInt8)) :
    HoldsWords (storeWords dst words) words := by
  intro i word isWord
  simp only [storeWords, isWord]
  exact Bytes.startingWith_holdsText (dst i) word

theorem HoldsWords.tail {argv : ℕ → Bytes} {word : List UInt8}
    {words : List (List UInt8)} (holds : HoldsWords argv (word :: words)) :
    HoldsWords (fun i => argv (i + 1)) words := by
  intro i next isNext
  exact holds (i + 1) next isNext

theorem areWords_scanWords {count : ℕ} {line : List UInt8}
    (noZero : 0 ∉ line) :
    AreWords (scanWords emCmdWordLengthMax count line) := by
  intro word member
  obtain ⟨_, short, inside⟩ := scanWords_mem member
  exact ⟨short, fun zero => noZero (inside zero)⟩

theorem HoldsWords.cmdArgs {argv : ℕ → Bytes} {words : List (List UInt8)}
    (holds : HoldsWords argv words) (areWords : AreWords words) :
    cmdArgs words.length argv = words := by
  apply List.ext_getElem
  · simp [EmbeddedMiddle.cmdArgs]
  · intro i _ bound
    obtain ⟨short, noZero⟩ := areWords words[i] (List.getElem_mem bound)
    have isText := holds i words[i] (List.getElem?_eq_getElem bound)
    simp only [EmbeddedMiddle.cmdArgs, List.getElem_map, List.getElem_range]
    exact isText.cString_eq noZero (Nat.lt_succ_of_le short)

/-- The keys of the table of commands are strings of 16 characters. -/
structure EmCmdmng.Keyed (cm : EmCmdmng) : Prop where
  keyType : cm.dmCmd.keyType = .string
  keySize : cm.dmCmd.keySize = emCmdNameLengthMax

/-- The function of a command depends on its name only. -/
theorem EmCmdmng.Keyed.getFunc_eq {cm : EmCmdmng} (keyed : cm.Keyed)
    {cmdname : Bytes} {word : List UInt8} (holds : cmdname.HoldsText word)
    (noZero : 0 ∉ word) :
    emCmdGetFuncByCmdname cm cmdname =
      emCmdGetFuncByCmdname cm (.ofList word) := by
  have sameKey : cmdname.cString emCmdNameLengthMax =
      (Bytes.ofList word).cString emCmdNameLengthMax := by
    rw [holds.cString_eq_take noZero,
      (Bytes.ofList_holdsText word).cString_eq_take noZero]
  have sameTest : ∀ key : Bytes,
      emGdatamngKeycmp cm.dmCmd.keyType key cmdname cm.dmCmd.keySize = 0 ↔
        emGdatamngKeycmp cm.dmCmd.keyType key (.ofList word)
          cm.dmCmd.keySize = 0 := by
    intro key
    simp only [keyed.keyType, keyed.keySize, emGdatamngKeycmp,
      Bytes.strncmp_eq_zero_iff, sameKey]
  have sameSearch : emGdatamngSearch cm.dmCmd cmdname =
      emGdatamngSearch cm.dmCmd (.ofList word) := by
    simp only [emGdatamngSearch, sameTest]
  simp only [emCmdGetFuncByCmdname, emGdatamngGetDataPtr,
    emGdatamngGetBlockinfo, sameSearch]

/-- The call that is made for these words. -/
def EmCmdmng.callOf (cm : EmCmdmng) : List (List UInt8) → Option CmdCall
  | [] => none
  | word :: words =>
      let cmdFunc := emCmdGetFuncByCmdname cm (.ofList word)
      if cmdFunc = 0 then none
      else some ⟨cmdFunc, (word :: words).length, word :: words⟩

variable {cm : EmCmdmng} (command : CmdCall → ℤ)

theorem EmCmdmng.Keyed.execArgs (keyed : cm.Keyed) {argv : ℕ → Bytes}
    {words : List (List UInt8)} (holds : HoldsWords argv words)
    (areWords : AreWords words) :
    (emCmdExecArgs cm words.length argv command).2 = cm.callOf words := by
  have args := holds.cmdArgs areWords
  unfold emCmdExecArgs
  cases words with
  | nil => rfl
  | cons word words =>
      obtain ⟨_, noZero⟩ := areWords word (List.mem_cons_self ..)
      have sameFunc := keyed.getFunc_eq (holds 0 word rfl) noZero
      have some : ((word :: words).length : ℤ) ≠ 0 :=
        Int.natCast_ne_zero.mpr (Nat.succ_ne_zero _)
      dsimp only
      rw [if_neg some, sameFunc, EmCmdmng.callOf, args]
      split_ifs <;> rfl

/-- One word less is another call, if there is a call at all. -/
theorem EmCmdmng.callOf_take_eq_iff {words : List (List UInt8)} {count : ℕ}
    (several : 1 < count) :
    cm.callOf (words.take (count - 1)) = cm.callOf (words.take count) ↔
      words.length < count ∨
        ∀ word ∈ words.head?, emCmdGetFuncByCmdname cm (.ofList word) = 0 := by
  obtain ⟨count, rfl⟩ := Nat.exists_eq_add_of_lt several
  rw [Nat.add_sub_cancel, Nat.add_comm 1 count]
  cases words with
  | nil => simp
  | cons word words =>
      rw [List.take_succ_cons, List.take_succ_cons, callOf, callOf]
      by_cases none : emCmdGetFuncByCmdname cm (.ofList word) = 0
      · simp [none]
      · simp [none]
        omega

/-! ## Both ways to run a line -/

theorem emReadLine_words {line : List UInt8} {words : List (List UInt8)}
    (isWords : scanWords emCmdWordLengthMax emCmdWordNumMax line = words)
    (dst : ℕ → Bytes) (wordNum : ℤ) :
    emReadLine (some line) dst wordNum =
      if words = [] then (-1, dst, wordNum)
      else (0, storeWords dst words, words.length) := by
  unfold emReadLine
  dsimp only
  rw [isWords]
  cases words with
  | nil => rfl
  | cons word words =>
      rw [if_neg (List.cons_ne_nil _ _), if_neg]
      exact Int.not_le.mpr (Int.natCast_pos.mpr (Nat.succ_pos _))

theorem emCmdAsyncCmdname_iff {argv : Bytes} {word : List UInt8}
    (holds : argv.HoldsText word) (noZero : 0 ∉ word)
    (short : word.length ≤ emCmdWordLengthMax) :
    Bytes.strncmp emCmdWordLengthMax argv (.ofList emCmdAsyncCmdname) = 0 ↔
      word = emCmdAsyncCmdname := by
  rw [Bytes.strncmp_eq_zero_iff, holds.cString_eq_take noZero,
    (Bytes.ofList_holdsText emCmdAsyncCmdname).cString_eq_take (by decide),
    List.take_of_length_le short, List.take_of_length_le (by decide)]

/-- In the foreground the first ten words are passed on. -/
theorem EmCmdmng.Keyed.execString (keyed : cm.Keyed) (cmdStr : CText)
    (wordBuf : ℕ → Bytes)
    (notAsync : emCmdAsyncCmdname ∉ (cmdWords cmdStr.text).head?) :
    (emCmdExecString cm cmdStr wordBuf command).2.2 =
      cm.callOf ((cmdWords cmdStr.text).take emCmdWordNumMax) := by
  have areWords := @areWords_scanWords emCmdWordNumMax _ cmdStr.noZero
  have isTake : scanWords emCmdWordLengthMax emCmdWordNumMax cmdStr.text =
      (cmdWords cmdStr.text).take emCmdWordNumMax := scanWords_eq_take
  rw [isTake] at areWords
  rw [emCmdExecString, emReadLine_words isTake]
  cases isWords : cmdWords cmdStr.text with
  | nil => rfl
  | cons word words =>
      rw [isWords] at notAsync areWords
      have stored := storeWords_holds wordBuf
        ((word :: words).take emCmdWordNumMax)
      have ran := keyed.execArgs command stored areWords
      obtain ⟨short, noZero⟩ := areWords word (List.mem_cons_self ..)
      have other : ¬Bytes.strncmp emCmdWordLengthMax
          (storeWords wordBuf ((word :: words).take emCmdWordNumMax) 0)
          (.ofList emCmdAsyncCmdname) = 0 := by
        rw [emCmdAsyncCmdname_iff (stored 0 word rfl) noZero short]
        intro same
        exact notAsync (same ▸ rfl)
      have nonempty : (word :: words).take emCmdWordNumMax ≠ [] :=
        List.cons_ne_nil _ _
      rw [if_neg nonempty]
      dsimp only
      rw [if_pos rfl, if_neg (fun both => other both.2)]
      exact ran

/-- A block of the queue with a command line, and whatever is behind it. -/
def HoldsLine (block line : List UInt8) : Prop :=
  0 ∉ line ∧ ∃ memory : Bytes, memory.HoldsText line ∧
    block = memory.read 0 emCmdBufLength

theorem HoldsLine.cString {block line : List UInt8}
    (holds : HoldsLine block line) (fits : line.length < emCmdBufLength)
    (inputBuf : Bytes) :
    (inputBuf.startingWith block).cString emCmdBufLength = line := by
  obtain ⟨noZero, memory, isText, same⟩ := holds
  have content := inputBuf.read_startingWith block
  rw [same, Bytes.length_read] at content
  rw [← isText.cString_eq noZero fits, Bytes.cString, Bytes.cString, same,
    content]

/-- In the background the word `async` takes the place of one of the ten. -/
theorem EmCmdmng.Keyed.startBgRound (keyed : cm.Keyed) {text : List UInt8}
    {data : List UInt8} {quCmd : EmQueue}
    (taken : emDequeue cm.quCmd 100 = some (.ok data, quCmd))
    (holds : HoldsLine data (emCmdAsyncCmdname ++ 32 :: text))
    (fits : text.length < emCmdBufLength - 6)
    (inputBuf : Bytes) (cmdstr : ℕ → Bytes) :
    (emCmdStartBgRound cm inputBuf cmdstr command).2.2.2 =
      cm.callOf ((cmdWords text).take (emCmdWordNumMax - 1)) := by
  have inBuffer : (emCmdAsyncCmdname ++ 32 :: text).length <
      emCmdBufLength := by
    simp only [List.length_append, List.length_cons, emCmdAsyncCmdname,
      List.length_nil]
    omega
  have line := holds.cString inBuffer inputBuf
  have noZero : 0 ∉ text := fun zero => holds.1 (by simp [zero])
  have isWords : scanWords emCmdWordLengthMax emCmdWordNumMax
      (emCmdAsyncCmdname ++ 32 :: text) =
      emCmdAsyncCmdname ::
        (cmdWords text).take (emCmdWordNumMax - 1) := by
    have isTake : (cmdWords text).take (emCmdWordNumMax - 1) =
        scanWords emCmdWordLengthMax (emCmdWordNumMax - 1) text :=
      scanWords_eq_take.symm
    rw [isTake]
    exact scanWords_word (by decide) (by decide) isBlank_emCmdAsyncCmdname
      (by decide)
  have areWords := @areWords_scanWords (emCmdWordNumMax - 1) text noZero
  rw [scanWords_eq_take] at areWords
  have stored := (storeWords_holds cmdstr (emCmdAsyncCmdname ::
    (cmdWords text).take (emCmdWordNumMax - 1))).tail
  have keyedAfter : EmCmdmng.Keyed { cm with quCmd } :=
    ⟨keyed.keyType, keyed.keySize⟩
  have ran := keyedAfter.execArgs command stored areWords
  have one_less : ((emCmdAsyncCmdname ::
      (cmdWords text).take (emCmdWordNumMax - 1)).length : ℤ) - 1 =
      ((cmdWords text).take (emCmdWordNumMax - 1)).length := by
    rw [List.length_cons]
    omega
  simp only [emCmdStartBgRound, taken]
  rw [line, emReadLine_words isWords, if_neg (List.cons_ne_nil _ _)]
  dsimp only
  rw [if_pos rfl, one_less]
  exact ran

end EmbeddedMiddle
