import EmbeddedMiddle.CommandWords
import EmbeddedMiddle.Foundation.Transition

/-!
# Background commands over whole runs

Any number of calls, with the background thread taking the lines out of the
queue in between.  The oldest line that has been put in is the next to come
out, and it is run as the foreground would run it if it has few words.
-/

namespace EmbeddedMiddle

open Foundation

/-- The manager with the buffers of the background thread.  `pending` records
the lines that have been put into the queue and not yet taken out. -/
structure CmdAsync where
  cm : EmCmdmng
  inputBuf : Bytes
  cmdstr : ℕ → Bytes
  pending : List (List UInt8)

inductive CmdAsyncAction where
  | register (cmdsetting : EmCmdsetting)
  | execString (cmdStr : CText)
  | background
  | setRunning (isRunning : Bool)

namespace CmdAsync

/-- A call of `em_cmd_register` or `em_cmd_exec_string`, a round of the
background thread, or `em_cmd_start` or `em_cmd_stop`.  A line is pending from
the moment when the number of blocks grows. -/
inductive Step (command : CmdCall → ℤ) :
    CmdAsync → CmdAsyncAction → CmdAsync → Prop where
  | register {state : CmdAsync} {ret loglevel : ℤ} {cm : EmCmdmng}
      (cmdsetting : EmCmdsetting) :
      emCmdRegister state.cm cmdsetting loglevel = some (ret, cm) →
      Step command state (.register cmdsetting) { state with cm }
  | execString {state : CmdAsync} {ret : ℤ} {cm : EmCmdmng}
      {call : Option CmdCall} (cmdStr : CText) (wordBuf : ℕ → Bytes) :
      emCmdExecString state.cm cmdStr wordBuf command = (ret, cm, call) →
      Step command state (.execString cmdStr)
        { state with
          cm
          pending := state.pending ++
            if state.cm.quCmd.numUsed < cm.quCmd.numUsed then [cmdStr.text]
            else [] }
  | background {state : CmdAsync} {cm : EmCmdmng} {inputBuf : Bytes}
      {cmdstr : ℕ → Bytes} {call : Option CmdCall} :
      state.cm.isRunning = true →
      emCmdStartBgRound state.cm state.inputBuf state.cmdstr command =
        (cm, inputBuf, cmdstr, call) →
      Step command state .background
        ⟨cm, inputBuf, cmdstr, state.pending.drop
          (state.cm.quCmd.numUsed - cm.quCmd.numUsed)⟩
  | setRunning {state : CmdAsync} (isRunning : Bool) :
      Step command state (.setRunning isRunning)
        { state with cm := { state.cm with isRunning } }

/-- After `em_cmd_init`, with whatever is in the memory. -/
def start (cm : EmCmdmng) (numCmd : ℤ) (keymem : Bytes) (cmd : ℤ)
    (blockPtr : ℕ → ℕ) (rawdata inputBuf : Bytes) (cmdstr : ℕ → Bytes) :
    CmdAsync :=
  ⟨(emCmdInit cm numCmd keymem cmd blockPtr rawdata).2, inputBuf, cmdstr, []⟩

/-- The blocks of the queue hold the pending lines. -/
structure Sound (state : CmdAsync) : Prop where
  keyed : state.cm.Keyed
  ready : state.cm.quCmd.Ready emCmdBufLength
  holds : List.Forall₂ HoldsLine state.cm.quCmd.contents state.pending

end CmdAsync

/-! ## What the calls do to the table and to the queue -/

theorem emGdatamngAddData_keeps {Value : Type} (dm : EmDatamng Value)
    (key : Bytes) (data : Value) :
    (emGdatamngAddData dm key data).2.keyType = dm.keyType ∧
      (emGdatamngAddData dm key data).2.keySize = dm.keySize := by
  unfold emGdatamngAddData
  dsimp only
  split
  · split <;> exact ⟨rfl, rfl⟩
  · split
    · exact ⟨rfl, rfl⟩
    · split <;> exact ⟨rfl, rfl⟩
    · exact ⟨rfl, rfl⟩
    · exact ⟨rfl, rfl⟩

theorem emCmdRegister_keeps {cm after : EmCmdmng}
    {cmdsetting : EmCmdsetting} {ret loglevel : ℤ}
    (called : emCmdRegister cm cmdsetting loglevel = some (ret, after)) :
    after.quCmd = cm.quCmd ∧ (cm.Keyed → after.Keyed) := by
  obtain ⟨keyType, keySize⟩ := emGdatamngAddData_keeps cm.dmCmd
    cmdsetting.cmdName cmdsetting
  have isAfter : { cm with dmCmd := (emGdatamngAddData cm.dmCmd
      cmdsetting.cmdName cmdsetting).2 } = after := by
    simp only [emCmdRegister] at called
    split_ifs at called <;>
      exact congrArg Prod.snd (Option.some.inj called)
  subst isAfter
  refine ⟨rfl, ?_⟩
  rintro ⟨isType, isSize⟩
  exact ⟨keyType.trans isType, keySize.trans isSize⟩

theorem emCmdInit_keyed (cm : EmCmdmng) (numCmd : ℤ) (keymem : Bytes)
    (cmd : ℤ) (blockPtr : ℕ → ℕ) (rawdata : Bytes) :
    (emCmdInit cm numCmd keymem cmd blockPtr rawdata).2.Keyed := by
  constructor
  · simp only [emCmdInit, emGdatamngCreate, foldl_emGdatamngInitKey]
  · simp only [emCmdInit, emGdatamngCreate, foldl_emGdatamngInitKey]

/-- A call either puts its line into the queue or leaves the queue alone. -/
theorem emCmdExecString_queue (cm : EmCmdmng) (cmdStr : CText)
    (wordBuf : ℕ → Bytes) (command : CmdCall → ℤ) :
    (emCmdExecString cm cmdStr wordBuf command).2.1 = cm ∨
      ∃ ret quCmd,
        emEnqueue cm.quCmd cmdStr.memory emNoWait = some (ret, quCmd) ∧
        (emCmdExecString cm cmdStr wordBuf command).2.1 =
          { cm with quCmd } := by
  unfold emCmdExecString
  split
  split_ifs
  · split
    · next ret quCmd called => exact .inr ⟨ret, quCmd, called, rfl⟩
    · exact .inl rfl
  · exact .inl rfl
  · exact .inl rfl

/-- A round takes a block out of the queue or leaves the blocks alone. -/
theorem emCmdStartBgRound_queue (cm : EmCmdmng) (inputBuf : Bytes)
    (cmdstr : ℕ → Bytes) (command : CmdCall → ℤ) :
    (emCmdStartBgRound cm inputBuf cmdstr command).1 = cm ∨
      ∃ result quCmd, emDequeue cm.quCmd 100 = some (result, quCmd) ∧
        (emCmdStartBgRound cm inputBuf cmdstr command).1 =
          { cm with quCmd } := by
  unfold emCmdStartBgRound
  split
  · next data quCmd taken =>
      refine .inr ⟨.ok data, quCmd, taken, ?_⟩
      dsimp only
      split_ifs <;> rfl
  · next code quCmd taken => exact .inr ⟨.error code, quCmd, taken, rfl⟩
  · exact .inl rfl

/-! ## The invariant -/

namespace CmdAsync.Sound

variable {command : CmdCall → ℤ} {before after : CmdAsync}
  {action : CmdAsyncAction}

theorem start (cm : EmCmdmng) (numCmd : ℤ) (keymem : Bytes) (cmd : ℤ)
    (blockPtr : ℕ → ℕ) (rawdata inputBuf : Bytes) (cmdstr : ℕ → Bytes) :
    (CmdAsync.start cm numCmd keymem cmd blockPtr rawdata inputBuf
      cmdstr).Sound := by
  obtain ⟨ready, empty⟩ := @EmQueue.created_ready emCmdBufLength cm.quCmd
    emCmdAsyncQueueSize blockPtr rawdata
  refine ⟨emCmdInit_keyed cm numCmd keymem cmd blockPtr rawdata, ready, ?_⟩
  change List.Forall₂ HoldsLine (emQueueCreate ..).contents []
  rw [empty]
  exact .nil

theorem execString (sound : before.Sound) (cmdStr : CText)
    (wordBuf : ℕ → Bytes) {cm : EmCmdmng}
    (isCm : (emCmdExecString before.cm cmdStr wordBuf command).2.1 = cm) :
    Sound
      { before with
        cm
        pending := before.pending ++
          if before.cm.quCmd.numUsed < cm.quCmd.numUsed then [cmdStr.text]
          else [] } := by
  obtain ⟨keyed, ready, holds⟩ := sound
  rcases emCmdExecString_queue before.cm cmdStr wordBuf command with
    unchanged | ⟨ret, quCmd, called, changed⟩
  · rw [isCm] at unchanged
    subst unchanged
    refine ⟨keyed, ready, ?_⟩
    simpa using holds
  · rw [isCm] at changed
    subst changed
    obtain ⟨kept, contents⟩ := ready.enqueue called
    refine ⟨⟨keyed.keyType, keyed.keySize⟩, kept, ?_⟩
    have numUsed := congrArg List.length contents
    rw [List.length_append, EmQueue.length_contents,
      EmQueue.length_contents] at numUsed
    dsimp only
    rw [contents]
    apply List.rel_append holds
    split_ifs at numUsed ⊢ with done grew grew
    · exact .cons ⟨cmdStr.noZero, cmdStr.memory, cmdStr.holds, rfl⟩ .nil
    · simp at numUsed
      omega
    · simp at numUsed
      omega
    · exact .nil

theorem background (sound : before.Sound) {cm : EmCmdmng}
    (isCm : (emCmdStartBgRound before.cm before.inputBuf before.cmdstr
      command).1 = cm) (inputBuf : Bytes) (cmdstr : ℕ → Bytes) :
    Sound ⟨cm, inputBuf, cmdstr, before.pending.drop
      (before.cm.quCmd.numUsed - cm.quCmd.numUsed)⟩ := by
  obtain ⟨keyed, ready, holds⟩ := sound
  rcases emCmdStartBgRound_queue before.cm before.inputBuf before.cmdstr
    command with unchanged | ⟨result, quCmd, called, changed⟩
  · rw [isCm] at unchanged
    subst unchanged
    refine ⟨keyed, ready, ?_⟩
    simpa using holds
  · rw [isCm] at changed
    subst changed
    obtain ⟨kept, contents⟩ := ready.dequeue called
    refine ⟨⟨keyed.keyType, keyed.keySize⟩, kept, ?_⟩
    have numUsed := congrArg List.length contents
    rw [List.length_append, EmQueue.length_contents,
      EmQueue.length_contents] at numUsed
    have taken : before.cm.quCmd.numUsed - quCmd.numUsed =
        result.toOption.toList.length := by omega
    have rest := List.forall₂_drop result.toOption.toList.length holds
    rw [contents, List.drop_left] at rest
    dsimp only
    rw [taken]
    exact rest

theorem step (sound : before.Sound)
    (taken : Step command before action after) : after.Sound := by
  cases taken with
  | register cmdsetting called =>
      obtain ⟨sameQueue, keyed⟩ := emCmdRegister_keeps called
      refine ⟨keyed sound.keyed, ?_, ?_⟩
      · exact sameQueue ▸ sound.ready
      · exact sameQueue ▸ sound.holds
  | execString cmdStr wordBuf called =>
      exact sound.execString cmdStr wordBuf
        (congrArg (fun result => result.2.1) called)
  | background _ called =>
      exact sound.background (congrArg Prod.fst called) _ _
  | setRunning isRunning =>
      exact ⟨⟨sound.keyed.keyType, sound.keyed.keySize⟩, sound.ready,
        sound.holds⟩

end CmdAsync.Sound

/-! ## Agreement -/

/-- A line that comes out of the queue is run as in the foreground, with the
same `argc` and `argv`, exactly if it has fewer than ten words or its first
word is no command. -/
theorem cmd_background_agrees_iff (cm : EmCmdmng) (numCmd : ℤ)
    (keymem : Bytes) (cmd : ℤ) (blockPtr : ℕ → ℕ) (rawdata inputBuf : Bytes)
    (cmdstr : ℕ → Bytes) (command : CmdCall → ℤ)
    {labels : List CmdAsyncAction} {state : CmdAsync}
    (run : Run (CmdAsync.Step command)
      (CmdAsync.start cm numCmd keymem cmd blockPtr rawdata inputBuf cmdstr)
      labels state)
    {cmdStr : CText} (short : cmdStr.text.length < emCmdBufLength - 6)
    (notAsync : emCmdAsyncCmdname ∉ (cmdWords cmdStr.text).head?)
    {lines : List (List UInt8)}
    (oldest : state.pending =
      (emCmdAsyncCmdname ++ 32 :: cmdStr.text) :: lines)
    {data : List UInt8} {quCmd : EmQueue}
    (taken : emDequeue state.cm.quCmd 100 = some (.ok data, quCmd))
    (wordBuf : ℕ → Bytes) :
    (emCmdStartBgRound state.cm state.inputBuf state.cmdstr
        command).2.2.2 =
      (emCmdExecString state.cm cmdStr wordBuf command).2.2 ↔
    (cmdWords cmdStr.text).length < emCmdWordNumMax ∨
      ∀ word ∈ (cmdWords cmdStr.text).head?,
        emCmdGetFuncByCmdname state.cm (.ofList word) = 0 := by
  have sound : state.Sound :=
    run.invariant CmdAsync.Sound
      (.start cm numCmd keymem cmd blockPtr rawdata inputBuf cmdstr)
      (fun _ _ _ sound taken => sound.step taken)
  obtain ⟨keyed, ready, holds⟩ := sound
  obtain ⟨_, contents⟩ := ready.dequeue taken
  rw [contents, oldest] at holds
  have isLine : HoldsLine data (emCmdAsyncCmdname ++ 32 :: cmdStr.text) :=
    (List.forall₂_cons.mp holds).1
  rw [keyed.startBgRound command taken isLine short,
    keyed.execString command cmdStr wordBuf notAsync]
  exact EmCmdmng.callOf_take_eq_iff (Nat.lt_of_sub_eq_succ rfl)

/-- The command `x`, with the function at address 7. -/
def exampleCmd : EmCmdsetting := ⟨.ofList [120], 7⟩

/-- `x` and as many words `y`. -/
def exampleLine (more : ℕ) : List UInt8 :=
  120 :: (List.replicate more [32, 121]).flatten

theorem zero_notMem_exampleLine (more : ℕ) : 0 ∉ exampleLine more := by
  simp [exampleLine]

def exampleText (more : ℕ) : CText :=
  .ofList (exampleLine more) (zero_notMem_exampleLine more)

/-- The same line for the background. -/
def exampleAsync (more : ℕ) : CText :=
  .ofList (emCmdAsyncCmdname ++ 32 :: exampleLine more) (by
    simp [emCmdAsyncCmdname, zero_notMem_exampleLine])

def exampleTable : EmCmdmng :=
  let cm := (emCmdInit default 1 default 0 default default).2
  { cm with
    dmCmd := (emGdatamngAddData cm.dmCmd exampleCmd.cmdName exampleCmd).2 }

/-- The line is in the queue. -/
def exampleQueued (cmdStr : CText) : CmdAsync :=
  ⟨(emCmdExecString exampleTable cmdStr default (fun _ => 0)).2.1, default,
    default, [cmdStr.text]⟩

theorem exampleQueued_run (cmdStr : CText)
    (grew : exampleTable.quCmd.numUsed <
      (exampleQueued cmdStr).cm.quCmd.numUsed) :
    Run (CmdAsync.Step (fun _ => 0))
      (CmdAsync.start default 1 default 0 default default default default)
      [.register exampleCmd, .execString cmdStr] (exampleQueued cmdStr) := by
  have succeeds : (emGdatamngAddData
      (emCmdInit default 1 default 0 default default).2.dmCmd
      exampleCmd.cmdName exampleCmd).1 = 0 := by decide +kernel
  have registered : CmdAsync.Step (fun _ => 0)
      (CmdAsync.start default 1 default 0 default default default default)
      (.register exampleCmd) ⟨exampleTable, default, default, []⟩ :=
    .register exampleCmd
      (emCmdRegister_added (Prod.ext succeeds rfl) emLogDefault)
  have queued := @CmdAsync.Step.execString (fun _ => 0)
    ⟨exampleTable, default, default, []⟩
    (emCmdExecString exampleTable cmdStr default (fun _ => 0)).1
    (exampleQueued cmdStr).cm
    (emCmdExecString exampleTable cmdStr default (fun _ => 0)).2.2
    cmdStr default rfl
  dsimp only at queued
  rw [if_pos grew] at queued
  exact .cons registered (.cons queued .nil)

theorem exists_taken {qu : EmQueue}
    (isOk : ((emDequeue qu 100).bind
      (fun taken => taken.1.toOption)).isSome = true) :
    ∃ data quCmd, emDequeue qu 100 = some (.ok data, quCmd) := by
  cases called : emDequeue qu 100 with
  | none => simp [called] at isOk
  | some taken =>
      obtain ⟨result, quCmd⟩ := taken
      cases result with
      | error code => simp [called, Except.toOption] at isOk
      | ok data => exact ⟨data, quCmd, rfl⟩

theorem cmd_background_agrees_two_words :
    ∃ state : CmdAsync,
      Run (CmdAsync.Step (fun _ => 0))
        (CmdAsync.start default 1 default 0 default default default default)
        [.register exampleCmd, .execString (exampleAsync 1)] state ∧
      (emCmdStartBgRound state.cm state.inputBuf state.cmdstr
          (fun _ => 0)).2.2.2 =
        (emCmdExecString state.cm (exampleText 1) default
          (fun _ => 0)).2.2 ∧
      (emCmdExecString state.cm (exampleText 1) default (fun _ => 0)).2.2 =
        some ⟨7, 2, [[120], [121]]⟩ := by
  have run := exampleQueued_run (exampleAsync 1) (by decide +kernel)
  obtain ⟨data, quCmd, taken⟩ :=
    @exists_taken (exampleQueued (exampleAsync 1)).cm.quCmd
      (by decide +kernel)
  have short : (exampleText 1).text.length < emCmdBufLength - 6 := by
    decide +kernel
  have notAsync :
      emCmdAsyncCmdname ∉ (cmdWords (exampleText 1).text).head? := by
    decide +kernel
  have agree := cmd_background_agrees_iff default 1 default 0 default default
    default default (fun _ => 0) run short notAsync rfl taken default
  exact ⟨_, run, agree.mpr (.inl (by decide +kernel)), by decide +kernel⟩

/-- A line of ten words: in the background the last one is lost. -/
theorem cmd_background_drops_word :
    ∃ state : CmdAsync,
      Run (CmdAsync.Step (fun _ => 0))
        (CmdAsync.start default 1 default 0 default default default default)
        [.register exampleCmd, .execString (exampleAsync 9)] state ∧
      state.pending = [emCmdAsyncCmdname ++ 32 :: (exampleText 9).text] ∧
      (exampleText 9).text.length < emCmdBufLength - 6 ∧
      emCmdAsyncCmdname ∉ (cmdWords (exampleText 9).text).head? ∧
      (emCmdStartBgRound state.cm state.inputBuf state.cmdstr
          (fun _ => 0)).2.2.2 =
        some ⟨7, 9, [120] :: List.replicate 8 [121]⟩ ∧
      (emCmdExecString state.cm (exampleText 9) default (fun _ => 0)).2.2 =
        some ⟨7, 10, [120] :: List.replicate 9 [121]⟩ := by
  have run := exampleQueued_run (exampleAsync 9) (by decide +kernel)
  refine ⟨_, run, rfl, ?_, ?_, ?_, ?_⟩
  · decide +kernel
  · decide +kernel
  · decide +kernel
  · decide +kernel

end EmbeddedMiddle
