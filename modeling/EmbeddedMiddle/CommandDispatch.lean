import EmbeddedMiddle.SystemLimits

/-!
# Dispatching commands by name

Commands are registered one after the other and then run by the first word of
a line.  Names and words are compared in their first 16 characters only.
-/

namespace EmbeddedMiddle

open Foundation

/-- A command as it is registered: its name ends with a zero, and it has a
function. -/
structure NamedCommand where
  setting : EmCmdsetting
  name : List UInt8
  noZero : 0 ∉ name
  holds : setting.cmdName.HoldsText name
  isFunction : setting.cmdFunc ≠ 0

namespace NamedCommand

def key (command : NamedCommand) : List UInt8 := cmdKey command.name

/-- A command whose name is a literal. -/
def ofList (name : List UInt8) (cmdFunc : ℤ) (noZero : 0 ∉ name)
    (isFunction : cmdFunc ≠ 0) : NamedCommand :=
  ⟨⟨.ofList name, cmdFunc⟩, name, noZero, Bytes.ofList_holdsText name,
    isFunction⟩

end NamedCommand

/-- One call of `em_cmd_register` for each command: the return values, if all
calls are defined. -/
def emCmdRegisterAll (loglevel : ℤ) (cm : EmCmdmng) :
    List NamedCommand → Option (List ℤ × EmCmdmng)
  | [] => some ([], cm)
  | command :: commands =>
      match emCmdRegister cm command.setting loglevel with
      | none => none
      | some (ret, cm) =>
          (emCmdRegisterAll loglevel cm commands).map
            (fun result => (ret :: result.1, result.2))

/-- All commands are registered, with this table. -/
def EmCmdmng.RegistersAll (loglevel : ℤ) (cm : EmCmdmng)
    (commands : List NamedCommand) (after : EmCmdmng) : Prop :=
  ∃ rets, emCmdRegisterAll loglevel cm commands = some (rets, after) ∧
    ∀ ret ∈ rets, ret = 0

/-- What running `word` is to do: the function registered under this very
name is called, or none. -/
def exactDispatch (commands : List NamedCommand) (word : List UInt8)
    (argc : ℤ) (argv : ℕ → Bytes) (command : CmdCall → ℤ) :
    ℤ × Option CmdCall :=
  match commands.find? (fun command => command.name = word) with
  | some found =>
      let call : CmdCall := ⟨found.setting.cmdFunc, argc, cmdArgs argc argv⟩
      (command call, some call)
  | none => (-1, none)

/-! ## The table of the registered commands -/

/-- These commands are in the table, each under a key of its own. -/
structure EmCmdmng.Registered (pool : PoolParams) (cm : EmCmdmng)
    (commands : List NamedCommand) : Prop where
  distinct : (commands.map NamedCommand.key).Nodup
  shown : ∃ set map, cm.dmCmd.Shows (cmdTable pool) set map ∧
    map.keys = (commands.map NamedCommand.key).toFinset ∧
    ∀ command ∈ commands,
      (map.entry command.key).map CountedEntry.value = some command.setting

theorem EmCmdmng.RegistersAll.unique {loglevel : ℤ}
    {cm after other : EmCmdmng} {commands : List NamedCommand}
    (all : cm.RegistersAll loglevel commands after)
    (same : cm.RegistersAll loglevel commands other) : after = other := by
  obtain ⟨rets, called, _⟩ := all
  obtain ⟨_, calledSame, _⟩ := same
  rw [called] at calledSame
  exact congrArg Prod.snd (Option.some.inj calledSame)

theorem EmCmdmng.RegistersAll.cons_iff {loglevel : ℤ}
    {cm after final : EmCmdmng} {command : NamedCommand}
    {commands : List NamedCommand}
    (called : emCmdRegister cm command.setting loglevel = some (0, after)) :
    cm.RegistersAll loglevel (command :: commands) final ↔
      after.RegistersAll loglevel commands final := by
  constructor
  · rintro ⟨rets, all, succeed⟩
    rw [emCmdRegisterAll, called] at all
    obtain ⟨⟨others, _⟩, isRest, isAll⟩ := Option.map_eq_some_iff.mp all
    obtain ⟨rfl, rfl⟩ := Prod.mk.inj isAll
    exact ⟨others, isRest,
      fun ret member => succeed ret (List.mem_cons_of_mem _ member)⟩
  · rintro ⟨rets, all, succeed⟩
    refine ⟨0 :: rets, ?_, by simpa using succeed⟩
    rw [emCmdRegisterAll, called]
    dsimp only
    rw [all]
    rfl

namespace EmCmdmng.Registered

variable {pool : PoolParams} {cm : EmCmdmng} {commands : List NamedCommand}
  {command : NamedCommand} {loglevel : ℤ}

/-- A key that is taken is refused. -/
theorem register_taken (registered : cm.Registered pool commands)
    (taken : command.key ∈ commands.map NamedCommand.key) :
    emCmdRegister cm command.setting loglevel =
      if emLogError < loglevel then some (-1, cm) else none := by
  obtain ⟨_, set, map, shown, keys, _⟩ := registered
  have isKey := cmdTable_keyOf pool command.holds command.noZero
  have present : (cmdTable pool).keyOf command.setting.cmdName ∈ map.keys := by
    rw [isKey, keys, List.mem_toFinset]
    exact taken
  exact emCmdRegister_refused (shown.addData_rejected present rfl _) loglevel

theorem register_new (registered : cm.Registered pool commands)
    (new : command.key ∉ commands.map NamedCommand.key)
    (room : commands.length < pool.capacity) :
    ∃ after, emCmdRegister cm command.setting loglevel = some (0, after) ∧
      after.Registered pool (commands ++ [command]) := by
  obtain ⟨distinct, set, map, shown, keys, settings⟩ := registered
  have isKey := cmdTable_keyOf pool command.holds command.noZero
  have missing : (cmdTable pool).keyOf command.setting.cmdName ∉ map.keys := by
    rw [isKey, keys, List.mem_toFinset]
    exact new
  have card : map.keys.card = commands.length := by
    rw [keys, List.toFinset_card_of_nodup distinct, List.length_map]
  obtain ⟨_, after, place, added, _, kept⟩ :=
    shown.addData_room missing (card ▸ room) command.setting
  refine ⟨{ cm with dmCmd := after }, emCmdRegister_added added loglevel, ?_,
    _, _, kept, ?_, ?_⟩
  · rw [List.map_append, List.map_singleton, ← List.concat_eq_append]
    exact distinct.concat new
  · change insert _ map.keys = _
    rw [isKey, keys, List.map_append]
    ext key
    simp [NamedCommand.key]
  · intro other member
    change (Function.update map.entry _ _ other.key).map _ = _
    rw [isKey]
    rcases List.mem_append.mp member with earlier | isNew
    · have apart : other.key ≠ cmdKey command.name :=
        fun same => new (List.mem_map.mpr ⟨other, earlier, same⟩)
      rw [Function.update_of_ne apart]
      exact settings other earlier
    · obtain rfl := List.mem_singleton.mp isNew
      rw [NamedCommand.key, Function.update_self]
      rfl

/-- All of the rest is registered exactly if no two keys are the same. -/
theorem registerAll (registered : cm.Registered pool commands)
    {rest : List NamedCommand}
    (few : commands.length + rest.length ≤ pool.capacity) :
    (∀ after, cm.RegistersAll loglevel rest after →
        ((commands ++ rest).map NamedCommand.key).Nodup) ∧
      (((commands ++ rest).map NamedCommand.key).Nodup →
        ∃ after, cm.RegistersAll loglevel rest after ∧
          after.Registered pool (commands ++ rest)) := by
  induction rest generalizing cm commands with
  | nil =>
      rw [List.append_nil]
      exact ⟨fun _ _ => registered.distinct,
        fun _ => ⟨cm, ⟨[], rfl, by simp⟩, registered⟩⟩
  | cons command rest induction =>
      rw [List.length_cons] at few
      by_cases taken : command.key ∈ commands.map NamedCommand.key
      · have twice : ¬((commands ++ command :: rest).map
            NamedCommand.key).Nodup := by
          rw [List.map_append, List.map_cons, List.nodup_append]
          rintro ⟨_, _, apart⟩
          exact apart _ taken _ (List.mem_cons_self ..) rfl
        refine ⟨?_, fun distinct => absurd distinct twice⟩
        rintro after ⟨rets, called, succeed⟩
        rw [emCmdRegisterAll, registered.register_taken taken] at called
        split_ifs at called
        obtain ⟨result, _, isResult⟩ := Option.map_eq_some_iff.mp called
        obtain rfl := (congrArg Prod.fst isResult).symm
        exact absurd (succeed (-1) (List.mem_cons_self ..)) (by decide)
      · obtain ⟨after, called, kept⟩ :=
          registered.register_new taken (by omega)
        obtain ⟨distinct, succeeds⟩ :=
          @induction after (commands ++ [command]) kept (by
            rw [List.length_append, List.length_singleton]
            omega)
        rw [List.append_assoc, List.singleton_append] at distinct succeeds
        constructor
        · intro final all
          exact distinct final ((RegistersAll.cons_iff called).mp all)
        · intro nodup
          obtain ⟨final, all, kept⟩ := succeeds nodup
          exact ⟨final, (RegistersAll.cons_iff called).mpr all, kept⟩

/-- A command is found under every word with its key. -/
theorem getFunc_of_key (registered : cm.Registered pool commands)
    (member : command ∈ commands) {word : List UInt8} {cmdname : Bytes}
    (holds : cmdname.HoldsText word) (noZero : 0 ∉ word)
    (sameKey : command.key = cmdKey word) :
    emCmdGetFuncByCmdname cm cmdname = command.setting.cmdFunc := by
  obtain ⟨_, set, map, shown, _, settings⟩ := registered
  have isKey : (cmdTable pool).keyOf cmdname = command.key :=
    (holds.cString_eq_take noZero emCmdNameLengthMax).trans sameKey.symm
  have isData := shown.getData_eq cmdname
  rw [isKey, settings command member] at isData
  unfold emGdatamngGetData at isData
  unfold emCmdGetFuncByCmdname
  cases found : emGdatamngGetDataPtr cm.dmCmd cmdname with
  | none => simp [found] at isData
  | some place =>
      rw [found] at isData
      exact congrArg EmCmdsetting.cmdFunc (Option.some.inj isData)

theorem getFunc_none (registered : cm.Registered pool commands)
    {word : List UInt8} {cmdname : Bytes} (holds : cmdname.HoldsText word)
    (noZero : 0 ∉ word)
    (none : ∀ command ∈ commands, command.key ≠ cmdKey word) :
    emCmdGetFuncByCmdname cm cmdname = 0 := by
  obtain ⟨_, set, map, shown, keys, _⟩ := registered
  have isKey : (cmdTable pool).keyOf cmdname = cmdKey word :=
    holds.cString_eq_take noZero emCmdNameLengthMax
  have missing : map.entry (cmdKey word) = Option.none := by
    rw [map.entry_eq_none_iff, keys, List.mem_toFinset]
    intro member
    obtain ⟨command, isIn, same⟩ := List.mem_map.mp member
    exact none command isIn same
  have noPtr := shown.getDataPtr_eq cmdname
  rw [isKey, missing] at noPtr
  simp [emCmdGetFuncByCmdname, noPtr]

/-- A word is dispatched exactly if no other name has its key. -/
theorem dispatch_iff (registered : cm.Registered pool commands)
    {word : List UInt8} {argc : ℤ} {argv : ℕ → Bytes}
    (holds : (argv 0).HoldsText word) (noZero : 0 ∉ word)
    (hasWord : argc ≠ 0) (run : CmdCall → ℤ) :
    emCmdExecArgs cm argc argv run =
        exactDispatch commands word argc argv run ↔
      ∀ command ∈ commands, command.key = cmdKey word →
        command.name = word := by
  unfold emCmdExecArgs exactDispatch
  rw [if_neg hasWord]
  constructor
  · intro same other member sameKey
    have isFunc := registered.getFunc_of_key member holds noZero sameKey
    cases named : commands.find? (fun command => command.name = word) with
    | none =>
        rw [named, isFunc, if_neg other.isFunction] at same
        cases (congrArg Prod.snd same)
    | some found =>
        have isNamed : found.name = word := by
          simpa using List.find?_some named
        have isKey : found.key = other.key := by
          rw [sameKey, NamedCommand.key, isNamed]
        have isOther := List.inj_on_of_nodup_map registered.distinct
          (List.mem_of_find?_eq_some named) member isKey
        exact isOther ▸ isNamed
  · intro isOnly
    cases named : commands.find? (fun command => command.name = word) with
    | none =>
        have noName := List.find?_eq_none.mp named
        have noFunc := registered.getFunc_none holds noZero
          (fun other member sameKey =>
            noName other member (by simpa using isOnly other member sameKey))
        rw [noFunc]
        rfl
    | some found =>
        have member := List.mem_of_find?_eq_some named
        have isNamed : found.name = word := by
          simpa using List.find?_some named
        have isFunc := registered.getFunc_of_key member holds noZero
          (by rw [NamedCommand.key, isNamed])
        dsimp only
        rw [isFunc, if_neg found.isFunction]

end EmCmdmng.Registered

/-! ## After the initialisation -/

theorem emCmdInit_registered (cm : EmCmdmng) {numCmd : ℕ} (keymem : Bytes)
    (cmd : ℤ) (blockPtr : ℕ → ℕ) (rawdata : Bytes) (positive : 0 < numCmd)
    (fits : sizeofCmdsetting * numCmd < 4294967296) :
    (emCmdInit cm numCmd keymem cmd blockPtr rawdata).2.Registered
      ⟨numCmd, sizeofCmdsetting, cmd⟩ [] := by
  have small : numCmd < 4294967296 / sizeofCmdsetting :=
    (Nat.lt_div_iff_mul_lt' ⟨268435456, rfl⟩ numCmd).mpr fits
  have valid : (cmdTable ⟨numCmd, sizeofCmdsetting, cmd⟩).Valid := by
    refine ⟨⟨Nat.succ_pos _, fits⟩, positive, ?_, fits⟩
    change numCmd ≤ 2147483647
    unfold sizeofCmdsetting at small
    omega
  obtain ⟨set, shown⟩ := valid.create_shows cm.dmCmd keymem
  refine ⟨List.nodup_nil, set, .empty, ?_, rfl, ?_⟩
  · rw [emCmdInit, intToUint32_natCast (small.le.trans (by decide))]
    exact shown
  · intro command none
    cases none

/-- Without room for a command none is found. -/
theorem emCmdInit_empty (cm : EmCmdmng) (keymem : Bytes) (cmd : ℤ)
    (blockPtr : ℕ → ℕ) (rawdata : Bytes)
    (zeroed : cm.dmCmd.mp.numUsed = 0) (cmdname : Bytes) :
    emCmdGetFuncByCmdname
      (emCmdInit cm 0 keymem cmd blockPtr rawdata).2 cmdname = 0 := by
  have noSlots : (emCmdInit cm 0 keymem cmd blockPtr
      rawdata).2.dmCmd.mp.numUsed = 0 := zeroed
  simp [emCmdGetFuncByCmdname, emGdatamngGetDataPtr, emGdatamngGetBlockinfo,
    emGdatamngSearch, noSlots]

/-- At every level of the log all commands are registered and `word` runs the
one of its name, or none, exactly if no two names have the same first 16
characters and no other name has those of `word`. -/
theorem cmd_dispatch_iff (cm : EmCmdmng) {numCmd : ℕ} (keymem : Bytes)
    (cmd : ℤ) (blockPtr : ℕ → ℕ) (rawdata : Bytes) (loglevel : ℤ)
    (fits : sizeofCmdsetting * numCmd < 4294967296)
    (zeroed : numCmd = 0 → cm.dmCmd.mp.numUsed = 0)
    {commands : List NamedCommand} (few : commands.length ≤ numCmd)
    {word : List UInt8} (noZero : 0 ∉ word) {argc : ℤ} (hasWord : argc ≠ 0)
    {argv : ℕ → Bytes} (holds : (argv 0).HoldsText word)
    (command : CmdCall → ℤ) :
    (∃ after,
      (emCmdInit cm numCmd keymem cmd blockPtr rawdata).2.RegistersAll
        loglevel commands after ∧
      emCmdExecArgs after argc argv command =
        exactDispatch commands word argc argv command) ↔
    (commands.map NamedCommand.key).Nodup ∧
      ∀ command ∈ commands, command.key = cmdKey word →
        command.name = word := by
  rcases Nat.eq_zero_or_pos numCmd with rfl | positive
  · obtain rfl := List.length_eq_zero_iff.mp (Nat.le_zero.mp few)
    have noFunc := emCmdInit_empty cm keymem cmd blockPtr rawdata
      (zeroed rfl) (argv 0)
    simp [EmCmdmng.RegistersAll, emCmdRegisterAll, emCmdExecArgs,
      exactDispatch, hasWord, noFunc]
  · have initial := emCmdInit_registered cm keymem cmd blockPtr rawdata
      positive fits
    obtain ⟨distinct, succeeds⟩ := initial.registerAll
      ((Nat.zero_add _).trans_le few)
    rw [List.nil_append] at distinct succeeds
    constructor
    · rintro ⟨after, all, dispatched⟩
      obtain ⟨final, others, registered⟩ := succeeds (distinct after all)
      obtain rfl : after = final := all.unique others
      exact ⟨distinct after all, (registered.dispatch_iff holds noZero
        hasWord command).mp dispatched⟩
    · rintro ⟨nodup, isOnly⟩
      obtain ⟨after, all, registered⟩ := succeeds nodup
      exact ⟨after, all, (registered.dispatch_iff holds noZero hasWord
        command).mpr isOnly⟩

/-- `ab` and `x`. -/
def shortNames : List NamedCommand :=
  [.ofList [97, 98] 5 (by decide) (by decide),
    .ofList [120] 7 (by decide) (by decide)]

theorem cmd_dispatch_short_names : ∃ after,
    (emCmdInit default 2 default 0 default default).2.RegistersAll
      emLogDefault shortNames after ∧
    emCmdExecArgs after 1 (fun _ => .ofList [120]) (fun _ => 0) =
      (0, some ⟨7, 1, [[120]]⟩) := by
  have noZero : (0 : UInt8) ∉ [120] := by decide
  have dispatched := @cmd_dispatch_iff default 2 default 0 default default
    emLogDefault (by decide) (by decide) shortNames (by decide) [120] noZero 1
    (by decide) (fun _ => .ofList [120]) (Bytes.ofList_holdsText [120])
    (fun _ => 0)
  obtain ⟨after, succeed, exactly⟩ :=
    dispatched.mpr ⟨by decide, by decide⟩
  exact ⟨after, succeed, exactly.trans (by decide +kernel)⟩

/-- Two names of 17 characters that differ in the last one. -/
def longNames : List NamedCommand :=
  [.ofList (List.replicate 16 97 ++ [49]) 5 (by decide) (by decide),
    .ofList (List.replicate 16 97 ++ [50]) 7 (by decide) (by decide)]

/-- The second command is refused, with a message that has no argument for its
name; where errors are not logged, its name runs the first. -/
theorem cmd_long_names_clash :
    (longNames.map NamedCommand.name).Nodup ∧
    (emCmdRegisterAll emLogDefault
        (emCmdInit default 2 default 0 default default).2
        longNames).isNone = true ∧
    (emCmdRegisterAll 6 (emCmdInit default 2 default 0 default default).2
        longNames).map (fun result => (result.1, (emCmdExecArgs result.2 1
          (fun _ => .ofList (List.replicate 16 97 ++ [50]))
          (fun _ => 0)).2)) =
      some ([0, -1], some ⟨5, 1, [List.replicate 16 97 ++ [50]]⟩) := by
  refine ⟨by decide, ?_, ?_⟩
  · decide +kernel
  · decide +kernel

end EmbeddedMiddle
