import EmbeddedMiddle.CommandInput
import EmbeddedMiddle.Gdatamng
import EmbeddedMiddle.Print
import EmbeddedMiddle.Queue

/-!
# Registered commands

The table of commands of `em_command.c`.  A command is found by the first
characters of its name, as many as the keys of the table have.  A command
function is known by its address; 0 is NULL.
-/

namespace EmbeddedMiddle

open Foundation

def emCmdNameLengthMax : ℕ := 16

def emCmdAsyncQueueSize : ℤ := 4

/-- The memory behind `cmd_name`, and the address of the function. -/
structure EmCmdsetting where
  cmdName : Bytes
  cmdFunc : ℤ
  deriving Inhabited

/-- `sizeof(em_cmdsetting_t)` where pointers have 8 bytes. -/
def sizeofCmdsetting : ℕ := 16

structure EmCmdmng where
  isRunning : Bool
  dmCmd : EmDatamng EmCmdsetting
  quCmd : EmQueue
  deriving Inhabited

/-- `keymem`, `cmd`, `blockPtr` and `rawdata` are the regions of the table and
of the queue.  `em_gdatamng_create` and `em_queue_create` always return 0. -/
def emCmdInit (cm : EmCmdmng) (numCmd : ℤ) (keymem : Bytes) (cmd : ℤ)
    (blockPtr : ℕ → ℕ) (rawdata : Bytes) : ℤ × EmCmdmng :=
  (0, { isRunning := true
        dmCmd := emGdatamngCreate cm.dmCmd sizeofCmdsetting
          (intToUint32 numCmd) .string emCmdNameLengthMax .error keymem cmd
        quCmd := emQueueCreate cm.quCmd emCmdBufLength emCmdAsyncQueueSize
          blockPtr rawdata })

/-- The text that is printed after a failure asks for a name and gets none.
`none` stands for what then happens, which is undefined; with a `loglevel` above
errors the text is not put together. -/
def emCmdRegister (cm : EmCmdmng) (cmdsetting : EmCmdsetting) (loglevel : ℤ) :
    Option (ℤ × EmCmdmng) :=
  let (ret, dmCmd) := emGdatamngAddData cm.dmCmd cmdsetting.cmdName cmdsetting
  let cm := { cm with dmCmd }
  if ret ≠ 0 then
    if emLogError < loglevel then some (-1, cm) else none
  else some (0, cm)

theorem emCmdRegister_refused {cm : EmCmdmng} {cmdsetting : EmCmdsetting}
    (added : emGdatamngAddData cm.dmCmd cmdsetting.cmdName cmdsetting =
      (-1, cm.dmCmd)) (loglevel : ℤ) :
    emCmdRegister cm cmdsetting loglevel =
      if emLogError < loglevel then some (-1, cm) else none := by
  simp [emCmdRegister, added]

theorem emCmdRegister_added {cm : EmCmdmng} {cmdsetting : EmCmdsetting}
    {dmCmd : EmDatamng EmCmdsetting}
    (added : emGdatamngAddData cm.dmCmd cmdsetting.cmdName cmdsetting =
      (0, dmCmd)) (loglevel : ℤ) :
    emCmdRegister cm cmdsetting loglevel = some (0, { cm with dmCmd }) := by
  simp [emCmdRegister, added]

/-! ## Running a command -/

def emCmdGetFuncByCmdname (cm : EmCmdmng) (cmdname : Bytes) : ℤ :=
  match emGdatamngGetDataPtr cm.dmCmd cmdname with
  | none => 0
  | some cmdsetting => (cm.dmCmd.data cmdsetting).cmdFunc

/-- A call of a command function, with the strings in `argv`. -/
structure CmdCall where
  cmdFunc : ℤ
  argc : ℤ
  argv : List (List UInt8)
  deriving DecidableEq

/-- The strings behind the pointers of `argv`. -/
def cmdArgs (argc : ℤ) (argv : ℕ → Bytes) : List (List UInt8) :=
  (List.range argc.toNat).map (fun i =>
    (argv i).cString (emCmdWordLengthMax + 1))

/-- The return value, and the call that is made, if there is one.  `command`
is what the functions return. -/
def emCmdExecArgs (cm : EmCmdmng) (argc : ℤ) (argv : ℕ → Bytes)
    (command : CmdCall → ℤ) : ℤ × Option CmdCall :=
  if argc = 0 then (0, none)
  else
    let cmdFunc := emCmdGetFuncByCmdname cm (argv 0)
    if cmdFunc = 0 then (-1, none)
    else
      let call : CmdCall := ⟨cmdFunc, argc, cmdArgs argc argv⟩
      (command call, some call)

end EmbeddedMiddle
