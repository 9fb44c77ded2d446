import EspAx25.Buffered
import EspAx25.Printing
import EspAx25.Scanning
import EspAx25.Config.State

/-!
# EspAx25.Config.Console

The command line of the configuration (`ax25_cfg_handle_command`): how a line is taken
apart, what its command does, and what is printed.

A command returns the texts that it hands to `cfg_output`, one for each call; they go through
the output buffer (`deliver`) to the output function, which has been set. The arrays of
`cmd_show` and `cmd_dump_config` are not initialised, and a read of NVS that fails leaves them
as they are.
-/

namespace EspAx25.Config

open Printing Buffered

/-! ### Output -/

/-- `sizeof(ctx->out_buf)`. -/
def outBufSize : Nat := 512

/-- `cfg_output`, for a text that has been formatted: `line` has 256 bytes. -/
def cfgOutput (out : Buffer Byte) (text : List Byte) : Buffer Byte :=
  if text = [] then out else out.append outBufSize (text.take 255)

/-- Texts that a command prints, and the flush with which it ends. -/
def deliver (out : Buffer Byte) (texts : List (List Byte)) : Buffer Byte :=
  (texts.foldl cfgOutput out).flush

/-- Texts that fit in `line` reach the output function as they are. -/
theorem deliver_sent {texts : List (List Byte)} (h : ∀ t ∈ texts, t.length ≤ 255) :
    (deliver {} texts).sent.flatten = texts.flatten := by
  have happend : texts.foldl cfgOutput {} = texts.foldl (Buffer.append outBufSize) {} := by
    refine List.foldl_ext _ _ _ fun out t ht => ?_
    unfold cfgOutput
    rw [List.take_of_length_le (h t ht)]
    split_ifs with hnil
    · rw [hnil]
      rfl
    · rfl
  unfold deliver
  rw [Buffer.flush_sent, happend, (Buffer.foldl_append_spec (by decide) texts (Nat.zero_le _)).1]
  rfl

/-- How a command ends. `overrun` is the end of a listing that writes behind `line`. -/
inductive Outcome
  | returned (exit : Bool)
  | restarted
  | overrun
  deriving Repr, DecidableEq

/-- What a command prints, and how it ends. -/
structure Reply where
  outcome : Outcome
  texts : List (List Byte)
  deriving Repr, DecidableEq

/-- A command that prints texts and stays in the configuration mode. -/
def say (texts : List (List Byte)) : Reply := ⟨.returned false, texts⟩

/-- "\r\n". -/
def crlf : List Byte := [0x0D, 0x0A]

/-! ### The line -/

/-- `sscanf(line, "%15s %191[^\r]", cmd, rest)`, into arrays of zeros. -/
def scanCommand (line : List Byte) : List Byte × List Byte :=
  let (cmd, after) := Scanning.word isSpace 15 line
  if cmd = [] then ([], [])
  else (cmd, Scanning.upTo (· = 0x0D) 191 (Scanning.skip isSpace after))

/-- `while (*parameter == ' ') parameter++`. -/
def skipBlanks (s : List Byte) : List Byte := s.dropWhile (· = 0x20)

/-- What stands in front of the first '=' of `rest`, and what behind it, if there is one. -/
def splitAssignment (rest : List Byte) : Option (List Byte × List Byte) :=
  match rest.dropWhile (· ≠ 0x3D) with
  | [] => none
  | _ :: value => some (skipBlanks (rest.takeWhile (· ≠ 0x3D)), skipBlanks value)

section Commands

variable (schema : List Param)

/-- `esp_err_to_name`. -/
abbrev ErrName := NvsErr → List Byte

/-- `cfg_output(ctx, "ERR %s\r\n", err)`, where `err` has 128 bytes. -/
def errLine (errName : ErrName) (f : Failure) : List Byte :=
  let name := match f.code with
    | .nvs e => errName e
    | _ => []
  bytes "ERR " ++ strlcpy (f.text ++ name) 128 ++ crlf

/-- The answer to a command that changes something. -/
def answer (errName : ErrName) (ok : List Byte) : Except Failure Unit → Reply
  | .ok () => say [ok]
  | .error f => say [errLine errName f]

/-! ### Listings -/

/-- What is in the arrays of a round of a listing when it begins. -/
structure Stack where
  current : List Byte
  committed : List Byte
  line : Fin 480 → Byte

/-- What an array holds after a read into it. -/
def readInto (stack : List Byte) : Except CfgErr (List Byte) → List Byte
  | .ok value => value
  | .error _ => stack

/-- "***" for a parameter that is to be hidden. -/
def masked (p : Param) (value : List Byte) : List Byte := if p.hide then bytes "***" else value

/-- `written += snprintf(line + written, sizeof(line) - (size_t)written, ...)`. With a position
behind the end of the array the room wraps around, and the piece is written there. -/
def showPiece (line : Option (Sheet Byte 480)) (piece : List Byte) : Option (Sheet Byte 480) :=
  line.bind fun line => if line.pos > 480 then none else some (line.print (2 ^ 32) 0 piece)

/-- The text of an entry in `cmd_show`; none when the line is overrun. -/
def showText (p : Param) (stack : Fin 480 → Byte) (current committed : List Byte) :
    Option (List Byte) :=
  let name := p.parameter.getD []
  let line : Sheet Byte 480 := { cells := stack }
  let line := line.print (2 ^ 32) 0 name
  if line.pos ≥ 480 then some (name ++ crlf)
  else
    let line := some line
    let line := if current ≠ committed then showPiece line (bytes " cur=" ++ masked p current)
      else line
    let line := if committed ≠ p.default then showPiece line (bytes " com=" ++ masked p committed)
      else line
    let line := showPiece line (bytes " def=" ++ masked p p.default)
    line.map fun line => line.string 0 ++ crlf

/-- `prefix != NULL && prefix[0] != '\0'` and the comparison with it. -/
def skipped (pre : List Byte) (p : Param) : Bool :=
  pre ≠ [] && !pre.isPrefixOf (p.parameter.getD [])

/-- The texts of an entry in `cmd_show`. -/
def showEntry (showAll : Bool) (pre : List Byte) (p : Param) (stack : Fin 480 → Byte)
    (current committed : List Byte) : Option (List (List Byte)) :=
  if !showAll && pre = [] && current = p.default && committed = p.default then some []
  else (showText p stack current committed).map fun text => [text]

/-- The loop of `cmd_show` over the schema, from the entry `i` on. No prefix is an empty one. -/
def cmdShow (stack : Nat → Stack) (ctx : Ctx) (showAll : Bool) (pre : List Byte) :
    Nat → List Param → Nvs (Option (List (List Byte)))
  | _, [] => pure (some [])
  | i, p :: ps =>
    if skipped pre p then cmdShow stack ctx showAll pre (i + 1) ps
    else do
      let current ← getEffectiveValue ctx p (UInt16.ofNat i) valueMaxLen
      let committed ← getStoredValue p valueMaxLen
      match showEntry showAll pre p (stack i).line (readInto (stack i).current current)
          (readInto (stack i).committed committed) with
      | none => pure none
      | some texts => do
        let more ← cmdShow stack ctx showAll pre (i + 1) ps
        pure (more.map (texts ++ ·))

/-- The texts of an entry in `cmd_dump_config`. -/
def dumpEntry (p : Param) (current : List Byte) : List (List Byte) :=
  if current = p.default then []
  else [bytes "set " ++ p.parameter.getD [] ++ bytes "=" ++ masked p current ++ crlf]

/-- The loop of `cmd_dump_config` over the schema, from the entry `i` on. -/
def cmdDumpConfig (stack : Nat → Stack) (ctx : Ctx) : Nat → List Param → Nvs (List (List Byte))
  | _, [] => pure []
  | i, p :: ps => do
    let current ← getEffectiveValue ctx p (UInt16.ofNat i) valueMaxLen
    let more ← cmdDumpConfig stack ctx (i + 1) ps
    pure (dumpEntry p (readInto (stack i).current current) ++ more)

/-- `cmd_help`. -/
def cmdHelp : List (List Byte) := List.map bytes
  ["Config mode commands:\r\n",
    "  set <parameter>=<value>   Stage a value change (not yet persistent)\r\n",
    "  get <parameter>           Show effective value (includes staged change)\r\n",
    "  clear <parameter>         Stage reset to schema default\r\n",
    "  show                      Show changed values only\r\n",
    "  show all                  Show all parameters\r\n",
    "  show <prefix>             Show parameters by prefix (for example: wifi. or net.)\r\n",
    "  config                    Print set commands for all non-default values\r\n",
    "  save                      Write staged changes and arm rollback safety window\r\n",
    "  commit                    Confirm saved changes and cancel rollback\r\n",
    "  revert                    Restore last backup snapshot\r\n",
    "  reboot                    Restart now to apply saved/reverted values\r\n",
    "  exit                      Leave config mode and discard unsaved staged changes\r\n",
    "\r\n",
    "Notes:\r\n",
    "  - Changes from set/clear are staged in memory until save.\r\n",
    "  - save writes to NVS and starts a safety rollback timer.\r\n",
    "  - If commit is not done before timeout, previous config is restored on reboot.\r\n",
    "  - Hidden secrets are masked in show/config output.\r\n",
    "\r\n",
    "Value rules:\r\n",
    "  - bool: 0|1|true|false|yes|no\r\n",
    "  - int: must be in each parameter range\r\n",
    "  - enum: must match one of the listed tokens\r\n",
    "  - string: plain text\r\n",
    "\r\n",
    "Typical flow:\r\n",
    "  show wifi.\r\n",
    "  set wifi.sta.ssid=MySSID\r\n",
    "  set wifi.sta.password=MyPass\r\n",
    "  save\r\n",
    "  reboot\r\n",
    "  ...verify connectivity...\r\n",
    "  commit\r\n"]

/-! ### The commands -/

/-- `SET`. -/
def commandSet (errName : ErrName) (ctx : Ctx) (rest : List Byte) : Reply × Ctx :=
  match splitAssignment rest with
  | none => (say [bytes "ERR usage: set <parameter>=<value>\r\n"], ctx)
  | some (parameter, value) =>
    let (setErr, ctx) := cfgSet schema ctx parameter value
    (answer errName (bytes "OK\r\n") setErr, ctx)

/-- `GET`. -/
def commandGet (ctx : Ctx) (rest : List Byte) : Nvs (Reply × Ctx) :=
  let parameter := skipBlanks rest
  if parameter = [] then pure (say [bytes "ERR usage: get <parameter>\r\n"], ctx)
  else do
    match ← cfgGet schema ctx parameter valueMaxLen with
    | .error _ => pure (say [bytes "ERR unknown parameter '" ++ parameter ++ bytes "'\r\n"], ctx)
    | .ok value => pure (say [parameter ++ bytes "=" ++ value ++ crlf], ctx)

/-- `CLEAR`. -/
def commandClear (errName : ErrName) (ctx : Ctx) (rest : List Byte) : Reply × Ctx :=
  let parameter := skipBlanks rest
  if parameter = [] then (say [bytes "ERR usage: clear <parameter>\r\n"], ctx)
  else
    let (clearErr, ctx) := cfgClear schema ctx parameter
    (answer errName (bytes "OK\r\n") clearErr, ctx)

/-- `SHOW`. -/
def commandShow (stack : Nat → Stack) (ctx : Ctx) (rest : List Byte) : Nvs (Reply × Ctx) := do
  let arg := skipBlanks rest
  let showAll := tokenEqualsCi arg (bytes "all")
  match ← cmdShow stack ctx showAll (if showAll then [] else arg) 0 schema with
  | none => pure (⟨.overrun, []⟩, ctx)
  | some texts => pure (say texts, ctx)

/-- `SAVE`. -/
def commandSave (errName : ErrName) (ctx : Ctx) : Nvs (Reply × Ctx) := do
  let (saveErr, ctx) ← cfgSave schema ctx
  pure (answer errName (bytes "Configuration saved. Reboot to apply.\r\n") saveErr, ctx)

/-- `CONFIG`. -/
def commandConfig (stack : Nat → Stack) (ctx : Ctx) : Nvs (Reply × Ctx) := do
  let texts ← cmdDumpConfig stack ctx 0 schema
  pure (say texts, ctx)

/-- `COMMIT`. -/
def commandCommit (errName : ErrName) (ctx : Ctx) : Nvs (Reply × Ctx) := do
  let (commitErr, ctx) ← cfgCommit ctx
  pure (answer errName (bytes "Configuration committed.\r\n") commitErr, ctx)

/-- `REVERT`. -/
def commandRevert (errName : ErrName) (ctx : Ctx) : Nvs (Reply × Ctx) := do
  let (revertErr, ctx) ← cfgRevert schema ctx
  pure (answer errName (bytes "Configuration reverted to backup. Reboot to apply.\r\n") revertErr,
    ctx)

/-- `ax25_cfg_handle_command`. -/
def handleCommand (errName : ErrName) (stack : Nat → Stack) (ctx : Ctx) (line : List Byte) :
    Nvs (Reply × Ctx) :=
  let (cmd, rest) := scanCommand line
  let cmd := cmd.map toUpper
  if cmd = [] then pure (say [], ctx)
  else if cmd = bytes "SET" then pure (commandSet schema errName ctx rest)
  else if cmd = bytes "GET" then commandGet schema ctx rest
  else if cmd = bytes "CLEAR" then pure (commandClear schema errName ctx rest)
  else if cmd = bytes "SHOW" then commandShow schema stack ctx rest
  else if cmd = bytes "SAVE" then commandSave schema errName ctx
  else if cmd = bytes "CONFIG" then commandConfig schema stack ctx
  else if cmd = bytes "COMMIT" then commandCommit errName ctx
  else if cmd = bytes "REVERT" then commandRevert schema errName ctx
  else if cmd = bytes "REBOOT" then pure (⟨.restarted, [bytes "Rebooting...\r\n"]⟩, ctx)
  else if cmd = bytes "EXIT" then pure (⟨.returned true, []⟩, ctx.clearPending)
  else pure (say cmdHelp, ctx)

end Commands

/-! ### Which command a line is -/

section Dispatch

variable {schema : List Param} {errName : ErrName} {stack : Nat → Stack} {ctx : Ctx}
  {line : List Byte}

theorem handleCommand_set (hcmd : (scanCommand line).1.map toUpper = bytes "SET") :
    handleCommand schema errName stack ctx line =
      pure (commandSet schema errName ctx (scanCommand line).2) := by
  simp [handleCommand, hcmd, bytes_eq_nil]

theorem handleCommand_clear (hcmd : (scanCommand line).1.map toUpper = bytes "CLEAR") :
    handleCommand schema errName stack ctx line =
      pure (commandClear schema errName ctx (scanCommand line).2) := by
  simp [handleCommand, hcmd, bytes_inj, bytes_eq_nil]

theorem handleCommand_show (hcmd : (scanCommand line).1.map toUpper = bytes "SHOW") :
    handleCommand schema errName stack ctx line =
      commandShow schema stack ctx (scanCommand line).2 := by
  simp [handleCommand, hcmd, bytes_inj, bytes_eq_nil]

theorem handleCommand_save (hcmd : (scanCommand line).1.map toUpper = bytes "SAVE") :
    handleCommand schema errName stack ctx line = commandSave schema errName ctx := by
  simp [handleCommand, hcmd, bytes_inj, bytes_eq_nil]

theorem handleCommand_config (hcmd : (scanCommand line).1.map toUpper = bytes "CONFIG") :
    handleCommand schema errName stack ctx line = commandConfig schema stack ctx := by
  simp [handleCommand, hcmd, bytes_inj, bytes_eq_nil]

theorem handleCommand_exit (hcmd : (scanCommand line).1.map toUpper = bytes "EXIT") :
    handleCommand schema errName stack ctx line =
      pure (⟨.returned true, []⟩, ctx.clearPending) := by
  simp [handleCommand, hcmd, bytes_inj, bytes_eq_nil]

end Dispatch

end EspAx25.Config
