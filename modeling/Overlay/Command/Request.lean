import Overlay.Command.Switch
import Overlay.Config

/-!
# Requests

A command line asks for help, for the version, or for one of two commands with a verbosity. Help and
version are answered as soon as they are met; arguments that nothing takes are an error only when
nothing was answered before. Each command has a usage of its own, which its help shows, and which is
shown when its arguments are wrong; whatever no command takes is up to the program as a whole.
-/

namespace Overlay.Command
set_option autoImplicit false

/-- The command to run. -/
inductive Task where
  /-- Show the header of a source, which is a file or the standard input; a name of null is not given. -/
  | header (source : Option Text) (name receiver : PlainDatum)
  /-- Check a record of mitigation options. -/
  | options (record : Text)

/-- What has a usage of its own: the program, and each of its commands. -/
inductive Part where
  | program
  | header
  | options
  deriving DecidableEq, Repr

/-- What a command line asks for. -/
inductive Request where
  | help (part : Part)
  | version
  | wrongUsage (part : Part)
  /-- No command was given. -/
  | nothing
  | run (verbosity : Nat) (task : Task)

/-- The switches in front of the command. -/
inductive Global where
  | help
  | version
  | verbose
  deriving DecidableEq, Repr

/-- The spellings of the switches in front of the command. -/
def globals : Switches Global :=
  [("-h", ⟨.help, false⟩), ("--help", ⟨.help, false⟩), ("--version", ⟨.version, false⟩),
    ("-v", ⟨.verbose, false⟩), ("--verbose", ⟨.verbose, false⟩)]

/-- The switches of the commands. -/
inductive Local where
  | help
  | name
  | receiver
  deriving DecidableEq, Repr

/-- The spelling of the switches that every command has. -/
def helpSwitches : Switches Local :=
  [("-h", ⟨.help, false⟩), ("--help", ⟨.help, false⟩)]

/-- The spelling of the switches of the header command. -/
def headerSwitches : Switches Local :=
  [("-h", ⟨.help, false⟩), ("--help", ⟨.help, false⟩), ("--name", ⟨.name, true⟩),
    ("--receiver", ⟨.receiver, true⟩)]

/-- What has been read of a command's arguments. -/
structure Given where
  operand : Option Text := none
  /-- The argument before was the operand. -/
  atOperand : Bool := false
  name : PlainDatum := .null
  receiver : PlainDatum := .str ({} : Config).receiver
  stray : Bool := false

/-- The value of a switch. Two dashes that are attached to it are taken for the end of the switches, and
nothing is left of the value. -/
def switchValue (value : Option Text) : PlainDatum :=
  match value with
  | some t => if t == twoDashes then .list none [] else .str t
  | none => .null

/-- Reads the marks of a command's arguments; the answer to help, or to a wrong argument, comes at
once. -/
def Given.read (part : Part) (g : Given) : List (Mark Local) → Except Request Given
  | [] => .ok g
  | .wrong :: _ => .error (.wrongUsage part)
  | .stray :: rest => Given.read part { g with stray := true, atOperand := false } rest
  | .switch .help _ :: _ => .error (.help part)
  | .switch .name v :: rest => Given.read part { g with name := switchValue v, atOperand := false } rest
  | .switch .receiver v :: rest => Given.read part { g with receiver := switchValue v, atOperand := false } rest
  | .divider _ :: rest =>
    Given.read part { g with stray := g.stray || (g.operand.isSome && !g.atOperand), atOperand := false } rest
  | .operand text _ :: rest =>
    if g.operand.isSome then Given.read part { g with stray := true, atOperand := false } rest
    else Given.read part { g with operand := some text, atOperand := true } rest

/-- Reads a command's arguments. -/
def readLocal (part : Part) (switches : Switches Local) (args : List Text) : Except Request Given :=
  if hasAmbiguity switches args then .error (.wrongUsage part) else Given.read part {} (scan switches args)

/-- Reads the arguments of a command: the task, and whether an argument was left over. -/
def readTask (command : Text) (args : List Text) : Except Request (Task × Bool) :=
  if command == "header" then do
    let g ← readLocal .header headerSwitches args
    return (.header g.operand g.name g.receiver, g.stray)
  else if command == "options" then do
    let g ← readLocal .options helpSwitches args
    match g.operand with
    | some record => return (.options record, g.stray)
    | none => throw (.wrongUsage .options)
  else .error (.wrongUsage .program)

/-- Reads the marks in front of the command, and the command where it comes. -/
def readGlobal (verbosity : Nat) (stray : Bool) : List (Mark Global) → Request
  | [] => if stray then .wrongUsage .program else .nothing
  | .wrong :: _ => .wrongUsage .program
  | .divider _ :: _ => .wrongUsage .program
  | .stray :: rest => readGlobal verbosity true rest
  | .switch .help _ :: _ => .help .program
  | .switch .version _ :: _ => .version
  | .switch .verbose _ :: rest => readGlobal (verbosity + 1) stray rest
  | .operand command args :: _ =>
    match readTask command args with
    | .error r => r
    | .ok (task, left) => if stray || left then .wrongUsage .program else .run verbosity task

/-- Reads a command line. -/
def Request.ofArgs (args : List Text) : Request :=
  if hasAmbiguity globals args then .wrongUsage .program else readGlobal 0 false (scan globals args)

end Overlay.Command
