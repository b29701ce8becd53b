import Overlay.Command.Path
import Overlay.Command.Request
import Overlay.Datum.Json
import Overlay.Header
import Overlay.Log
import Overlay.Mitigation
import Overlay.Text.Newlines

/-!
# Running a command

`plan` says what a request needs from outside: nothing, the standard input, or a file. What comes of
it is an ending: an exit code with the texts for the two outputs, or a crash, when the program has no
answer to what it was given. Log lines below the level that the verbosity asks for are left out.
-/

namespace Overlay.Command
set_option autoImplicit false

/-- How a run ended. -/
structure Exit where
  code : Nat
  output : Text := ""
  errors : Text := ""
  /-- The command line itself ended the run. -/
  atUsage : Bool := false
  deriving DecidableEq, Repr

/-- What the program has no answer to. -/
inductive Crash where
  /-- Input that is no text. -/
  | undecodable
  /-- A path that leads nowhere. -/
  | noWay (why : NoWay)
  /-- A receiver that is no text. -/
  | badReceiver
  /-- An integer with too many digits in an option record. -/
  | hugeInteger
  /-- An option record that is nested too deeply. -/
  | tooDeep
  deriving DecidableEq, Repr

/-- How a run ended. -/
inductive Ending where
  | exit (e : Exit)
  | crash (c : Crash)
  deriving DecidableEq, Repr

/-- What the standard input gives. -/
inductive Input where
  | bytes (b : ByteArray)
  | interrupted

/-- What stands at a place in the file tree. -/
inductive Entry where
  | missing
  | directory
  | file (b : ByteArray)
  /-- A name is too long for the file system to tell. -/
  | nameTooLong

/-- What a run needs from outside. -/
inductive Plan where
  | done (e : Ending)
  | readInput (andThen : Input → Ending)
  | readFile (path : Text) (andThen : Place → Entry → Ending)

/-- The version that is shown. -/
def versionText : Text := "valija 0.1.0\n"

/-- The usage, which is shown when a command line is wrong. The line on what is wrong with it, which is
shown after the usage, is left out. -/
def usageText : Part → Text
  | .program => "usage: valija [-h] [--version] [-v] <command> ...\n"
  | .header => "usage: valija header [-h] [--name NAME] [--receiver RECEIVER] [source]\n"
  | .options => "usage: valija options [-h] record\n"

/-- The help, in lines of up to eighty characters. -/
def helpText (part : Part) : Text :=
  usageText part ++
  match part with
  | .program =>
    "\nValija runtime tools.\n\n" ++
    "options:\n" ++
    "  -h, --help     show this help message and exit\n" ++
    "  --version      show program's version number and exit\n" ++
    "  -v, --verbose  Increase verbosity (-v info, -vv debug).\n\n" ++
    "commands:\n" ++
    "  <command>\n" ++
    "    header       Print the redacted toString of a function's source.\n" ++
    "    options      Validate a mitigation option record (JSON).\n\n" ++
    "examples:\n" ++
    "  valija header point.js\n" ++
    "  valija options '\x7b\"rewritePropertyUpdateExpr\": true\x7d'\n"
  | .header =>
    "\npositional arguments:\n" ++
    "  source               Source file (\"-\" or omit for stdin).\n\n" ++
    "options:\n" ++
    "  -h, --help           show this help message and exit\n" ++
    "  --name NAME          Display name (default: recovered from the header).\n" ++
    "  --receiver RECEIVER  Reserved receiver parameter to strip (default: " ++ ({} : Config).receiver ++ ").\n"
  | .options =>
    "\npositional arguments:\n" ++
    "  record      JSON object of rewrite flags.\n\n" ++
    "options:\n" ++
    "  -h, --help  show this help message and exit\n"

/-- The least level that a verbosity shows. -/
def threshold : Nat → LogLevel
  | 0 => .warning
  | 1 => .info
  | _ => .debug

/-- A word of five characters, cut or filled with spaces. -/
def fiveWide (s : Text) : Text :=
  s.take 5 ++ List.replicate (5 - s.length) (.char ' ')

/-- A log line as it is printed. -/
def logText (l : LogLine) : Text :=
  "[" ++ fiveWide l.level.word ++ "] " ++ l.source ++ ": " ++ l.message ++ "\n"

/-- The log lines that a verbosity shows. -/
def shownLog (verbosity : Nat) (lines : List LogLine) : Text :=
  (lines.filter fun l => decide ((threshold verbosity).weight ≤ l.level.weight)).flatMap logText

/-- A line of the program itself. -/
def remark (level : LogLevel) (message : Text) : LogLine :=
  ⟨level, "valija", message⟩

/-- The end of a run that only says why it failed. -/
def failed (verbosity code : Nat) (level : LogLevel) (message : Text) : Ending :=
  .exit { code := code, errors := shownLog verbosity [remark level message] }

/-- The end of the header command for a source. -/
def showHeader (verbosity : Nat) (name receiver : PlainDatum) (source : Text) : Ending :=
  match Header.renderData receiver (.str ({} : Config).redactedBody) (.str source) name with
  | .error _ => .crash .badReceiver
  | .ok r =>
    .exit {
      code := 0
      output := r.text ++ "\n"
      errors := shownLog verbosity (if r.found then [] else [.noHeader]) }

/-- The end of the header command for bytes. -/
def headerOfBytes (verbosity : Nat) (name receiver : PlainDatum) (b : ByteArray) : Ending :=
  match Text.ofBytes? b with
  | some source => showHeader verbosity name receiver source
  | none => .crash .undecodable

/-- The end of the header command for the standard input. -/
def headerOfInput (verbosity : Nat) (name receiver : PlainDatum) : Input → Ending
  | .bytes b => headerOfBytes verbosity name receiver b
  | .interrupted => failed verbosity 130 .info "Interrupted by user."

/-- The end of a run that the file system refused something. -/
def refusedByFiles (verbosity number : Nat) (why : Text) (place : Place) : Ending :=
  failed verbosity 2 .error
    ("I/O failure: [Errno " ++ toString number ++ "] " ++ why ++ ": " ++ Text.quote place.text)

/-- The end of the header command for a place in the file tree. -/
def headerOfEntry (verbosity : Nat) (name receiver : PlainDatum) (place : Place) : Entry → Ending
  | .missing => failed verbosity 2 .error ("source file not found: " ++ place.text)
  | .directory => refusedByFiles verbosity 21 "Is a directory" place
  | .nameTooLong => refusedByFiles verbosity 36 "File name too long" place
  | .file b => headerOfBytes verbosity name receiver b

/-- How deep an option record may be nested. -/
def recordDepth : Nat := 990

/-- The end of the options command. -/
def checkOptions (verbosity : Nat) (record : Text) : Ending :=
  match Json.read recordDepth record with
  | .error .malformed => failed verbosity 1 .error "option record is not valid JSON"
  | .error .hugeInteger => .crash .hugeInteger
  | .error .tooDeep => .crash .tooDeep
  | .ok (.record entries) =>
    match Mitigation.Options.ofRecord entries with
    | .error r => failed verbosity 1 .error r.text
    | .ok o =>
      .exit {
        code := 0
        output := (if o.anyEnabled then Text.join ", " o.enabled else "(no rewrites enabled)") ++ "\n" }
  | .ok _ => failed verbosity 1 .error "option record must be a JSON object"

/-- What a request needs. -/
def plan : Request → Plan
  | .help part => .done (.exit { code := 0, output := helpText part, atUsage := true })
  | .version => .done (.exit { code := 0, output := versionText, atUsage := true })
  | .wrongUsage part => .done (.exit { code := 2, errors := usageText part, atUsage := true })
  | .nothing => .done (.exit { code := 2, errors := helpText .program })
  | .run verbosity (.header source name receiver) =>
    match source with
    | none => .readInput (headerOfInput verbosity name receiver)
    | some path =>
      if path == "-" then .readInput (headerOfInput verbosity name receiver)
      else .readFile path (headerOfEntry verbosity name receiver)
  | .run verbosity (.options record) => .done (checkOptions verbosity record)

/-- The files and directories below a working directory, and the homes of the users. -/
structure FileTree where
  cwd : Place
  directories : List Place
  files : List (Place × ByteArray)
  homes : Homes := []

namespace FileTree

/-- A directory stands at the place: no file does, and it was made, or something below it was. -/
def isDirectory (t : FileTree) (p : Place) : Bool :=
  t.files.all (!·.1.isSame p) &&
    (p.isSame {} || p.isAbove t.cwd || t.directories.any p.isAbove || t.files.any (p.isAbove ·.1) ||
      t.homes.any (p.isAbove ·.2))

/-- The number of bytes of a name. -/
def byteCount (name : Text) : Nat :=
  ((nameBytes? name).getD []).length

/-- What stands below a directory, or at a place that is none. -/
def entryBelow (t : FileTree) (p : Place) : List Text → Entry
  | [] =>
    match t.files.find? (·.1.isSame p) with
    | some (_, b) => .file b
    | none => if t.isDirectory p then .directory else .missing
  | part :: rest =>
    if !t.isDirectory p then .missing
    else if Place.partLimit < byteCount part then .nameTooLong
    else t.entryBelow { p with parts := p.parts ++ [part] } rest

/-- What stands at a place. The parts of its path are taken one after the other, and the first that is
no directory, or has too long a name, decides. -/
def entry (t : FileTree) (p : Place) : Entry :=
  if Place.pathLimit < byteCount p.text then .nameTooLong
  else t.entryBelow { p with parts := [] } p.parts

end FileTree

/-- Runs a command line against a file tree and a standard input. -/
def runOn (t : FileTree) (input : Input) (args : List Text) : Ending :=
  match plan (.ofArgs args) with
  | .done e => e
  | .readInput andThen => andThen input
  | .readFile path andThen =>
    match locate t.homes t.cwd path with
    | .ok place => andThen place (t.entry place)
    | .error why => .crash (.noWay why)

end Overlay.Command
