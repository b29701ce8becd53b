import Overlay.Command.Run

/-! The command line: carries out what the plan of a request needs and prints how it ended. -/

namespace Overlay.Command
set_option autoImplicit false

/-- The bytes of a stream up to its end, after those read before. -/
partial def readAll (input : IO.FS.Stream) (before : ByteArray) : IO ByteArray := do
  let chunk ← input.read 65536
  if chunk.isEmpty then return before else readAll input (before ++ chunk)

/-- The working directory. -/
def workingPlace : IO Place := do
  return Place.resolve {} (Text.ofString (toString (← IO.currentDir)))

/-- The home of the user who runs the program. -/
def knownHomes : IO Homes := do
  return ((← IO.getEnv "HOME").map fun home => ((Text.ofString "", Place.resolve {} home) : Text × Place)).toList

/-- What stands at a place in the file tree. -/
def entryAt (place : Place) : IO Entry := do
  try
    return .file (← IO.FS.readBinFile place.text.shown)
  catch
    | .noFileOrDirectory .. => return .missing
    | .inappropriateType .. => return .missing
    | .invalidArgument .. => return .nameTooLong
    | _ => return .directory

/-- What is said of a crash. -/
def Crash.message : Crash → String
  | .undecodable => "the input is not UTF-8"
  | .noWay .unknownUser => "the home directory is not known"
  | .noWay .zeroByte => "the path holds a zero byte"
  | .noWay .noBytes => "the path holds half a character"
  | .badReceiver => "the receiver is no text"
  | .hugeInteger => "the record holds an integer with too many digits"
  | .tooDeep => "the record is nested too deeply"

/-- Prints how a run ended. -/
def finish : Ending → IO UInt32
  | .crash c => do
    (← IO.getStderr).putStrLn c.message
    return 1
  | .exit e => do
    (← IO.getStdout).putStr e.output.shown
    (← IO.getStderr).putStr e.errors.shown
    return e.code.toUInt32

/-- Carries out a plan. -/
def carryOut : Plan → IO UInt32
  | .done e => finish e
  | .readInput andThen => do finish (andThen (.bytes (← readAll (← IO.getStdin) .empty)))
  | .readFile path andThen => do
    match locate (← knownHomes) (← workingPlace) path with
    | .ok place => finish (andThen place (← entryAt place))
    | .error why => finish (.crash (.noWay why))

end Overlay.Command

/-- Runs the command line. -/
def main (args : List String) : IO UInt32 :=
  Overlay.Command.carryOut (Overlay.Command.plan (.ofArgs (args.map Overlay.Text.ofString)))
