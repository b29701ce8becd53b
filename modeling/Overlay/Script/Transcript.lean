import Overlay.Script.Eval

/-!
# Transcripts

A run starts with one host, one object of outer bindings and one plugin, and performs the steps one
after the other. A step that stops does not end the run; what it did stays done. Each step gives an
answer, in which objects and functions go by their labels, and the log lines that were written
during it.
-/

namespace Overlay.Script
set_option autoImplicit false

/-- What kind of thing a label stands for. -/
inductive LabelKind where
  | object
  | host
  | function
  deriving DecidableEq, Repr

/-- The label of an object or a function. -/
structure Label where
  kind : LabelKind
  text : Text
  deriving DecidableEq, Repr

/-- A value as an answer shows it. -/
abbrev Shown := Datum Label

/-- What an answer shows of a host function besides its object. -/
structure ShownFunction where
  category : Nat
  arity : Shown
  source : Shown
  prototype : Shown

/-- An object in full. -/
structure Dump where
  self : Shown
  proto : Shown
  frozen : Bool
  props : List (Shown × Bool × Shown)
  function : Option ShownFunction

/-- The answer to a step that did not stop. -/
inductive Answer where
  | value (v : Shown)
  | dump (d : Dump)

/-- The outcome of a step: its answer or the fault that stopped it, and the log lines. -/
structure Outcome where
  result : Except Fault Answer
  log : List LogLine

/-- A transcript: the log lines of the start, and the outcome of each step. -/
structure Transcript where
  start : List LogLine
  outcomes : List Outcome

/-- Shows an object or a function by its label. Hosts, plugins and tables are not shown. -/
def showRef (r : Ref) : Act Shown := do
  let w ← get
  let labelled (kind : LabelKind) : Act Shown := do
    let (text, naming) := w.naming.ensure r
    set { w with naming := naming }
    return .ref ⟨kind, text⟩
  match r with
  | .object o => labelled (if (w.heap.hostFn? o).isSome then .host else .object)
  | .function _ => labelled .function
  | .table _ | .host _ | .plugin _ => Act.stop .badScript

/-- How deep lists may be nested in an answer. -/
def answerDepth : Nat := 480

mutual

/-- Shows a value whose lists are nested at most so deep, giving labels from left to right. -/
def showWithin : Value → Nat → Act Shown
  | .null, _ => return .null
  | .undefined, _ => return .undefined
  | .bool b, _ => return .bool b
  | .int i, _ => return .int i
  | .float x, _ => return .float x
  | .nan _, _ => return .nan none
  | .str s, _ => return .str s
  | .list _ items, depth + 1 => do return .list none (← showItems items depth)
  | .record entries, depth + 1 => do return .record (← showEntries entries depth)
  | .list _ _, 0 | .record _, 0 => Act.stop .tooDeep
  | .ref r, _ => showRef r

/-- Shows the items of a list. -/
def showItems : List Value → Nat → Act (List Shown)
  | [], _ => return []
  | v :: rest, depth => do
    let s ← showWithin v depth
    return s :: (← showItems rest depth)

/-- Shows the entries of a record. -/
def showEntries : List (Value × Value) → Nat → Act (List (Shown × Shown))
  | [], _ => return []
  | (k, v) :: rest, depth => do
    let key ← showWithin k depth
    let value ← showWithin v depth
    return (key, value) :: (← showEntries rest depth)

end

/-- Shows a value. -/
def showValue (v : Value) : Act Shown :=
  showWithin v answerDepth

/-- Shows a property: its name, whether enumerations show it, and its value. -/
def showProperty (p : Property) : Act (Shown × Bool × Shown) := do
  let name ← showValue p.name.value
  return (name, p.enumerable, ← showValue p.value)

/-- Shows an object in full. -/
def dumpObject (o : ObjId) : Act Dump := do
  let x := (← get).heap.get o
  let self ← showValue (.obj o)
  let proto ← showValue x.proto
  let props ← x.bag.props.mapM showProperty
  let function ← match x.host with
    | some f =>
      let arity ← showValue f.arity
      let source ← showValue f.source
      pure (some ⟨f.category, arity, source, ← showValue f.prototype⟩)
    | none => pure none
  return ⟨self, proto, x.bag.frozen, props, function⟩

/-- The step shows its result in full. -/
def Step.isDump : Step → Bool
  | .named _ s => s.isDump
  | .compute .dump _ => true
  | _ => false

/-- The name that a step gives to its result. -/
def Step.name? : Step → Option Text
  | .named name _ => some name
  | .makeHost name => some name
  | .makePlugin name _ _ _ => some name
  | _ => none

/-- The step makes a table, which its answer does not show. -/
def Step.isQuiet : Step → Bool
  | .named _ s => s.isQuiet
  | .compute (.table .new) _ => true
  | _ => false

/-- The answer to a step with a result. -/
def answer (s : Step) (v : Value) : Act Answer := do
  if s.isQuiet then return .value .null
  else
    match s.isDump, v with
    | true, .obj o => return .dump (← dumpObject o)
    | _, _ => return .value (← showValue v)

/-- Runs a step on a stack of a depth and gives its answer. -/
def answerStep (depth : Nat) (s : Step) : Act Answer := do
  answer s (← evalStep (invoke depth) s)

/-- The name of a step that stopped is bound to undefined, unless it is bound already. -/
def afterFault (w : World) (s : Step) : World :=
  match s.name? with
  | some name =>
    if (w.vars.find? name).isSome then w else { w with vars := w.vars.insert name .undefined }
  | none => w

/-- Performs a step of a run. -/
def perform (depth : Nat) (w : World) (s : Step) : Outcome × World :=
  let (result, after) := (answerStep depth s).run { w with log := #[] }
  let outcome : Outcome := ⟨result, after.log.toList⟩
  match result with
  | .ok _ => (outcome, after)
  | .error _ => (outcome, afterFault after s)

/-- Performs steps one after the other. -/
def performAll (depth : Nat) : World → List Step → List Outcome
  | _, [] => []
  | w, s :: rest =>
    let (outcome, after) := perform depth w s
    outcome :: performAll depth after rest

/-- Makes what every run starts with. -/
def setUp (settings : Settings) : Act Unit := do
  define "USELESS" (.obj World.useless)
  define "len" (.fn 0)
  define "max" (.fn 1)
  let h ← Host.make
  defineHost "h" h
  let outers ← Act.begetFrom (.obj ((← get).host h).objectPrototype)
  define "outers" (.obj outers)
  definePlugin "v" (← Plugin.make h (← settings.check) (.obj outers))

/-- The world in which the first step of a script runs, unless the settings are refused. -/
def start (settings : Settings) (logging : Bool) : Except Fault World :=
  match (setUp settings).run { World.initial with logging := logging } with
  | (.ok _, w) => .ok w
  | (.error f, _) => .error f

/-- Runs a script, with a log or without one. -/
def run (settings : Settings) (logging : Bool) (steps : List Step) : Except Fault Transcript := do
  let w ← start settings logging
  return ⟨w.log.toList, performAll stackDepth w steps⟩

/-- The message of a fault that the library reports, as a transcript shows it. -/
def faultText? (f : Fault) : Option Text :=
  f.report?.map fun r => Text.scrub r.text

/-- A log line as a transcript shows it. -/
def logText (l : LogLine) : Text :=
  Text.scrub (l.level.word ++ " " ++ l.source ++ ": " ++ l.message)

end Overlay.Script
