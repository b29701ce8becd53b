import Overlay.Datum.Order
import Overlay.Script.Operation

/-!
# Running scripts

Steps are evaluated by recursion on the script; only the call of a function leads back into a script,
and it goes through the `Invoker`. `invoke` ties the knot: nested calls take their levels of a stack,
and a script that nests deeper than the stack stops.
-/

namespace Overlay.Script
set_option autoImplicit false

/-- Members with each name once: the first place and the last value. -/
def uniqueMembers (members : List (Name × Value)) : List (Name × Value) :=
  (Bag.ofMembers members).props.map fun p => (p.name, p.value)

/-- Begets an object from the last one, so many times. -/
def nest : Nat → Value → Act Value
  | 0, v => return v
  | n + 1, v => do nest n (.obj (← Host.beget v))

/-- Names a host and its roots. -/
def defineHost (name : Text) (h : HostId) : Act Unit := do
  let host := (← get).host h
  define name (.ref (.host h))
  define (name ++ ".Object") (.obj host.object)
  define (name ++ ".Function") (.obj host.function)
  define (name ++ ".object_prototype") (.obj host.objectPrototype)
  define (name ++ ".function_prototype") (.obj host.functionPrototype)

/-- Names a plugin and its roots. -/
def definePlugin (name : Text) (p : PluginId) : Act Unit := do
  let roots := ((← get).plugin p).roots
  define name (.ref (.plugin p))
  define (name ++ ".object_prototype") (.obj roots.objectPrototype)
  define (name ++ ".disfunction_prototype") (.obj roots.functionPrototype)
  define (name ++ ".disfunction") (.obj roots.function)
  define (name ++ ".object_shadow") (.obj roots.objectShadow)

/-- Makes a plugin over the host that a value is, or over one of its own when the value does not count as
true. What is no host is refused when it is needed. -/
def makePluginOn (target outers : Value) (settings : Settings) : Act PluginId := do
  match target with
  | .ref (.host h) => Plugin.make h (← settings.check) outers
  | _ =>
    if (← get).isTruthy target then
      Plugin.warn (← settings.check)
      Act.stop .noMember
    else
      let h ← Host.make
      Plugin.make h (← settings.check) outers

/-- Makes a plugin over a named host, or over a host of its own, which then gets a name as well. -/
def makePlugin (name : Text) (outers : Value) (on : Option Text) (settings : Settings) : Act Unit := do
  match on with
  | some on => definePlugin name (← makePluginOn (← readCommon on) outers settings)
  | none =>
    let p ← makePluginOn .null outers settings
    defineHost (name ++ ".host") ((← get).plugin p).host
    definePlugin name p

/-- A floating-point number as it is spelled. -/
def readNumeral (text : Text) : Act Value :=
  match Spelled.ofText? text with
  | some (.number x) => return .float x
  | some .noNumber => Act.newNan
  | none => Act.stop .badValue

mutual

/-- Evaluates an argument. -/
def evalExpr (invoke : Invoker) : Expr → Act Value
  | .datum v => return v
  | .numeral text => readNumeral text
  | .list items => do Act.newList (← evalExprs invoke items)
  | .var name => readVar name
  | .step s => evalStep invoke s
  | .refused f => Act.stop f

/-- Evaluates arguments from left to right. -/
def evalExprs (invoke : Invoker) : List Expr → Act (List Value)
  | [] => return []
  | e :: rest => do
    let v ← evalExpr invoke e
    return v :: (← evalExprs invoke rest)

/-- Evaluates named arguments from left to right. -/
def evalMembers (invoke : Invoker) : List (Value × Expr) → Act (List (Name × Value))
  | [] => return []
  | (name, e) :: rest => do
    let v ← evalExpr invoke e
    let n ← Name.ofValue name
    return (n, v) :: (← evalMembers invoke rest)

/-- Runs a step. -/
def evalStep (invoke : Invoker) : Step → Act Value
  | .named name s => do
    let v ← evalStep invoke s
    bind name v
    return v
  | .compute op args => do op.run invoke (← evalExprs invoke args)
  | .function name params body source => do
    Act.newFn (.user ⟨← checkDeclaration name params, params, body, source⟩)
  | .new proto props hidden => do
    let link ← evalExpr invoke proto
    let members ← evalMembers invoke props
    let o ← Act.alloc { proto := link, bag := .ofMembers members }
    (← evalMembers invoke hidden).forM fun m => Act.putHidden o m.1.value m.2
    return .obj o
  | .nest start times => do nest times (← evalExpr invoke start)
  | .defineFunction on name impl arity source => do
    let h ← hostNamed on
    return .obj (← Host.defineFunction h (.value (← evalExpr invoke impl)) ⟨name, arity, source⟩)
  | .defineConstructor on name init parent methods statics arity source => do
    let h ← hostNamed on
    let init ← evalExpr invoke init
    let parent ← evalExpr invoke parent
    let methods ← evalMembers invoke methods
    let statics ← evalMembers invoke statics
    return .obj (← Host.defineConstructor h ⟨name, arity, source⟩ init parent (uniqueMembers methods)
      (uniqueMembers statics))
  | .hostFunction name impl proto prototype arity source => do
    let impl ← evalExpr invoke impl
    let proto ← evalExpr invoke proto
    let prototype ← evalExpr invoke prototype
    return .obj (← Host.newFunction (.value impl) ⟨name, arity, source⟩ proto prototype)
  | .makeHost name => do
    let h ← Host.make
    defineHost name h
    return .null
  | .makePlugin name outers on settings => do
    makePlugin name (← evalExpr invoke outers) on settings
    return .null

end

/-- Runs a function's body: the last step's result, or null for no steps. -/
def evalBody (invoke : Invoker) : List Step → Act Value
  | [] => return .null
  | [s] => evalStep invoke s
  | s :: rest => do
    let _ ← evalStep invoke s
    evalBody invoke rest

/-- The greatest of a value and the ones after it, the first of several; a fault if two of them have no
order. -/
def greatest (best : Value) : List Value → Except Fault Value
  | [] => .ok best
  | v :: rest =>
    match Datum.isLess? best v with
    | some less => greatest (if less then v else best) rest
    | none => .error .badCall

/-- The greatest of the arguments, or of the parts of a single one. -/
def maximum : List Value → Except Fault Value
  | [] => .error .badCall
  | [v] =>
    match v.parts? with
    | some (x :: xs) => greatest x xs
    | some [] => .error .badValue
    | none => .error .badCall
  | x :: xs => greatest x xs

/-- Calls a plain function. -/
def runFn (invoke : Invoker) (f : Fn) (args : List Value) : Act Value :=
  match f, args with
  | .size, [v] => do lengthOf (← get) v
  | .size, _ => Act.stop .badCall
  | .maximum, xs => do Act.settle (← maximum xs)
  | .user d, xs => do inFrame (← enterFrame d.params xs) (evalBody invoke d.body)
  | .applier raw, [this] => Host.call invoke raw (.obj World.useless) [this]
  | .applier raw, [this, .null] => Host.call invoke raw (.obj World.useless) [this]
  | .applier raw, [this, .undefined] => Host.call invoke raw (.obj World.useless) [this]
  | .applier raw, [this, xs] => do
    Host.call invoke raw (.obj World.useless) (this :: (← Host.spread xs))
  | .applier _, _ => Act.stop .badCall
  | .binder raw, left => do Act.newFn (.bound raw (← left.mapM Act.settle))
  | .bound raw left, more => Host.call invoke raw (.obj World.useless) (left ++ more)
  | .printer text, _ => return .str text
  | .rootPrinter answer, _ => return answer
  | .forward h name, this :: rest => do
    Host.call invoke (← Host.read h this name) this rest
  | .forward _ _, [] => Act.stop .badCall

/-- Calls a value directly: a plain function on the arguments, a host function without a receiver. -/
def callDirectly (invoke : Invoker) (v : Value) (args : List Value) : Act Value := do
  let w ← get
  match v with
  | .fn f => runFn invoke (w.fns[f]?.getD default) args
  | _ =>
    match w.hostFn? v with
    | some f => f.impl.run invoke (.obj World.useless) args
    | none => Act.stop .badCall

/-- How many levels of the stack a call takes besides the first. -/
def furtherLevels (w : World) : Value → Nat
  | .fn f =>
    match w.fns[f]?.getD default with
    | .user _ => 2
    | .applier _ | .bound _ _ | .forward _ _ => 1
    | _ => 0
  | _ => 0

/-- Calls a value on a stack with so many levels, of which the call around it still takes some. -/
def invokeAfter : Nat → Nat → Invoker
  | 0, _, _, _ => Act.stop .tooDeep
  | levels + 1, taken + 1, v, args => invokeAfter levels taken v args
  | levels + 1, 0, v, args => do
    callDirectly (invokeAfter levels (furtherLevels (← get) v)) v args

/-- Calls a value on a stack with so many levels. -/
def invoke (levels : Nat) : Invoker :=
  invokeAfter levels 0

/-- How many levels the stack has when nothing else is said. -/
def stackDepth : Nat := 980

end Overlay.Script
