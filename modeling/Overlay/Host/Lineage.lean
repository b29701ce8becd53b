import Overlay.Host.Access

/-!
# Lineage

A constructor's real prototype links objects to constructors and constructors to each other. The
direct constructor of a value is the `constructor` that its immediate prototype owns; the super
constructor of a host function is the direct constructor of its prototype, unless that is the
function itself or no callable. In scripts these are `direct_constructor` and `super_ctor`.
-/

namespace Overlay
set_option autoImplicit false

namespace Host

/-- `proto` is a strict ancestor of the value; a plain function descends from the host's function
prototype. -/
def inheritsFrom (w : World) (h : HostId) (v proto : Value) : Except Fault Bool :=
  match proto with
  | .obj p =>
    match v with
    | .obj o => w.heap.inherits o p
    | _ =>
      if w.isCallable v then
        let start := (w.host h).functionPrototype
        if start == p then .ok true else w.heap.inherits start p
      else .ok false
  | _ => .ok false

/-- The prototype of a host function, or null. -/
def prototypeMember (w : World) (f : Value) : Value :=
  (w.hostFn? f).elim .null (·.prototype)

/-- The value was made by the host function or by one that descends from it. -/
def instanceOf (w : World) (h : HostId) (v f : Value) : Except Fault Bool :=
  inheritsFrom w h v (prototypeMember w f)

/-- The `constructor` that a prototype owns, or null. -/
def ownConstructor (heap : Heap) (proto : Value) : Except Fault Value :=
  match proto with
  | .null => .ok .null
  | .obj o => .ok (if heap.owns o "constructor" then (heap.get o).bag.get "constructor" else .null)
  | _ => .error .noMember

/-- The `constructor` that the value's immediate prototype owns, or null. -/
def directConstructor (w : World) (h : HostId) (v : Value) : Except Fault Value := do
  ownConstructor w.heap (← prototypeOf w h v)

/-- The category of a callable. -/
def category? (w : World) (v : Value) : Option Category :=
  match v with
  | .fn f => some (.plain f)
  | _ => (w.hostFn? v).map fun f => .host f.category

/-- The nearest real ancestor constructor of a callable, or null. -/
def superConstructor (w : World) (h : HostId) (f : Value) : Except Fault Value := do
  match prototypeMember w f with
  | .null => return .null
  | prototype =>
    let ctor ← directConstructor w h prototype
    return if w.isCallable ctor && !ctor.eqv f then ctor else .null

/-- Whether a name is to be left out; the question may have no answer. -/
abbrev Exclusion := Name → Except Fault Bool

/-- Leaves out nothing. -/
def excludeNone : Exclusion :=
  fun _ => .ok false

/-- Leaves out the coercion members of some settings. -/
def excludeCoercion (config : Config) : Exclusion :=
  fun n => .ok (config.isCoercionMember n.key)

/-- The names that a value owns, less those to leave out. -/
def ownNames (w : World) (v : Value) (exclude : Exclusion) : Except Fault (List Name) :=
  match v with
  | .obj o => (w.heap.get o).bag.names.filterM fun n => (!·) <$> exclude n
  | _ => .ok []

/-- The property is a method that is not to be left out. -/
def isMethod (w : World) (exclude : Exclusion) (p : Property) : Except Fault Bool :=
  if p.name.key == "constructor" then .ok false
  else do return !(← exclude p.name) && w.isCallable p.value

/-- The names of the methods that a host function's prototype owns, less those to leave out. -/
def methodNames (w : World) (f : Value) (exclude : Exclusion) : Except Fault (List Name) :=
  match prototypeMember w f with
  | .null => .ok []
  | .obj p => (·.map (·.name)) <$> (w.heap.get p).bag.props.filterM (isMethod w exclude)
  | _ => .error .noMember

/-- The number of arguments that a callable takes; zero for what cannot be called. -/
def required (w : World) (v : Value) : Nat :=
  match v with
  | .fn f => (w.fns[f]?.getD default).required
  | _ => 0

/-- The declared number of arguments of a callable. -/
def arity (w : World) (v : Value) : Value :=
  match w.hostFn? v with
  | some f => f.arity
  | none => .int (required w v)

/-- The source text of a callable, or null. -/
def source (w : World) (v : Value) : Value :=
  match w.hostFn? v with
  | some f => f.source
  | none =>
    match v with
    | .fn f => (w.fns[f]?.getD default).source
    | _ => .null

/-- Reads the source text of a callable, and notes in the log when there is none. -/
def sourceText (v : Value) : Act Value := do
  let w ← get
  match w.hostFn? v, source w v with
  | none, .null =>
    Act.say fun w => .noSource <$> w.describe v
    return .null
  | _, s => return s

end Host

end Overlay
