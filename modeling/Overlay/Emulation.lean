import Overlay.Header
import Overlay.Host.Call

/-!
# Emulated functions

An emulated function is an object that descends from a plugin's patchable function prototype. Its
hidden members are the raw callable, whose first parameter is the receiver, two callables that apply
and bind it, a prototype of its own, and what it shows of itself. A forwarder is an emulated function
that calls the method which the receiver really has. In scripts these are `dis` and `forwarder`.
-/

namespace Overlay
set_option autoImplicit false

namespace Emulation

/-- Makes the roots of a plugin's emulation. -/
def seedRoots (h : HostId) (config : Config) : Act Roots := do
  let host := (← get).host h
  let objectPrototype ← Act.begetFrom (.obj host.objectPrototype)
  Act.putHidden objectPrototype (.str "constructor") (.obj host.object)
  let functionPrototype ← Act.begetFrom (.obj objectPrototype)
  let function ← Act.begetFrom (.obj functionPrototype)
  Act.putHidden function (.str "prototype") (.obj functionPrototype)
  Act.putHidden function (.str "length") (.int 1)
  Act.putHidden functionPrototype (.str "constructor") (.obj function)
  Act.putHidden functionPrototype (.str "toString")
    (← Act.newFn (.rootPrinter config.constructorText.toValue))
  let objectShadow ← Act.begetFrom (.obj functionPrototype)
  Act.putHidden objectShadow (.str "prototype") (.obj objectPrototype)
  return ⟨objectPrototype, functionPrototype, function, objectShadow⟩

/-- Renders the header of a callable, and notes in the log when its source has none; that is noted before
the name is written. -/
def renderHeader (config : Config) (raw name : Value) : Act (Header.Rendering Value) := do
  let w ← get
  let source ← Header.sourceOf w.isTruthy (← Host.sourceText raw)
  if (Header.findIn? config.receiver source).isNone then Act.say fun _ => .ok .noHeader
  Header.renderAs w.isTruthy w.bare config.receiver config.redactedBody source name

/-- The length that an emulated function shows for a raw callable of some arity: the receiver is not
counted, and no length is below zero. -/
def shownLength (arity : Value) : Act Value :=
  match arity with
  | .int i => return .int (max (i - 1) 0)
  | .bool _ => return .int 0
  | .float x => return if x.pred.isNegative then .int 0 else .float x.pred
  | .nan _ => Act.newNan
  | _ => Act.stop .badCall

/-- Makes the emulated function of a raw callable; a name of null is not given. -/
def emulate (roots : Roots) (config : Config) (raw name : Value) : Act ObjId := do
  Act.enforceCallable raw "dis() argument"
  let result ← Act.begetFrom (.obj roots.functionPrototype)
  Act.putHidden result (.str "call") raw
  Act.putHidden result (.str "apply") (← Act.newFn (.applier raw))
  Act.putHidden result (.str "bind") (← Act.newFn (.binder raw))
  let prototype ← Act.begetFrom (.obj roots.objectPrototype)
  Act.putHidden prototype (.str "constructor") (.obj result)
  Act.putHidden result (.str "prototype") (.obj prototype)
  Act.putHidden result (.str "length") (← shownLength (Host.arity (← get) raw))
  let r ← renderHeader config raw name
  Act.putHidden result (.str "toString") (← Act.newFn (.printer r.text))
  if (← get).isTruthy r.name then Act.putHidden result (.str "name") r.name
  return result

/-- Makes an emulated function that calls the receiver's real method of a name. -/
def forwarder (h : HostId) (roots : Roots) (config : Config) (name : Value) : Act ObjId := do
  emulate roots config (← Act.newFn (.forward h name)) name

end Emulation

end Overlay
