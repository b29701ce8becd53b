import Overlay.Host.Define

/-!
# Calls on a host

A host function is called with a receiver, any other callable without one. How a callable value is
called in the end is given as an `Invoker`, so that every statement here holds for any depth of
nested calls. Constructing makes an object from the constructor's prototype and answers it, unless
the body answers an object or a callable.
-/

namespace Overlay
set_option autoImplicit false

/-- Runs the implementation of a host function. -/
def Impl.run (call : Invoker) (impl : Impl) (this : Value) (args : List Value) : Act Value :=
  match impl with
  | .value v => call v (this :: args)
  | .makeObject prototype =>
    match args, this with
    | .obj o :: _, _ => return .obj o
    | _, .obj o => do
      if o == World.useless then return .obj (← Act.begetFrom (.obj prototype)) else return .null
    | _, _ => return .null
  | .makeFunction => Act.stop .functionConstructor
  | .describe => if args.isEmpty then return .str "[object Object]" else Act.stop .badCall
  | .identity => if args.isEmpty then return this else Act.stop .badCall
  | .ownsName => do
    match args with
    | [name] => return .bool (← Host.hasOwn (← get) this name)
    | _ => Act.stop .badCall
  | .nothing => return .null

namespace Host

/-- Calls a callable on a receiver and arguments. -/
def call (invoke : Invoker) (f this : Value) (args : List Value) : Act Value := do
  Act.enforceCallable f "value"
  match (← get).hostFn? f with
  | some host => host.impl.run invoke this args
  | none => invoke f args

/-- What a construction answers: the body's own answer when that is an object or a callable. -/
def constructed (w : World) (made : ObjId) (answer : Value) : Value :=
  match answer with
  | .obj _ => answer
  | _ => if w.isCallable answer then answer else .obj made

/-- The arguments that a value spreads into. -/
def spread (v : Value) : Except Fault (List Value) :=
  match v.parts? with
  | some parts => .ok parts
  | none => .error .badCall

/-- Calls a callable on a receiver and on the arguments that a value spreads into. -/
def callSpread (invoke : Invoker) (f this args : Value) : Act Value := do
  Act.enforceCallable f "value"
  call invoke f this (← spread args)

/-- Makes an object with a constructor. -/
def construct (invoke : Invoker) (ctor args : Value) : Act Value := do
  Act.enforceCallable ctor "constructor"
  let w ← get
  match w.hostFn? ctor, prototypeMember w ctor with
  | none, _ | _, .null => Act.stop (.notConstructor (← w.describe ctor) (w.tagWord ctor))
  | some f, prototype =>
    let made ← Act.begetFrom prototype
    let answer ← f.impl.run invoke (.obj made) (← spread args)
    return constructed (← get) made answer

end Host

end Overlay
