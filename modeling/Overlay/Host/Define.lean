import Overlay.Host.Lineage

/-!
# Defining host functions

A host function draws a category and owns a hidden `name` and `length`. A defined function or
constructor is frozen together with its prototype, which owns a hidden `constructor`; the methods of
a constructor are hidden members of its prototype, its statics visible members of itself. A new host
seeds the object and the function constructor and freezes all it has made. In scripts these are
`define_function`, `define_ctor` and `host`.
-/

namespace Overlay
set_option autoImplicit false

namespace Host

/-- The source text of a host function that has none of its own. -/
def nativeSource (name : Text) : Text :=
  "function " ++ name ++ "() \x7b\n  [native code]\n\x7d"

/-- The arity of an implementation: the receiver is not counted. -/
def implArity (w : World) : Impl → Nat
  | .value v => required w v - 1
  | .ownsName => 1
  | _ => 0

/-- What a host function is made with besides its implementation and its prototypes; an arity or a
source of null is not given. -/
structure Signature where
  name : Value
  arity : Value := .null
  source : Value := .null

/-- The source text of a host function: its own, or the one that its name gives. -/
def Signature.sourceIn (w : World) (s : Signature) : Except Fault Value :=
  if s.source.isNull then (fun name => .str (nativeSource name)) <$> w.bare s.name else .ok s.source

/-- Makes an open host function. -/
def newFunction (impl : Impl) (s : Signature) (proto prototype : Value) : Act ObjId := do
  let category ← Act.drawCategory
  let w ← get
  let arity := if s.arity.isNull then .int (implArity w impl) else s.arity
  let source ← s.sourceIn w
  let f ← Act.alloc { proto := proto, host := some ⟨impl, category, prototype, arity, source⟩ }
  Act.putHidden f (.str "name") s.name
  Act.putHidden f (.str "length") arity
  return f

/-- Defines a function of a host whose roots are given. -/
def define (objectPrototype functionPrototype : ObjId) (impl : Impl) (s : Signature) : Act ObjId := do
  let prototype ← Act.begetFrom (.obj objectPrototype)
  let f ← newFunction impl s (.obj functionPrototype) (.obj prototype)
  Act.putHidden prototype (.str "constructor") (.obj f)
  Act.freeze prototype
  Act.freeze f
  return f

/-- Defines a function. -/
def defineFunction (h : HostId) (impl : Impl) (s : Signature) : Act ObjId := do
  let host := (← get).host h
  define host.objectPrototype host.functionPrototype impl s

/-- The prototype that the instances of a new constructor's parent have. -/
def parentPrototype (w : World) (h : HostId) (parent : Value) : Except Fault Value :=
  match parent with
  | .null => .ok (.obj (w.host h).objectPrototype)
  | _ =>
    match w.hostFn? parent with
    | some f => .ok f.prototype
    | none => .error .noMember

/-- Defines each method as a hidden member of a prototype. -/
def defineMethods (h : HostId) (prototype : ObjId) (methods : List (Name × Value)) : Act Unit :=
  methods.forM fun m => do
    let f ← defineFunction h (.value m.2) { name := m.1.value }
    Act.putHidden prototype m.1.value (.obj f)

/-- What a constructor does to a new object: nothing, when no initialiser is given. -/
def initialiser (w : World) (init : Value) : Impl :=
  if w.isTruthy init then .value init else .nothing

/-- Defines a constructor. -/
def defineConstructor (h : HostId) (s : Signature) (init parent : Value)
    (methods statics : List (Name × Value)) : Act ObjId := do
  let w ← get
  let prototype ← Act.begetFrom (← parentPrototype w h parent)
  let f ← newFunction (initialiser w init) s (.obj (w.host h).functionPrototype) (.obj prototype)
  Act.putHidden prototype (.str "constructor") (.obj f)
  defineMethods h prototype methods
  statics.forM fun m => Act.putProperty f m.1.value m.2 true
  Act.freeze prototype
  Act.freeze f
  return f

/-- Makes a host. -/
def make : Act HostId := do
  let op ← Act.begetFrom .null
  let fp ← Act.begetFrom (.obj op)
  let object ← newFunction (.makeObject op) { name := .str "Object", arity := .int 1 }
    (.obj fp) (.obj op)
  let function ← newFunction .makeFunction { name := .str "Function", arity := .int 1 }
    (.obj fp) (.obj fp)
  Act.putHidden op (.str "constructor") (.obj object)
  Act.putHidden op (.str "toString") (.obj (← define op fp .describe { name := .str "toString" }))
  Act.putHidden op (.str "valueOf") (.obj (← define op fp .identity { name := .str "valueOf" }))
  Act.putHidden op (.str "hasOwnProperty")
    (.obj (← define op fp .ownsName { name := .str "hasOwnProperty" }))
  Act.putHidden fp (.str "constructor") (.obj function)
  Act.freeze op
  Act.freeze fp
  Act.freeze object
  Act.freeze function
  let w ← get
  set { w with hosts := w.hosts.push ⟨op, fp, object, function, []⟩ }
  return w.hosts.size

/-- Makes a value the constructor of the plain values of a kind. That it is one shows only when it is
needed; null takes the kind's constructor away. -/
def registerPrimitive (h : HostId) (kind : Primitive) (ctor : Value) : Act Unit :=
  modify fun w => { w with hosts := w.hosts.modify h fun x =>
    { x with primitives := (kind, ctor) :: x.primitives.filter (·.1 != kind) } }

end Host

end Overlay
