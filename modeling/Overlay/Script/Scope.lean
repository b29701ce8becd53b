import Overlay.Act

/-!
# Variables and labels

A script binds names at two levels: a function that is running has its own frame, and everything
else is common. A name is looked up in the frame first. What is named outside functions also gets
the name as its label, if it has none and the name is not taken; what has to be written without a
label gets the next number. Hosts and plugins are always named, and looked up as what an operation
is about, among the common names, so no frame hides them.
-/

namespace Overlay
set_option autoImplicit false

namespace Bindings

/-- The value of a name. -/
def find? (b : Bindings) (name : Text) : Option Value :=
  b.lookup name

/-- The bindings with a name given a value. -/
def insert (b : Bindings) (name : Text) (v : Value) : Bindings :=
  if b.any (·.1 == name) then b.map fun e => if e.1 == name then (name, v) else e
  else b ++ [(name, v)]

end Bindings

namespace Naming

/-- The label of a reference. -/
def label? (n : Naming) (r : Ref) : Option Text :=
  n.labels.lookup r

/-- Something has the label. -/
def isTaken (n : Naming) (label : Text) : Bool :=
  n.labels.any (·.2 == label)

/-- Labels a reference that has no label with a name that is not taken. -/
def offer (n : Naming) (r : Ref) (label : Text) : Naming :=
  if (n.label? r).isSome || n.isTaken label then n
  else { n with labels := n.labels ++ [(r, label)] }

/-- The label of a reference, which is the next number when it has none. -/
def ensure (n : Naming) (r : Ref) : Text × Naming :=
  match n.label? r with
  | some label => (label, n)
  | none =>
    let label : Text := "#" ++ toString (n.numbered + 1)
    (label, { labels := n.labels ++ [(r, label)], numbered := n.numbered + 1 })

end Naming

namespace Script

/-- The value of a variable. -/
def readVar (name : Text) : Act Value := do
  let w ← get
  match (w.frame.bind (·.find? name)).orElse fun _ => w.vars.find? name with
  | some v => return v
  | none => Act.stop .badScript

/-- Offers a name as the label of an object or a function. -/
def offerLabel (name : Text) (v : Value) : Act Unit :=
  match v with
  | .obj o => modify fun w => { w with naming := w.naming.offer (.object o) name }
  | .fn f => modify fun w => { w with naming := w.naming.offer (.function f) name }
  | _ => return

/-- Names a value outside functions. -/
def define (name : Text) (v : Value) : Act Unit := do
  modify fun w => { w with vars := w.vars.insert name v }
  offerLabel name v

/-- Names a value where the script stands. -/
def bind (name : Text) (v : Value) : Act Unit := do
  match (← get).frame with
  | some frame => modify fun w => { w with frame := some (frame.insert name v) }
  | none => define name v

/-- Runs a function's body in a frame of its own; the frame that was there comes back whatever
happens. -/
def inFrame {α : Type} (frame : Bindings) (body : Act α) : Act α := fun w =>
  let outer := w.frame
  let (result, after) := body { w with frame := some frame }
  (result, { after with frame := outer })

/-- The value that a name has outside functions. -/
def readCommon (name : Text) : Act Value := do
  match (← get).vars.find? name with
  | some v => return v
  | none => Act.stop .noEntry

/-- The host of a name. -/
def hostNamed (name : Text) : Act HostId := do
  match ← readCommon name with
  | .ref (.host h) => return h
  | _ => Act.stop .noMember

/-- The frame of a call: each parameter with its argument. -/
def frameOf? : List Param → List Value → Option Bindings
  | [], [] => some []
  | [], _ :: _ => none
  | .rest name :: ps, args => (frameOf? ps []).map ((name, .list none args) :: ·)
  | .required _ :: _, [] => none
  | .required name :: ps, a :: args => (frameOf? ps args).map ((name, a) :: ·)
  | .optional name :: ps, [] => (frameOf? ps []).map ((name, .undefined) :: ·)
  | .optional name :: ps, a :: args => (frameOf? ps args).map ((name, a) :: ·)

/-- The frame of a call, in which every list has its mark: those given, and the one that a rest parameter
takes. -/
def enterFrame (params : List Param) (args : List Value) : Act Bindings := do
  match frameOf? params (← args.mapM Act.settle) with
  | some frame => frame.mapM fun b => do return (b.1, ← Act.settle b.2)
  | none => Act.stop .badCall

end Script

end Overlay
