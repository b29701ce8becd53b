import Overlay.Describe

/-!
# Actions

An action yields a value or a fault and, in either case, the world as it was left: what an operation
did before it stopped stays done. Objects change only through `putProperty`, `eraseProperty` and
`freeze`, and the first two stop at a frozen object.
-/

namespace Overlay
set_option autoImplicit false

/-- A computation that changes the world and may stop with a fault. -/
abbrev Act := ExceptT Fault (StateM World)

/-- How a callable value is called on arguments. -/
abbrev Invoker := Value → List Value → Act Value

namespace Act

/-- Stops with a fault. -/
def stop {α : Type} (f : Fault) : Act α :=
  throw f

/-- Adds a line to the log, if one is kept; only then the line is made. The log is a handler that
collects finished lines and hands on every fault that stops one from being made. A handler that writes
to a stream hands on nesting too deep (`Fault.tooDeep`) only, and leaves out the line for any other
fault. -/
def say (line : World → Except Fault LogLine) : Act Unit := do
  let w ← get
  if w.logging then
    let line ← line w
    set { w with log := w.log.push line }

/-- Makes an object. -/
def alloc (x : Obj) : Act ObjId :=
  modifyGet fun w => (w.heap.size, { w with heap := w.heap.push x })

/-- Makes an object with a prototype and no properties. -/
def begetFrom (proto : Value) : Act ObjId :=
  alloc { proto := proto }

/-- Makes a function. -/
def newFn (f : Fn) : Act Value :=
  modifyGet fun w => (.fn w.fns.size, { w with fns := w.fns.push f })

/-- Draws a category. -/
def drawCategory : Act Nat :=
  modifyGet fun w => (w.nextCategory, { w with nextCategory := w.nextCategory + 1 })

/-- Draws a mark. -/
def drawMark : Act Nat :=
  modifyGet fun w => (w.nextMark, { w with nextMark := w.nextMark + 1 })

/-- Makes a list that is like no other. -/
def newList (items : List Value) : Act Value := do
  return .list (some (← drawMark)) items

/-- Makes a result that is no number and equals no other. -/
def newNan : Act Value := do
  return .nan (some (← drawMark))

/-- Marks a list that has no mark yet. -/
def settle (v : Value) : Act Value :=
  match v with
  | .list none items => newList items
  | _ => return v

/-- Replaces the bag of an object. -/
def setBag (o : ObjId) (b : Bag) : Act Unit :=
  modify fun w => { w with heap := w.heap.setBag o b }

/-- Puts a property of an object that is not frozen. -/
def putProperty (o : ObjId) (name value : Value) (enumerable : Bool) : Act Unit := do
  let w ← get
  let bag := (w.heap.get o).bag
  if bag.frozen then stop (.frozen .set (← w.bare name))
  else setBag o (bag.put (← Name.ofValue name) value enumerable)

/-- Puts a property that enumerations leave out. -/
def putHidden (o : ObjId) (name value : Value) : Act Unit :=
  putProperty o name value false

/-- Erases a property of an object that is not frozen, and tells whether it was there. -/
def eraseProperty (o : ObjId) (name : Value) : Act Bool := do
  let w ← get
  let bag := (w.heap.get o).bag
  if bag.frozen then stop (.frozen .delete (← w.bare name))
  else
    let n ← Name.ofValue name
    setBag o (bag.erase n.key)
    return bag.owns n.key

/-- Freezes an object. -/
def freeze (o : ObjId) : Act Unit := do
  let w ← get
  setBag o (w.heap.get o).bag.freeze

end Act

end Overlay
