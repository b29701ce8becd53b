import Overlay.TypeTag

/-!
# Property access on a host

A property is looked up on an object's path; on a plain value or a plain function, on the path of the
prototype that the host gives it. Null and undefined have no properties, and only objects take new
ones. A value that cannot be a name is refused where a bag is asked for it, and not before.
-/

namespace Overlay
set_option autoImplicit false

namespace Host

/-- The prototype that a registered constructor gives to plain values. -/
def primitivePrototype (w : World) (ctor : Value) : Except Fault Value :=
  if ctor.isNull then .ok .null
  else
    match w.hostFn? ctor with
    | some f => .ok f.prototype
    | none => .error .noMember

/-- The real prototype of a value, or null. -/
def prototypeOf (w : World) (h : HostId) (v : Value) : Except Fault Value :=
  match v with
  | .obj o => .ok (w.heap.get o).proto
  | _ =>
    if w.isCallable v then .ok (.obj (w.host h).functionPrototype)
    else
      match (Primitive.of? v).bind fun kind => (w.host h).primitives.lookup kind with
      | some ctor => primitivePrototype w ctor
      | none => .ok .null

/-- The object at which the look-up of a value's properties starts, if there is one. -/
def searchStart (w : World) (h : HostId) (v : Value) : Except Fault (Option ObjId) :=
  match v with
  | .obj o => .ok (some o)
  | _ => do
    match ← prototypeOf w h v with
    | .null => return none
    | .obj p => return some p
    | _ => .error .noMember

/-- A value owns the name. -/
def hasOwn (w : World) (v name : Value) : Except Fault Bool :=
  match v with
  | .obj o => w.heap.owns o <$> Key.ofValue name
  | _ => .ok false

/-- A value owns the name and shows it in enumerations. -/
def isEnumerable (w : World) (v name : Value) : Except Fault Bool :=
  match v with
  | .obj o => (w.heap.get o).bag.isEnumerable <$> Key.ofValue name
  | _ => .ok false

/-- The value that a name reaches from a value, if it reaches one. -/
def search (w : World) (h : HostId) (v name : Value) : Except Fault (Option Value) := do
  match ← searchStart w h v with
  | some o => w.heap.search o (← Key.ofValue name)
  | none => return none

/-- The names that an enumeration of a value lists. -/
def enumerableKeys (w : World) (h : HostId) (v : Value) : Except Fault (List Name) := do
  match ← searchStart w h v with
  | some o => w.heap.enumerableKeys o
  | none => return []

/-- Stops at null and undefined. -/
def checkBase (w : World) (v name : Value) (access : Access) : Except Fault Unit :=
  match v with
  | .null | .undefined => do .error (.nullBase access (← w.bare name) v.leafText)
  | _ => .ok ()

/-- Tells whether a name can be reached. -/
def has (h : HostId) (v name : Value) : Act Bool := do
  let w ← get
  checkBase w v name .read
  return (← search w h v name).isSome

/-- Reads a property. -/
def read (h : HostId) (v name : Value) : Act Value := do
  let w ← get
  checkBase w v name .read
  return (← search w h v name).getD .undefined

/-- Sets a property of an object. -/
def put (v name x : Value) : Act Value := do
  let w ← get
  checkBase w v name .set
  match v with
  | .obj o =>
    Act.putProperty o name x true
    return x
  | _ => Act.stop (.primitiveBase (← w.bare name) (w.tagWord v))

/-- Deletes a property; what is no object has none to delete. -/
def delete (v name : Value) : Act Bool := do
  checkBase (← get) v name .delete
  match v with
  | .obj o => Act.eraseProperty o name
  | _ => return false

/-- Stops unless a value is an object or null. -/
def checkPrototype (w : World) (proto : Value) : Except Fault Unit :=
  match proto with
  | .null | .obj _ => .ok ()
  | _ => .error (.badPrototype (w.tagWord proto))

/-- Makes an object with the given prototype. -/
def beget (proto : Value) : Act ObjId := do
  checkPrototype (← get) proto
  Act.begetFrom proto

/-- Freezes an object. A host takes the question for one of its own and lacks an argument; what else is no
object cannot be frozen. -/
def freeze (v : Value) : Act Value := do
  match v with
  | .obj o =>
    Act.freeze o
    return v
  | .ref (.host _) => Act.stop .badCall
  | _ => Act.stop .noMember

end Host

end Overlay
