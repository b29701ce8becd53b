import Overlay.Bag
import Overlay.Fault
import Overlay.Function

/-!
# The heap

An object is a property bag with a link to its prototype and, for a host function, what makes it one.
A link is null or leads to an object that was made earlier, so the walk along the links ends:
`ancestors` recurs on the position and takes no link that does not lead back. A script may also link an
object to a value that is no object; the path of such an object is not whole, and a walk that comes to
its end stops with a fault. Every look-up is stated on the path from an object to the root: the nearest
object that owns a name decides.
-/

namespace Overlay
set_option autoImplicit false

/-- An object. -/
structure Obj where
  proto : Value := .null
  bag : Bag := {}
  host : Option HostFn := none
  deriving Inhabited

/-- The objects, in the order in which they were made. -/
abbrev Heap := Array Obj

namespace Heap

/-- The object at a position; an empty one outside the heap. -/
def get (h : Heap) (o : ObjId) : Obj :=
  h[o]?.getD {}

/-- The heap with the bag of one object replaced. -/
def setBag (h : Heap) (o : ObjId) (b : Bag) : Heap :=
  h.modify o fun x => { x with bag := b }

/-- The strict ancestors of an object, the nearest first. -/
def ancestors (h : Heap) (o : ObjId) : List ObjId :=
  match (h.get o).proto with
  | .obj p => if p < o then p :: ancestors h p else []
  | _ => []
termination_by o

/-- An object and its ancestors, the nearest first. -/
def path (h : Heap) (o : ObjId) : List ObjId :=
  o :: h.ancestors o

/-- The links from an object end at null. -/
def isWhole (h : Heap) (o : ObjId) : Bool :=
  match (h.get o).proto with
  | .obj p => if p < o then isWhole h p else true
  | .null => true
  | _ => false
termination_by o

/-- The object itself owns the key. -/
def owns (h : Heap) (o : ObjId) (k : Key) : Bool :=
  (h.get o).bag.owns k

/-- The nearest owner of a key on the path of an object. -/
def owner? (h : Heap) (o : ObjId) (k : Key) : Option ObjId :=
  (h.path o).find? fun p => h.owns p k

/-- What a walk to the end of the path yields; a fault when the path is not whole. -/
def atEnd {α : Type} (h : Heap) (o : ObjId) (a : α) : Except Fault α :=
  if h.isWhole o then .ok a else .error .noMember

/-- The value that the nearest owner of a key holds, if there is an owner. -/
def search (h : Heap) (o : ObjId) (k : Key) : Except Fault (Option Value) :=
  match h.owner? o k with
  | some p => .ok (some ((h.get p).bag.get k))
  | none => h.atEnd o none

/-- The object or an ancestor owns the key. -/
def has (h : Heap) (o : ObjId) (k : Key) : Except Fault Bool :=
  (·.isSome) <$> h.search o k

/-- The value that the nearest owner holds, or undefined. -/
def lookup (h : Heap) (o : ObjId) (k : Key) : Except Fault Value :=
  (·.getD .undefined) <$> h.search o k

/-- The enumerable names of some bags that are not among the names seen, each name being seen from
the first bag that owns it. -/
def enumerableFrom (seen : List Name) : List Bag → List Name
  | [] => []
  | b :: rest =>
    ((b.props.filter fun p => p.enumerable && !seen.contains p.name).map (·.name)) ++
      enumerableFrom (seen ++ b.names) rest

/-- The names that an enumeration of the object lists: its own, then each ancestor's, less those that
a nearer object owns. -/
def enumerableKeys (h : Heap) (o : ObjId) : Except Fault (List Name) :=
  h.atEnd o (enumerableFrom [] ((h.path o).map fun p => (h.get p).bag))

/-- `p` is a strict ancestor of `o`. -/
def inherits (h : Heap) (o p : ObjId) : Except Fault Bool :=
  if (h.ancestors o).contains p then .ok true else h.atEnd o false

/-- What makes the object a host function. -/
def hostFn? (h : Heap) (o : ObjId) : Option HostFn :=
  (h.get o).host

end Heap

end Overlay
