import Overlay.Name

/-!
# Property bags

A bag holds properties in the order in which their names came in. Putting a name that is there keeps
its place and its spelling and replaces its value and its visibility; erasing a name and putting it
again moves it to the end. Whoever changes a bag sees first that it is not frozen.
-/

namespace Overlay
set_option autoImplicit false

/-- A named value, shown in enumerations or not. -/
structure Property where
  name : Name
  value : Value
  enumerable : Bool
  deriving Inhabited

/-- Properties in order, and whether they may still change. -/
structure Bag where
  props : List Property := []
  frozen : Bool := false
  deriving Inhabited

namespace Bag

/-- The property of a key. -/
def find? (b : Bag) (k : Key) : Option Property :=
  b.props.find? (·.name.key == k)

/-- The bag holds the key. -/
def owns (b : Bag) (k : Key) : Bool :=
  b.props.any (·.name.key == k)

/-- The names, in order. -/
def names (b : Bag) : List Name :=
  b.props.map (·.name)

/-- The value of a key, or undefined. -/
def get (b : Bag) (k : Key) : Value :=
  (b.find? k).elim .undefined (·.value)

/-- The bag holds the key and shows it in enumerations. -/
def isEnumerable (b : Bag) (k : Key) : Bool :=
  (b.find? k).any (·.enumerable)

/-- The properties with `p` in place of the one of its key, or at the end. -/
def insert (props : List Property) (p : Property) : List Property :=
  if props.any (·.name.key == p.name.key) then
    props.map fun q => if q.name.key == p.name.key then { p with name := q.name } else q
  else props ++ [p]

/-- The bag with a value under a name. -/
def put (b : Bag) (name : Name) (value : Value) (enumerable : Bool) : Bag :=
  { b with props := insert b.props ⟨name, value, enumerable⟩ }

/-- The bag without a key. -/
def erase (b : Bag) (k : Key) : Bag :=
  { b with props := b.props.filter (·.name.key != k) }

/-- The bag, closed to changes. -/
def freeze (b : Bag) : Bag :=
  { b with frozen := true }

/-- An open bag of visible members; of two members of one key the last gives the value. -/
def ofMembers (members : List (Name × Value)) : Bag :=
  { props := members.foldl (fun props m => insert props ⟨m.1, m.2, true⟩) [] }

end Bag

end Overlay
