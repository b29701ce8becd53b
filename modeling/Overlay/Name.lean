import Overlay.Fault
import Overlay.Value

/-!
# Names

Any value but a list and a record can name a property or a category. Two values are one name when they
are equal: a truth value, an integer and a floating-point number of one value name the same, and a
result that is no number names what only it names. A key is what equal names have in common, so names
are compared by their keys; a name also keeps the value by which it was first written.
-/

namespace Overlay
set_option autoImplicit false

/-- What tells names apart. -/
inductive Key where
  | text (s : Text)
  | int (i : Int)
  /-- A number that is no integer. -/
  | float (x : Binary64)
  | nan (mark : Option Nat)
  | null
  | undefined
  | ref (r : Ref)
  deriving DecidableEq, Repr, Inhabited

namespace Key

/-- The key of a datum whose references have the keys that `ofRef` gives; none for lists and records. -/
def ofDatum? {ρ : Type} (ofRef : ρ → Key) : Datum ρ → Option Key
  | .null => some .null
  | .undefined => some .undefined
  | .bool b => some (.int (if b then 1 else 0))
  | .int i => some (.int i)
  | .float x => some (x.toInt?.elim (.float x) .int)
  | .nan m => some (.nan m)
  | .str s => some (.text s)
  | .list _ _ => none
  | .record _ => none
  | .ref r => some (ofRef r)

/-- The key of a value; none for what cannot be a name. -/
def of? (v : Value) : Option Key :=
  ofDatum? .ref v

/-- Some datum of a list has the key. -/
def isAmong (members : List PlainDatum) (k : Key) : Bool :=
  members.any fun d => ofDatum? Empty.elim d == some k

end Key

/-- A text is the key of itself. -/
instance : Coe Text Key := ⟨.text⟩

/-- A name: its key, and the value by which it was first written, whose key it is. -/
structure Name where
  key : Key
  value : Value
  key_eq : Key.of? value = some key

instance : Inhabited Name := ⟨⟨.null, .null, rfl⟩⟩

/-- Names are compared by their keys. -/
instance : BEq Name where
  beq a b := a.key == b.key

/-- The name that a value is; none for what cannot be a name. -/
def Name.of? (v : Value) : Option Name :=
  match h : Key.of? v with
  | some k => some ⟨k, v, h⟩
  | none => none

/-- The name that a value is, or a fault. -/
def Name.ofValue (v : Value) : Except Fault Name :=
  match Name.of? v with
  | some n => .ok n
  | none => .error .badCall

/-- The key of a value, or a fault. -/
def Key.ofValue (v : Value) : Except Fault Key :=
  Name.key <$> Name.ofValue v

end Overlay
