import Overlay.Datum

/-!
# Values

The values of a running plugin are data whose references point to objects and functions. A script also
holds hosts, plugins and tables of its own as values: they are neither objects nor functions, and have
no properties. A reference is a position in the store of its kind, so two references are the same
exactly when they name the same thing.
-/

namespace Overlay
set_option autoImplicit false

/-- The position of an object in the heap. -/
abbrev ObjId := Nat

/-- The position of a function among the functions. -/
abbrev FnId := Nat

/-- The position of a table among the tables. -/
abbrev TableId := Nat

/-- The position of a host among the hosts. -/
abbrev HostId := Nat

/-- The position of a plugin among the plugins. -/
abbrev PluginId := Nat

/-- What a value can refer to. -/
inductive Ref where
  | object (o : ObjId)
  | function (f : FnId)
  | table (t : TableId)
  | host (h : HostId)
  | plugin (p : PluginId)
  deriving DecidableEq, Repr, Inhabited

/-- A value of a running plugin. -/
abbrev Value := Datum Ref

namespace Datum

/-- An object as a value. -/
@[match_pattern] abbrev obj (o : ObjId) : Datum Ref := .ref (.object o)

/-- A function as a value. -/
@[match_pattern] abbrev fn (f : FnId) : Datum Ref := .ref (.function f)

/-- Data without references as a value. -/
def toValue (d : PlainDatum) : Datum Ref :=
  d.mapRefs Empty.elim

end Datum

/-- The kinds of plain values that a host can give a constructor to. -/
inductive Primitive where
  | str
  | int
  | float
  | bool
  | list
  | null
  | undefined
  deriving DecidableEq, Repr

/-- The kind of a plain value. -/
def Primitive.of? : Value → Option Primitive
  | .str _ => some .str
  | .int _ => some .int
  | .float _ => some .float
  | .nan _ => some .float
  | .bool _ => some .bool
  | .list _ _ => some .list
  | .null => some .null
  | .undefined => some .undefined
  | .record _ => none
  | .ref _ => none

end Overlay
