import Overlay.Act

/-!
# Type tags

Every value has one of six tags. Null is tagged as an object; a host function, although an object, is
tagged as a function. `enforceType` stops unless a value has the tag asked for.
-/

namespace Overlay
set_option autoImplicit false

/-- The tag of a value. -/
inductive TypeTag where
  | undefined
  | object
  | boolean
  | number
  | string
  | function
  deriving DecidableEq, Repr

/-- The word for a tag. -/
def TypeTag.word : TypeTag → Text
  | .undefined => "undefined"
  | .object => "object"
  | .boolean => "boolean"
  | .number => "number"
  | .string => "string"
  | .function => "function"

namespace World

/-- The tag of a value. -/
def typeTag (w : World) : Value → TypeTag
  | .undefined => .undefined
  | .null => .object
  | .bool _ => .boolean
  | .int _ => .number
  | .float _ => .number
  | .nan _ => .number
  | .str _ => .string
  | v => if w.isCallable v then .function else .object

/-- The word for the tag of a value. -/
def tagWord (w : World) (v : Value) : Text :=
  (w.typeTag v).word

end World

namespace Act

/-- Stops unless the value has the tag; `what` names the value in the message. Both are taken as they
are given: only a text can be a tag. -/
def enforceTag (v tag what : Value) : Act Unit := do
  let w ← get
  let actual := w.tagWord v
  match tag with
  | .str t =>
    if actual == t then return
    else if t == TypeTag.function.word then stop (.notCallable (← w.bare what) actual)
    else stop (.wrongType (← w.bare what) t actual (w.isTruthy tag))
  | _ => stop (.wrongType (← w.bare what) (← w.bare tag) actual (w.isTruthy tag))

/-- Stops unless the value has the tag. -/
def enforceType (v : Value) (tag : TypeTag) (what : Text) : Act Unit :=
  enforceTag v (.str tag.word) (.str what)

/-- Stops unless the value can be called. -/
def enforceCallable (v : Value) (what : Text) : Act Unit :=
  enforceType v .function what

end Act

end Overlay
