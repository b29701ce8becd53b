import Overlay.Script.Syntax

/-!
# Functions

A function is a plain callable: two that the surroundings provide, those that a script defines, and
those that belong to an emulated function. A host function is an object with an implementation, and
`Impl` says what the implementation is. Every callable has a category: a host function the number it
drew when it was made, any other function itself.
-/

namespace Overlay
set_option autoImplicit false

/-- A function that a script defines. -/
structure Declaration where
  name : Text
  params : List Script.Param
  body : List Script.Step
  /-- What it gives as its source text; null when it gives none. -/
  source : Value
  deriving Inhabited

/-- A plain callable. -/
inductive Fn where
  /-- The length of a text or a list. -/
  | size
  /-- The greatest of some integers. -/
  | maximum
  | user (d : Declaration)
  /-- Calls `raw` on a receiver and a list of arguments. -/
  | applier (raw : Value)
  /-- Fixes the first arguments of `raw`. -/
  | binder (raw : Value)
  /-- Calls `raw` on the arguments fixed before and the ones given now. -/
  | bound (raw : Value) (left : List Value)
  /-- Answers the text of an emulated function. -/
  | printer (text : Text)
  /-- Answers what the emulated function constructor gives as its text. -/
  | rootPrinter (answer : Value)
  /-- Calls the method of that name which the receiver really has. -/
  | forward (host : HostId) (name : Value)
  deriving Inhabited

namespace Fn

/-- The text that stands for a function in messages. -/
def describe : Fn → Text
  | .size => "<built-in function len>"
  | .maximum => "<built-in function max>"
  | .user d => "<function " ++ d.name ++ ">"
  | .applier _ => "<function DisfunctionFactory.dis.<locals>.apply>"
  | .binder _ => "<function DisfunctionFactory.dis.<locals>.bind>"
  | .bound _ _ => "<function DisfunctionFactory.dis.<locals>.bind.<locals>.bound>"
  | .printer _ => "<function DisfunctionFactory.dis.<locals>.to_string>"
  | .rootPrinter _ => "<function seed_roots.<locals>.to_string>"
  | .forward _ _ => "<function DisfunctionFactory.forwarder.<locals>.forward>"

/-- The number of arguments that a function needs by position. -/
def required : Fn → Nat
  | .size => 1
  | .maximum => 0
  | .user d => Script.Param.positional d.params
  | .applier _ => 1
  | .binder _ => 0
  | .bound _ _ => 0
  | .printer _ => 0
  | .rootPrinter _ => 0
  | .forward _ _ => 1

/-- What a function gives as its source text; null when it gives none. -/
def source : Fn → Value
  | .size => .null
  | .maximum => .null
  | .user d => d.source
  | .applier _ => .str "def apply(self_: Any, args: Optional[Sequence[Any]] = None) -> Any:"
  | .binder _ => .str "def bind(*left: Any) -> Callable[..., Any]:"
  | .bound _ _ => .str "def bound(*more: Any) -> Any:"
  | .printer _ => .str "def to_string(*_: Any) -> str:"
  | .rootPrinter _ => .str "def to_string(*_: Any) -> str:"
  | .forward _ _ => .str "def forward(dis: Any, *args: Any) -> Any:"

end Fn

/-- What a host function does. -/
inductive Impl where
  /-- Calls a value on the receiver and the arguments. -/
  | value (v : Value)
  /-- Makes an object with the given prototype, or passes one through. -/
  | makeObject (prototype : ObjId)
  /-- Refuses to make functions. -/
  | makeFunction
  /-- The text of any object. -/
  | describe
  /-- The receiver itself. -/
  | identity
  /-- Whether the receiver owns a name. -/
  | ownsName
  /-- Does nothing. -/
  | nothing
  deriving Inhabited

/-- What makes an object a host function. Its prototype is an object, or null for a function that
makes no objects; its arity is a number and its source a text, unless a script says otherwise. -/
structure HostFn where
  impl : Impl
  category : Nat
  prototype : Value
  arity : Value
  source : Value
  deriving Inhabited

/-- The identity under which a callable's shadow is kept. -/
inductive Category where
  | host (n : Nat)
  | plain (f : FnId)
  deriving DecidableEq, Repr

/-- The text of a category in messages. -/
def Category.describe : Category → Text
  | .host n => toString n
  | .plain _ => "('py', id)"

end Overlay
