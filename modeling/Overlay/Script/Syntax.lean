import Overlay.Config
import Overlay.Text.Identifier
import Overlay.Value

/-!
# Scripts

A script drives hosts and plugins step by step. A step computes one operation on evaluated arguments,
defines a function whose body is a list of steps, or makes an object, a constructor, a host or a
plugin; it may name its result. Arguments are constants, lists, variables or further steps.
-/

namespace Overlay.Script
set_option autoImplicit false

/-- A parameter of a scripted function. What follows a rest parameter cannot be given by position. -/
inductive Param where
  | required (name : Text)
  | optional (name : Text)
  | rest (name : Text)
  deriving DecidableEq, Repr

namespace Param

/-- The name of a parameter. -/
def name : Param → Text
  | .required n => n
  | .optional n => n
  | .rest n => n

/-- The number of arguments that have to be given by position. -/
def positional : List Param → Nat
  | [] => 0
  | .rest _ :: _ => 0
  | .required _ :: ps => positional ps + 1
  | .optional _ :: ps => positional ps

/-- No parameter is a rest parameter. -/
def noRest (ps : List Param) : Bool :=
  ps.all fun | .rest _ => false | _ => true

/-- Before a rest parameter, of which there is at most one, no required parameter follows an optional
one; `afterOptional` tells that one came before. -/
def inOrder (afterOptional : Bool) : List Param → Bool
  | [] => true
  | .rest _ :: ps => noRest ps
  | .required _ :: ps => !afterOptional && inOrder afterOptional ps
  | .optional _ :: ps => inOrder true ps

/-- Parameters that a function can have: in order and with different names. -/
def isDeclarable (ps : List Param) : Bool :=
  inOrder false ps && (ps.map name).all Text.isName && decide (ps.map name).Nodup

end Param

/-- Stops unless a function can be declared under a name and with parameters. A declaration is written
down first, so a text that cannot be written is refused before one that cannot be a name. -/
def checkDeclaration (name : Value) (params : List Param) : Except Fault Text :=
  if !(params.map Param.name).all Text.isWhole then .error .noBytes
  else
    match name with
    | .str n =>
      if !n.isWhole then .error .noBytes
      else if Text.isName n && Param.isDeclarable params then .ok n
      else .error .badDeclaration
    | _ => .error .badDeclaration

/-- Operations on an object itself. -/
inductive ObjectOp where
  | hasOwn
  | getOwn
  | has
  | lookup
  | ownKeys
  | isEnumerable
  | enumerableKeys
  | put
  | delete
  | freeze
  | proto
  | frozen
  | chain
  | describe
  deriving DecidableEq, Repr

/-- Attributes of a host function. -/
inductive FunctionOp where
  | name
  | arity
  | source
  | category
  | prototype
  deriving DecidableEq, Repr

/-- Operations of a host. -/
inductive HostOp where
  | beget
  | freeze
  | typeTag
  | enforceType
  | isCallable
  | prototypeOf
  | hasOwn
  | has
  | read
  | put
  | delete
  | enumerableKeys
  | isEnumerable
  | inheritsFrom
  | instanceOf
  | directConstructor
  | category
  | superConstructor
  | ownNames
  | methodNames
  | call
  | construct
  | arity
  | sourceText
  | registerPrimitive
  | defineFunction
  | defineConstructor
  deriving DecidableEq, Repr

/-- Operations of a plugin. -/
inductive PluginOp where
  | typeOf
  | instanceOf
  | read
  | write
  | remove
  | keys
  | canRead
  | apply
  | callFunction
  | callMethod
  | construct
  | emulate
  | forwarder
  | getOuters
  | readOuter
  | setOuter
  | initOuter
  | shadowOf
  | pseudoPrototype
  | supplementOf
  | shadowCount
  | categories
  | assign
  deriving DecidableEq, Repr

/-- Operations on a table of shadows. -/
inductive TableOp where
  | new
  | register
  | find
  | contains
  | size
  | categories
  deriving DecidableEq, Repr

/-- Operations on evaluated arguments. The host or the plugin of an operation is the value of a variable,
which is looked up outside functions. -/
inductive Operation where
  /-- The argument itself. -/
  | value
  /-- The sum of two integers, or two texts joined. -/
  | add
  /-- Fails with the given message. -/
  | fail
  /-- Calls a callable directly. -/
  | call
  /-- The argument itself, to be shown in full. -/
  | dump
  | object (op : ObjectOp)
  | function (op : FunctionOp)
  | host (on : Text) (op : HostOp)
  | plugin (on : Text) (op : PluginOp)
  | table (op : TableOp)
  deriving DecidableEq, Repr

mutual

/-- An argument. -/
inductive Expr where
  | datum (v : Value)
  /-- A floating-point number as it is spelled. -/
  | numeral (text : Text)
  | list (items : List Expr)
  | var (name : Text)
  | step (s : Step)
  /-- An argument that cannot be read: it stops when it is evaluated. -/
  | refused (f : Fault)

/-- A step of a script. The names, arities and sources of functions may be any values; null stands for
one that is not given. -/
inductive Step where
  /-- A step whose result gets a name. -/
  | named (name : Text) (s : Step)
  | compute (op : Operation) (args : List Expr)
  | function (name : Value) (params : List Param) (body : List Step) (source : Value)
  | new (proto : Expr) (props hidden : List (Value × Expr))
  /-- Begets an object from the last one, so many times. -/
  | nest (start : Expr) (times : Nat)
  | defineFunction (on : Text) (name : Value) (impl : Expr) (arity source : Value)
  | defineConstructor (on : Text) (name : Value) (init parent : Expr)
      (methods statics : List (Value × Expr)) (arity source : Value)
  | hostFunction (name : Value) (impl proto prototype : Expr) (arity source : Value)
  /-- Makes a host under a common name. The step itself results in null. -/
  | makeHost (name : Text)
  /-- Makes a plugin under a common name. The step itself results in null. -/
  | makePlugin (name : Text) (outers : Expr) (on : Option Text) (settings : Settings)

end

instance : Inhabited Expr := ⟨.datum .undefined⟩

instance : Inhabited Step := ⟨.compute .value []⟩

end Overlay.Script
