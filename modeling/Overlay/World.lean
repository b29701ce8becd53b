import Overlay.Heap
import Overlay.Log
import Overlay.Registry

/-!
# The world

The world is all that a run can change: the heap, the functions, the hosts, the plugins with their
shadows, the log, and what a script has named.
-/

namespace Overlay
set_option autoImplicit false

/-- A host: the roots of its object graph and the constructors it gives to plain values. -/
structure Host where
  objectPrototype : ObjId
  functionPrototype : ObjId
  object : ObjId
  function : ObjId
  /-- What was registered last for each kind of plain values; null counts as nothing. -/
  primitives : List (Primitive × Value) := []
  deriving Inhabited

/-- The roots of a plugin's emulation. -/
structure Roots where
  /-- The patchable prototype of all objects. -/
  objectPrototype : ObjId
  /-- The patchable prototype of all functions. -/
  functionPrototype : ObjId
  /-- The emulated function constructor, which owns that prototype. -/
  function : ObjId
  /-- The shadow of the host's object constructor. -/
  objectShadow : ObjId
  deriving DecidableEq, Inhabited

/-- The shadow of a callable in one plugin, with the pseudo-prototype it was made with. -/
structure Shadow where
  object : ObjId
  prototype : ObjId
  deriving DecidableEq, Inhabited

/-- A plugin: its host, its settings, its roots, its outer bindings and its shadows. -/
structure Plugin where
  host : HostId
  config : Config
  roots : Roots
  outers : Value
  shadows : Registry Category Shadow
  deriving Inhabited

/-- The labels by which a script's answers refer to things. -/
structure Naming where
  labels : List (Ref × Text) := []
  /-- How many things without a name have got a number. -/
  numbered : Nat := 0
  deriving Inhabited

/-- Named values, each name once. -/
abbrev Bindings := List (Text × Value)

/-- All that a run can change. -/
structure World where
  heap : Heap := #[]
  fns : Array Fn := #[]
  hosts : Array Host := #[]
  plugins : Array Plugin := #[]
  tables : Array (Registry Name Value) := #[]
  /-- The number that the next host function draws. -/
  nextCategory : Nat := 1
  /-- The mark of the next list, or of the next result that is no number. -/
  nextMark : Nat := 0
  /-- Lines are written to the log. -/
  logging : Bool := false
  log : Array LogLine := #[]
  /-- The script's variables. -/
  vars : Bindings := []
  /-- The variables of the function that is running, if one is. -/
  frame : Option Bindings := none
  naming : Naming := {}
  deriving Inhabited

namespace World

/-- The frozen object that stands for a missing receiver. -/
def useless : ObjId := 0

/-- The world in which a run starts. -/
def initial : World where
  heap := #[{ bag := { frozen := true } }]
  fns := #[.size, .maximum]

/-- The host at a position. -/
def host (w : World) (h : HostId) : Host :=
  w.hosts[h]?.getD default

/-- The plugin at a position. -/
def plugin (w : World) (p : PluginId) : Plugin :=
  w.plugins[p]?.getD default

/-- The host of a plugin. -/
def hostOf (w : World) (p : PluginId) : Host :=
  w.host (w.plugin p).host

/-- The value is a host function. -/
def hostFn? (w : World) : Value → Option HostFn
  | .obj o => w.heap.hostFn? o
  | _ => none

/-- The table at a position. -/
def table (w : World) (t : TableId) : Registry Name Value :=
  w.tables[t]?.getD {}

/-- The value counts as true: a table does unless it is empty, and any other value as data do. -/
def isTruthy (w : World) : Value → Bool
  | .ref (.table t) => (w.table t).size != 0
  | v => v.isTruthy

/-- The value can be called. -/
def isCallable (w : World) : Value → Bool
  | .fn _ => true
  | v => (w.hostFn? v).isSome

end World

end Overlay
