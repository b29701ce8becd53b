import Overlay.Plugin.Shadow

/-!
# The access protocol

What a plugin's code does with values goes through these operations. A read takes the real property
first, then what the supplement has; what is done to a callable is done to its shadow. Emulated
functions count as functions and are called through their `apply` member. `Plugin.write` is `set` in
scripts, `Plugin.canRead` is `can_read_rev`, and the others go by their own names.
-/

namespace Overlay
set_option autoImplicit false

namespace Plugin

/-- The tag of a value as a plugin sees it: what descends from the emulated function prototype is a
function. -/
def typeOf (w : World) (p : PluginId) (v : Value) : Except Fault TypeTag :=
  match w.typeTag v, v with
  | .object, .obj o => do
    return if ← w.heap.inherits o (w.plugin p).roots.functionPrototype then .function else .object
  | tag, _ => .ok tag

/-- The value is an instance: really, or by the pseudo-prototype. -/
def instanceOf (p : PluginId) (v f : Value) : Act Bool := do
  let w ← get
  if w.isCallable f && (← Host.instanceOf w (w.plugin p).host v f) then return true
  else
    let proto ← pseudoPrototype p f
    let w ← get
    Host.inheritsFrom w (w.plugin p).host v proto

/-- The value that an object supplies for a name: none if it lacks the name, or the name is a coercion
member. -/
def supplied (w : World) (config : Config) (supplement name : Value) :
    Except Fault (Option Value) := do
  match supplement with
  | .obj o =>
    let k ← Key.ofValue name
    let found ← w.heap.search o k
    return if config.isCoercionMember k then none else found
  | _ => return none

/-- Reads a property. -/
def read (p : PluginId) (v name : Value) : Act Value := do
  let w ← get
  let plugin := w.plugin p
  if w.isCallable v then
    let s ← shadowOf p v
    (← get).heap.lookup s (← Key.ofValue name)
  else if ← Host.has plugin.host v name then Host.read plugin.host v name
  else
    let stepParent ← pseudoPrototype p (← Host.directConstructor w plugin.host v)
    match ← supplied (← get) plugin.config stepParent name with
    | some x => return x
    | none => Host.read plugin.host v name

/-- Sets a property. -/
def write (p : PluginId) (v name x : Value) : Act Value := do
  if (← get).isCallable v then
    let s ← shadowOf p v
    Act.putProperty s name x true
    return x
  else Host.put v name x

/-- Deletes a property, and tells whether it was there. -/
def remove (p : PluginId) (v name : Value) : Act Bool := do
  if (← get).isCallable v then
    let s ← shadowOf p v
    Act.eraseProperty s name
  else Host.delete v name

/-- The enumerable names of the supplement that a value really lacks and that are not hidden. -/
def suppliedKeys (p : PluginId) (v : Value) (names : List Name) : Act (List Name) := do
  let plugin := (← get).plugin p
  names.filterM fun n => do
    return !(← Host.has plugin.host v n.value) && !plugin.config.isHiddenName n.key

/-- The names that an enumeration lists. -/
def keys (p : PluginId) (v : Value) : Act (List Name) := do
  let w ← get
  let own ← Host.enumerableKeys w (w.plugin p).host v
  match ← supplementOf p v with
  | .obj o =>
    let names ← (← get).heap.enumerableKeys o
    return own ++ (← suppliedKeys p v names)
  | _ => return own

/-- Tells whether a name can be reached, really or on the supplement. -/
def canRead (p : PluginId) (name v : Value) : Act Bool := do
  if ← Host.has ((← get).plugin p).host v name then return true
  else
    match ← supplementOf p v with
    | .obj o => (← get).heap.has o (← Key.ofValue name)
    | _ => return false

/-- Stops because a value is no function, real or emulated. -/
def refuseCall (p : PluginId) (f : Value) : Act Value := do
  let w ← get
  let shown ← w.describe f
  Act.stop (.notCallable shown (← typeOf w p f).word)

/-- Applies a function, real or emulated, to a receiver and the arguments that a value spreads into. -/
def apply (invoke : Invoker) (p : PluginId) (f this args : Value) : Act Value := do
  let w ← get
  if w.isCallable f then Host.callSpread invoke f this args
  else
    match f with
    | .obj o =>
      let applier ← w.heap.lookup o "apply"
      if w.isCallable applier then
        Host.call invoke applier f [this, .list none (← Host.spread args)]
      else refuseCall p f
    | _ => refuseCall p f

/-- Calls a function without a receiver. -/
def callFunction (invoke : Invoker) (p : PluginId) (f args : Value) : Act Value :=
  apply invoke p f (.obj World.useless) args

/-- Calls a method. -/
def callMethod (invoke : Invoker) (p : PluginId) (v name args : Value) : Act Value := do
  match ← read p v name with
  | .undefined => Act.stop (.notCallable (← (← get).describe name) TypeTag.undefined.word)
  | f => apply invoke p f v args

/-- Makes an object with a constructor, real or emulated. -/
def construct (invoke : Invoker) (p : PluginId) (ctor args : Value) : Act Value := do
  let w ← get
  if w.isCallable ctor then Host.construct invoke ctor args
  else
    let plugin := w.plugin p
    let proto ← match ← Host.read plugin.host ctor (.str "prototype") with
      | .obj o => pure o
      | _ => pure plugin.roots.objectPrototype
    let made ← Act.begetFrom (.obj proto)
    let answer ← apply invoke p ctor (.obj made) args
    return Host.constructed (← get) made answer

/-- Makes the emulated function of a raw callable; a name of null is not given. -/
def emulate (p : PluginId) (raw name : Value) : Act Value := do
  let plugin := (← get).plugin p
  return .obj (← Emulation.emulate plugin.roots plugin.config raw name)

/-- Makes a forwarder. -/
def forwarder (p : PluginId) (name : Value) : Act Value := do
  let plugin := (← get).plugin p
  return .obj (← Emulation.forwarder plugin.host plugin.roots plugin.config name)

end Plugin

end Overlay
