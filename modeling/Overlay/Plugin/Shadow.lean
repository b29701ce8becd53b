import Overlay.Emulation

/-!
# Shadows

The shadow of a callable is the patchable object that stands for it in one plugin: it holds copies of
the callable's own members and a `prototype`, the pseudo-prototype that the plugin's code sees. The
pseudo-prototype descends from that of the super constructor and holds a forwarder for each real
method. Shadows are made when they are first asked for, those of missing ancestors first, and a
category keeps its shadow for ever. In scripts a shadow is `shadow_of`, a pseudo-prototype
`fake_proto_of`, and what supplies the instances of a constructor `supplement_of`.
-/

namespace Overlay
set_option autoImplicit false

namespace Plugin

/-- The shadow of a callable's category, if there is one. -/
def shadow? (w : World) (p : PluginId) (f : Value) : Option Shadow :=
  (Host.category? w f).bind (w.plugin p).shadows.find?

/-- A callable and its super constructors that have no shadow yet, the nearest first; a fault when
there are more than `fuel` of them. -/
def missing (w : World) (p : PluginId) : Nat → Value → Except Fault (List Value)
  | 0, _ => .error .tooDeep
  | fuel + 1, f =>
    if (shadow? w p f).isSome then .ok []
    else do
      match ← Host.superConstructor w (w.plugin p).host f with
      | .null => return [f]
      | parent => return f :: (← missing w p fuel parent)

/-- Keeps a shadow for a category. -/
def register (p : PluginId) (category : Category) (shadow : Shadow) : Act Unit := do
  let w ← get
  match (w.plugin p).shadows.insert? category shadow with
  | some shadows => set { w with plugins := w.plugins.modify p fun x => { x with shadows := shadows } }
  | none => Act.stop (.duplicateShadow category.describe)

/-- The object that a new pseudo-prototype descends from, given the shadow of the super constructor. -/
def parentPrototype (w : World) (roots : Roots) (parent : ObjId) : Except Fault ObjId := do
  match ← w.heap.lookup parent "prototype" with
  | .obj o => return o
  | _ => return roots.objectPrototype

/-- Copies the own members of a callable to its shadow. -/
def copyMembers (f : Value) (shadow : ObjId) (names : List Name) : Act Unit :=
  names.forM fun n => do
    match f with
    | .obj o =>
      let bag := ((← get).heap.get o).bag
      Act.putProperty shadow n.value (bag.get n.key) (bag.isEnumerable n.key)
    | _ => pure ()

/-- Gives a pseudo-prototype a forwarder for each method. -/
def addForwarders (plugin : Plugin) (prototype : ObjId) (names : List Name) : Act Unit :=
  names.forM fun n => do
    let f ← Emulation.forwarder plugin.host plugin.roots plugin.config n.value
    Act.putHidden prototype n.value (.obj f)

/-- Makes the shadow of a callable whose super constructor, if any, has its shadow. -/
def build (p : PluginId) (f : Value) : Act Unit := do
  let w ← get
  let plugin := w.plugin p
  let parent ← Host.superConstructor w plugin.host f
  let parentShadow := (shadow? w p parent).elim plugin.roots.objectShadow (·.object)
  let parentPrototype ← parentPrototype w plugin.roots parentShadow
  let shadow ← Act.begetFrom (.obj plugin.roots.functionPrototype)
  let prototype ← Act.begetFrom (.obj parentPrototype)
  Act.putHidden shadow (.str "prototype") (.obj prototype)
  Act.putHidden prototype (.str "constructor") f
  copyMembers f shadow (← Host.ownNames w f (Host.excludeCoercion plugin.config))
  addForwarders plugin prototype (← Host.methodNames w f (Host.excludeCoercion plugin.config))
  match Host.category? w f with
  | some category =>
    register p category ⟨shadow, prototype⟩
    Act.say fun w => return .newShadow (← w.describe f) category.describe (← w.describe parent)
  | none => pure ()

/-- The shadow of a callable, made with those of its ancestors when it is not there. Making a shadow
asks for that of the super constructor, which may have to be made in its turn; these nested requests
are unrolled here: `missing` lists the callables whose shadows they make, and `build` makes them from
the far end of the list, so that it finds the one above. A stack on which the requests nest would set
a limit to the length of the list; there is none here. -/
def shadowOf (p : PluginId) (f : Value) : Act ObjId := do
  Act.enforceCallable f "shadow_of() argument"
  let w ← get
  (← missing w p (w.heap.size + 2) f).reverse.forM (build p)
  match shadow? (← get) p f with
  | some s => return s.object
  | none => Act.stop .tooDeep

/-- The prototype that a plugin shows for a value: a callable's pseudo-prototype, an object's
`prototype`, and undefined for anything else. -/
def pseudoPrototype (p : PluginId) (f : Value) : Act Value := do
  if (← get).isCallable f then
    let s ← shadowOf p f
    (← get).heap.lookup s "prototype"
  else
    match f with
    | .obj o => (← get).heap.lookup o "prototype"
    | _ => return .undefined

/-- The object that supplies what a value's real path lacks: a callable's shadow, or the
pseudo-prototype of the direct constructor. -/
def supplementOf (p : PluginId) (v : Value) : Act Value := do
  let w ← get
  if w.isCallable v then return .obj (← shadowOf p v)
  else pseudoPrototype p (← Host.directConstructor w (w.plugin p).host v)

end Plugin

end Overlay
