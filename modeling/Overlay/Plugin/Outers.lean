import Overlay.Plugin.Access

/-!
# Plugins and their outer bindings

A plugin is made over an object of outer bindings, whose `Function` becomes the emulated function
constructor. Doubtful settings are noted in the log and do not stop it. An outer name is read through
the access protocol and has to be reachable; declaring a name leaves a reachable one alone. In scripts
these are `make`, `get_outers`, `read_outer`, `set_outer` and `init_outer`.
-/

namespace Overlay
set_option autoImplicit false

namespace Plugin

/-- The shadows that a plugin starts with: those of the host's object and function constructors. -/
def seededShadows (w : World) (host : Host) (roots : Roots) : List (Category × Shadow) :=
  [(host.object, ⟨roots.objectShadow, roots.objectPrototype⟩),
    (host.function, ⟨roots.function, roots.functionPrototype⟩)].filterMap fun s =>
      (Host.category? w (.obj s.1)).map fun c => (c, s.2)

/-- Notes in the log what looks wrong in some settings. -/
def warn (config : Config) : Act Unit :=
  config.warnings.forM fun warning => Act.say fun _ => .ok (.doubtfulSetting warning)

/-- Makes a plugin over outer bindings. -/
def make (h : HostId) (config : Config) (outers : Value) : Act PluginId := do
  warn config
  let roots ← Emulation.seedRoots h config
  let w ← get
  let host := w.host h
  let seeds := seededShadows w host roots
  let _ ← Host.put outers (.str "Function") (.obj roots.function)
  Act.say fun _ => .ok (.pluginReady seeds.length)
  let w ← get
  set { w with plugins := w.plugins.push ⟨h, config, roots, outers, ⟨seeds⟩⟩ }
  return w.plugins.size

/-- The outer bindings, which have to be an object. -/
def getOuters (p : PluginId) : Act Value := do
  let outers := ((← get).plugin p).outers
  Act.enforceType outers .object "outers"
  return outers

/-- Reads an outer name that can be reached. -/
def readOuter (p : PluginId) (name : Value) : Act Value := do
  let outers := ((← get).plugin p).outers
  if ← canRead p name outers then read p outers name
  else Act.stop (.unreachable (← (← get).bare name))

/-- Sets an outer name. -/
def setOuter (p : PluginId) (name x : Value) : Act Value := do
  Host.put ((← get).plugin p).outers name x

/-- Declares an outer name that cannot be reached yet. -/
def initOuter (p : PluginId) (name : Value) : Act Unit := do
  let outers := ((← get).plugin p).outers
  if ← canRead p name outers then return
  else
    let _ ← write p outers name .undefined

end Plugin

end Overlay
