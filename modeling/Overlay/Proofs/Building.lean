import Overlay.Proofs.Lineage
import Overlay.Proofs.Lookup

/-!
# Building shadows

Where all host functions come with a host or by definition, all that a shadow needs can be found and made, so
`Plugin.build` stops for one reason only: there is a log, and the line on the new shadow cannot be written
(`Plugin.Loggable`). The shadow is there even then (`Plugin.Made`).
-/

namespace Overlay
set_option autoImplicit false

open Act World

namespace World

/-- If lines are written to the log, then the text of each host function can be written. -/
def Legible (w : World) : Prop :=
  w.logging = true → ∀ o fn, w.heap.hostFn? o = some fn → ∃ t, w.describe (.obj o) = .ok t

theorem Legible.describe {w : World} {f : Value} (legible : w.Legible) (logs : w.logging = true)
    (callable : w.isCallable f = true) : Answered (w.describe f) := by
  obtain ⟨c, category⟩ := isCallable_iff.1 callable
  rcases Host.category?_cases category with ⟨i, rfl, -⟩ | ⟨o, fn, rfl, found, -⟩
  · exact .ok _
  · exact legible logs o fn found

end World

namespace Host
variable {w : World} {f : Value}

theorem methodNames_eq {statics : Key → Prop} (ancestral : w.Ancestral statics) (config : Config)
    (callable : w.isCallable f = true) : methodNames w f (excludeCoercion config) = .ok (methods w config f) ∧
      ∀ n ∈ methods w config f, Writable n.value := by
  obtain ⟨c, category⟩ := isCallable_iff.1 callable
  rcases category?_cases category with ⟨i, rfl, -⟩ | ⟨o, fn, rfl, found, -⟩
  · exact ⟨rfl, nofun⟩
  · obtain ⟨p, descended⟩ := ancestral.functions o fn (Nat.zero_le o) found
    have member : prototypeMember w (.obj o) = .obj p := by
      rw [prototypeMember, World.hostFn?, found]
      exact descended.link
    rw [methodNames, methods, member]
    refine ⟨?_, fun n listed => ?_⟩
    · exact congrArg (Functor.map _) (filterM_ok (isMethod_eq w config) _)
    · obtain ⟨q, kept, rfl⟩ := List.mem_map.1 listed
      exact descended.head.names _ (List.mem_map.2 ⟨q, (List.mem_filter.1 kept).1, rfl⟩)

end Host

namespace Heap
variable {h : Heap} {o p : ObjId}

theorem isWhole_of_linked (linked : h.Linked o (.obj p)) (back : p < o) : h.isWhole o = h.isWhole p := by
  rw [isWhole, linked.2]
  exact if_pos back

theorem isWhole_of_null (linked : h.Linked o .null) : h.isWhole o = true := by
  rw [isWhole, linked.2]

/-- A look-up on a whole path has an answer. -/
theorem search_ends (whole : h.isWhole o = true) (k : Key) : ∃ found, h.search o k = .ok found := by
  rw [search]
  split
  · exact ⟨_, rfl⟩
  · rw [atEnd, whole]
    exact ⟨_, rfl⟩

theorem lookup_ends (whole : h.isWhole o = true) (k : Key) : ∃ x, h.lookup o k = .ok x := by
  obtain ⟨found, answer⟩ := search_ends whole k
  rw [lookup, answer]
  exact ⟨_, rfl⟩

end Heap

namespace Plugin
variable {w v u : World} {statics : Key → Prop} {p : PluginId} {f g : Value} {c : Category}

/-- The path of an object that is linked to the patchable prototype of functions is whole. -/
theorem Ordered.whole {h : Heap} {x : Plugin} (ordered : x.Ordered h) {s : ObjId}
    (linked : h.Linked s (.obj x.roots.functionPrototype)) (above : x.roots.functionPrototype < s) :
    h.isWhole s = true := by
  obtain ⟨top, ⟨ends, -⟩, below, rooted⟩ := ordered.rooted
  rw [Heap.isWhole_of_linked linked above, Heap.isWhole_of_linked rooted.functionPrototype rooted.rising.1,
    Heap.isWhole_of_linked rooted.objectPrototype below, Heap.isWhole_of_null ends]

theorem Ordered.linked_parentShadow (ordered : (w.plugin p).Ordered w.heap) (parent : Value) :
    w.heap.Linked (parentShadow w p parent) (.obj (w.plugin p).roots.functionPrototype) ∧
      (w.plugin p).roots.functionPrototype < parentShadow w p parent := by
  rw [Plugin.parentShadow]
  cases found : shadow? w p parent with
  | none =>
    obtain ⟨top, -, -, rooted⟩ := ordered.rooted
    exact ⟨rooted.objectShadow, Nat.lt_trans rooted.rising.2.1 rooted.rising.2.2⟩
  | some s =>
    obtain ⟨c, -, here⟩ := Option.bind_eq_some_iff.1 found
    exact ordered.shadows _ (Registry.mem_of_find? here)

theorem Ordered.parentShadow (ordered : (w.plugin p).Ordered w.heap) (parent : Value) :
    w.heap.isWhole (parentShadow w p parent) = true := by
  obtain ⟨linked, above⟩ := ordered.linked_parentShadow parent
  exact ordered.whole linked above

theorem parentPrototype_ends (ordered : (w.plugin p).Ordered w.heap) (parent : Value) :
    ∃ q, parentPrototype w (w.plugin p).roots (parentShadow w p parent) = .ok q := by
  obtain ⟨x, answer⟩ := Heap.lookup_ends (ordered.parentShadow parent) "prototype"
  rw [parentPrototype, answer]
  dsimp only [Bind.bind, Except.bind]
  split
  · exact ⟨_, rfl⟩
  · exact ⟨_, rfl⟩

/-! ## The run of `build` -/

/-- If lines are written to the log, then the line on a new shadow of the callable can be written: it shows the callable
and its super constructor. -/
def Loggable (w : World) (p : PluginId) (f : Value) : Prop :=
  w.logging = true → Answered (w.describe f) ∧
    ∀ parent, Host.superConstructor w (w.plugin p).host f = .ok parent → Answered (w.describe parent)

/-- A callable without a shadow, whose super constructor has one if there is a super constructor, got one. The run that
made it ended without a fault just if the line on it could be written. -/
structure Made (p : PluginId) (f : Value) (w v : World) : Prop extends Built p f w v where
  run : (exec (build p f) w).2 = v
  ends : (exec (build p f) w).1 = .ok () ↔ Loggable v p f
  bound : p < w.plugins.size
  functions : ∀ o, v.heap.hostFn? o = w.heap.hostFn? o
  ready : ∀ parent, Host.superConstructor w (w.plugin p).host f = .ok parent → parent ≠ .null →
    (shadow? w p parent).isSome = true
  logging : v.logging = w.logging

theorem Made.entry (made : Made p f w v) : ∃ c, Host.category? w f = some c ∧
    v.plugin p = (w.plugin p).extend [(c, ⟨w.heap.size, w.heap.size + 1⟩)] :=
  made.entered made.bound

/-- A callable that has none is given a shadow, whether the line on it can be written or not. -/
theorem build_made (sound : w.Sound) (ancestral : w.Ancestral statics) (bound : p < w.plugins.size)
    (callable : w.isCallable f = true) (absent : shadow? w p f = none)
    (ready : ∀ parent, Host.superConstructor w (w.plugin p).host f = .ok parent → parent ≠ .null →
      (shadow? w p parent).isSome = true) :
    ∃ r v, exec (build p f) w = (r, v) ∧ Made p f w v := by
  obtain ⟨c, category⟩ := isCallable_iff.1 callable
  obtain ⟨parent, -, always⟩ := ancestral.superConstructor callable
  have above := always w (.refl _) (w.plugin p).host
  obtain ⟨q, link⟩ := parentPrototype_ends (sound.plugins p bound) parent
  obtain ⟨named, writable⟩ := Host.methodNames_eq ancestral (w.plugin p).config callable
  have is_open : ((laid w p f q).heap.get (w.heap.size + 1)).bag.frozen = false := by
    rw [(get_laid w p f q).2]
    rfl
  obtain ⟨u, added, silent⟩ := addForwarders_ends (w.plugin p) is_open writable
  have assembled := ((addForwarders_assembles w p f q).of_run added).2
  obtain ⟨r, v, entered, -, built, logging, fine, -⟩ := assembled.enter_ends sound category absent above link named
  have run : exec (build p f) w = (r, v) := by
    rw [exec_build above link, named, exec_lift_ok_bind, exec_bind_ok added, entered]
  have functions := (build_plain p f w).world.1
  rw [run] at functions
  refine ⟨r, v, run, built, by rw [run], ?_, bound, functions, ready, logging.trans silent⟩
  rw [run, fine]
  -- the super constructor is the same when the shadow is there
  have above' : Host.superConstructor v (v.plugin p).host f = .ok parent :=
    always v built.resolves.advances.trail (v.plugin p).host
  apply imp_congr_right
  intro _
  refine and_congr_right fun _ => ?_
  rw [above']
  exact ⟨fun told parent' same => Except.ok.inj same ▸ told, fun told => told parent rfl⟩

end Plugin

end Overlay
