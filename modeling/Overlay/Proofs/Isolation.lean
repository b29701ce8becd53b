import Overlay.Proofs.Lookup
import Overlay.Proofs.Running

/-!
# Plugins do not meet

Plugins share hosts, their functions and their frozen prototypes, but no object that one of them made for itself is
another's. What code does through its plugin to a callable is done to the plugin's own shadow, and what it does to an
object of the plugin is done to that object; so another plugin is spared: its table, its roots, its shadows and its
pseudo-prototypes are as they were. A look-up that starts at a shadow meets only the plugin's own objects and a
frozen one, so what another plugin reads there is the same as well.
-/

namespace Overlay
set_option autoImplicit false

open Act World

namespace World
variable {p q : PluginId} {u v w : World}

/-- A plugin is as it was: what it consists of, its table of shadows, and every object that it made for itself. -/
structure Spares (q : PluginId) (w v : World) : Prop where
  advances : Advances w v
  plugin : v.plugin q = w.plugin q
  owned : ∀ o ∈ (w.plugin q).owned, v.heap.get o = w.heap.get o

theorem Spares.refl (sound : w.Sound) : Spares q w w :=
  ⟨.refl sound, rfl, fun _ _ => rfl⟩

theorem Spares.trans (near : Spares q u v) (far : Spares q v w) : Spares q u w := by
  refine ⟨near.advances.trans far.advances, far.plugin.trans near.plugin, fun o own => ?_⟩
  rw [far.owned o (near.plugin ▸ own), near.owned o own]

/-- A change of an object that is not a plugin's own spares the plugin. -/
theorem Sound.spares (sound : w.Sound) {o : ObjId} {b : Bag} (foreign : o ∉ (w.plugin q).owned)
    (change : w.heap.Change (w.heap.setBag o b)) : Spares q w { w with heap := w.heap.setBag o b } where
  advances := sound.advances (.of_change (Nat.zero_le o) change)
  plugin := rfl
  owned _ own := Heap.get_setBag_other _ _ fun same => foreign (same ▸ own)

end World

/-- A plugin of a sound world is spared. -/
def Regime.sparing (q : PluginId) : Regime where
  step w v := w.Sound → q < w.plugins.size → Spares q w v
  fault _ e := e.isReport = false
  refl _ sound _ := .refl sound
  trans near far sound bound :=
    (near sound bound).trans (far (near sound bound).advances.sound
      (Nat.lt_of_lt_of_le bound (near sound bound).advances.plugins))
  back _ h := h
  ordinary _ _ h := h

namespace Plugin
variable {p q : PluginId} {w : World} {v : Value}

/-- A plugin's shadow is no other plugin's object. -/
theorem not_mem_owned_of_shadow? {s : Shadow} (sound : w.Sound) (found : shadow? w p v = some s)
    (bound : q < w.plugins.size) (differ : p ≠ q) : s.object ∉ (w.plugin q).owned := by
  obtain ⟨c, -, here⟩ := Option.bind_eq_some_iff.1 found
  refine sound.apart p q (lt_size_of_shadow? found) bound differ s.object ?_
  exact mem_owned.2 (.inr ⟨(c, s), Registry.mem_of_find? here, .inl rfl⟩)

/-- Asking for a shadow spares the other plugins, and the shadow is none of theirs. -/
theorem shadowOf_spares (sound : w.Sound) (bound : q < w.plugins.size) (differ : p ≠ q) :
    Leaves (.sparing q) (shadowOf p v) w fun o u => u.Sound ∧ o ∉ (u.plugin q).owned := by
  have resolving := shadowOf_leaves (p := p) (f := v) sound (Nat.le_refl w.heap.size)
  refine ⟨fun sound bound => ?_, fun o answer => ?_, resolving.fault⟩
  · have resolved := resolving.world sound
    exact ⟨resolved.advances, resolved.others q differ.symm, fun o own =>
      resolved.old o ((sound.plugins q bound).inside o own)⟩
  · obtain ⟨⟨s, found, rfl⟩, -⟩ := resolving.value o answer
    have advances := (resolving.world sound).advances
    exact ⟨advances.sound, not_mem_owned_of_shadow? advances.sound found
      (Nat.lt_of_lt_of_le bound advances.plugins) differ⟩

/-- The value is something that a plugin keeps for itself: a callable, for which its shadow stands, or an object
that it made. -/
def Keeps (w : World) (p : PluginId) (v : Value) : Prop :=
  w.isCallable v = true ∨ ∃ o ∈ (w.plugin p).owned, v = .obj o

theorem write_spares (sound : w.Sound) (made : p < w.plugins.size) (bound : q < w.plugins.size) (differ : p ≠ q)
    (target : Keeps w p v) (name x : Value) :
    Leaves (.sparing q) (write p v name x) w fun _ _ => True := by
  refine .bind_get ?_
  split
  · refine .bind (shadowOf_spares sound bound differ) fun s u _ ⟨sound', foreign⟩ => ?_
    refine .bind (putProperty_rule s name x true fun b change _ _ => sound'.spares foreign change) fun _ _ _ _ => ?_
    exact .pure trivial
  · rename_i plain
    obtain ⟨o, own, rfl⟩ := target.resolve_left plain
    have foreign := sound.apart p q made bound differ o own
    refine .bind_get (.bind_lift (Host.checkBase_noReport w _ name .set) fun _ _ => ?_)
    refine .bind (putProperty_rule o name x true fun b change _ _ => sound.spares foreign change) fun _ _ _ _ => ?_
    exact .pure trivial

theorem remove_spares (sound : w.Sound) (made : p < w.plugins.size) (bound : q < w.plugins.size) (differ : p ≠ q)
    (target : Keeps w p v) (name : Value) :
    Leaves (.sparing q) (remove p v name) w fun _ _ => True := by
  refine .bind_get ?_
  split
  · refine .bind (shadowOf_spares sound bound differ) fun s u _ ⟨sound', foreign⟩ => ?_
    exact eraseProperty_rule s name fun b change _ _ => sound'.spares foreign change
  · rename_i plain
    obtain ⟨o, own, rfl⟩ := target.resolve_left plain
    have foreign := sound.apart p q made bound differ o own
    refine .bind_get (.bind_lift (Host.checkBase_noReport w _ name .delete) fun _ _ => ?_)
    exact eraseProperty_rule o name fun b change _ _ => sound.spares foreign change

/-- A read of a callable that has its shadow looks the name up from there. -/
theorem exec_read_known {s : Shadow} (found : shadow? w q v = some s) (name : Value) :
    exec (read q v name) w = (Key.ofValue name >>= w.heap.lookup s.object, w) := by
  obtain ⟨c, category, -⟩ := Option.bind_eq_some_iff.1 found
  have callable : w.isCallable v = true := isCallable_iff.2 ⟨c, category⟩
  rw [read, exec_get_bind]
  simp only [callable, if_true]
  rw [exec_bind_ok (exec_shadowOf_known found), exec_get_bind]
  cases Key.ofValue name with
  | error e => rfl
  | ok k => rfl

/-- What a plugin reads from a callable that has its shadow is the same where the plugin was spared. -/
theorem exec_read_spared {u : World} {s : Shadow} (sound : w.Sound) (spared : Spares q w u)
    (found : shadow? w q v = some s) (name : Value) :
    ∃ result, exec (read q v name) w = (result, w) ∧ exec (read q v name) u = (result, u) := by
  refine ⟨_, exec_read_known found name, ?_⟩
  rw [exec_read_known (shadow?_advance spared.advances found) name]
  obtain ⟨c, -, here⟩ := Option.bind_eq_some_iff.1 found
  have registered := Registry.mem_of_find? here
  obtain ⟨top, frozen, path⟩ := (sound.plugins q (lt_size_of_shadow? found)).path registered
  have same : ∀ a ∈ w.heap.path s.object, u.heap.get a = w.heap.get a := by
    intro a on
    rw [path] at on
    simp only [List.mem_cons, List.not_mem_nil, or_false] at on
    rcases on with rfl | rfl | rfl | rfl
    · exact spared.owned _ (mem_owned.2 (.inr ⟨(c, s), registered, .inl rfl⟩))
    · exact spared.owned _ (mem_owned.2 (.inl (.inr (.inl rfl))))
    · exact spared.owned _ (mem_owned.2 (.inl (.inl rfl)))
    · exact spared.advances.trail.keeps _ frozen
  have lookups : u.heap.lookup s.object = w.heap.lookup s.object := funext (Heap.lookup_congr same)
  rw [lookups]

/-- Plugins are isolated. In every reachable world no object that a plugin made for itself is another plugin's. When
code sets or removes a property through its plugin, of a callable or of an object that the plugin made for itself, then
every other plugin's table of shadows is as it was, and so are all objects that this one made for itself, and what it
reads from a callable that has its shadow. -/
theorem plugins_isolated (reachable : Reachable w) (made : p < w.plugins.size) (bound : q < w.plugins.size)
    (differ : p ≠ q) :
    (∀ o ∈ (w.plugin p).owned, o ∉ (w.plugin q).owned) ∧
    ∀ target, Keeps w p target → ∀ name x u,
      u = (exec (write p target name x) w).2 ∨ u = (exec (remove p target name) w).2 →
      u.plugin q = w.plugin q ∧ (∀ o ∈ (w.plugin q).owned, u.heap.get o = w.heap.get o) ∧
      ∀ c s n, shadow? w q c = some s →
        ∃ result, exec (read q c n) w = (result, w) ∧ exec (read q c n) u = (result, u) := by
  have sound := reachable.sound
  refine ⟨sound.apart p q made bound differ, fun target kept name x u after => ?_⟩
  have spared : Spares q w u := by
    rcases after with rfl | rfl
    · exact (write_spares sound made bound differ kept name x).world sound bound
    · exact (remove_spares sound made bound differ kept name).world sound bound
  exact ⟨spared.plugin, spared.owned, fun c s n found => exec_read_spared sound spared found n⟩

open Script in
/-- Two plugins over one host: what the first sets of `Object` the second does not read. -/
theorem plugins_isolated_two : ∃ w, Reachable w ∧ w.plugins.size = 2 ∧
    let f : Value := .obj (w.host 0).object
    (shadow? w 1 f).isSome = true ∧ ∀ name x n,
      (exec (read 1 f n) (exec (write 0 f name x) w).2).1 = (exec (read 1 f n) w).1 := by
  let step : Step := .makePlugin "second" (.var "outers") (some "h") {}
  have facts : (start {} false).toOption.map (fun w =>
      let u := (perform stackDepth w step).2
      (u.plugins.size, (shadow? u 1 (.obj (u.host 0).object)).isSome, u.isCallable (.obj (u.host 0).object))) =
        some (2, true, true) := by
    decide +kernel
  obtain ⟨w, started, -⟩ := start_default
  rw [started] at facts
  obtain ⟨size, rest⟩ := Prod.mk.inj (Option.some.inj facts)
  obtain ⟨known, callable⟩ := Prod.mk.inj rest
  have reachable := (start_reachable started).execution (perform_execution stackDepth w step)
  refine ⟨(perform stackDepth w step).2, reachable, size, known, fun name x n => ?_⟩
  obtain ⟨s, found⟩ := Option.isSome_iff_exists.1 known
  have isolated := plugins_isolated reachable (p := 0) (q := 1) (by rw [size]; decide) (by rw [size]; decide) (by decide)
  obtain ⟨-, -, reads⟩ := isolated.2 _ (.inl callable) name x _ (.inl rfl)
  obtain ⟨result, before, after⟩ := reads _ s n found
  rw [before, after]

end Plugin

end Overlay
