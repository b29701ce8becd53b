import Mathlib.Data.List.Nodup
import Overlay.Proofs.Running

/-!
# One shadow per callable

A plugin's table of shadows is only added to, at its end and under categories that are free; categories tell callables
apart, and shadows tell categories apart. So a callable has one shadow for ever, which no other callable has, and a
second registration is never tried: when an operation of a plugin stops with the report of one, then a callable
that it called has stopped with it.
-/

namespace Overlay
set_option autoImplicit false

open Act World

namespace Plugin
variable {p : PluginId} {u v w : World} {f g : Value}

/-- What is given as the shadow of a callable is registered as such. -/
theorem registered_of_shadowOf {o : ObjId} (reachable : Reachable w) (ran : exec (shadowOf p f) w = (.ok o, v)) :
    Execution w v ∧ ∃ s, shadow? v p f = some s ∧ s.object = o := by
  have execution := (shadowOf_execution (T := .all) p f w).world
  have leaves := shadowOf_leaves (p := p) (f := f) reachable.sound (Nat.le_refl w.heap.size)
  have given := (leaves.value o (by rw [ran])).1
  rw [ran] at execution given
  exact ⟨execution, given⟩

/-- Callables with the same shadow are the same. -/
theorem shadow?_inj {s t : Shadow} (sound : w.Sound) (found : shadow? w p f = some s)
    (found' : shadow? w p g = some t) (same : s.object = t.object) : f = g := by
  have ordered := sound.plugins p (lt_size_of_shadow? found)
  obtain ⟨c, category, here⟩ := Option.bind_eq_some_iff.1 found
  obtain ⟨d, category', here'⟩ := Option.bind_eq_some_iff.1 found'
  have entry : (c, s) = (d, t) :=
    List.inj_on_of_nodup_map ordered.objects (Registry.mem_of_find? here) (Registry.mem_of_find? here') same
  obtain ⟨rfl, -⟩ := Prod.mk.inj entry
  exact Host.category?_inj sound.numbered category category'

/-- The categories in the table of a plugin. -/
theorem keys_prefix (advances : Advances w v) (bound : p < w.plugins.size) :
    (w.plugin p).shadows.keys <+: (v.plugin p).shadows.keys := by
  obtain ⟨more, extended⟩ := advances.shadows p bound
  refine ⟨more.map (·.1), ?_⟩
  rw [extended]
  exact List.map_append.symm

/-- An operation of a plugin does not report a second registration itself. -/
theorem operation_blameless {invoke : Invoker} (steady : ∀ g xs u, Execution u (exec (invoke g xs) u).2)
    (reachable : Reachable w) (op : Script.PluginOp) (args : List Value) {e : Fault}
    (stopped : (exec (op.run invoke p args) w).1 = .error e) :
    e.isDuplicate = false ∨ ∃ g xs u, Execution w u ∧ (exec (invoke g xs) u).1 = .error e := by
  -- admitted is what the callables that are called may stop with where they are called
  let T : Tolerance := ⟨fun u e => e.isDuplicate = false ∨ ∃ g xs, (exec (invoke g xs) u).1 = .error e, .inl⟩
  have calls (g : Value) (xs : List Value) : Follows (.execution T) (invoke g xs) := fun u =>
    ⟨steady g xs u, fun _ _ => trivial, fun _ ended _ => ⟨u, .refl, .inr ⟨g, xs, ended⟩⟩⟩
  obtain ⟨u, execution, ordinary | ⟨g, xs, ended⟩⟩ :=
    (Script.pluginOp_execution calls p op args w).fault e stopped reachable
  · exact .inl ordinary
  · exact .inr ⟨g, xs, u, execution, ended⟩

/-- One shadow per callable, for ever. When a callable was given a shadow, then whatever comes after it, the callable
is given the same one and nothing changes, and no other callable is given it. The categories in a plugin's table are
distinct, and those of a later world begin with those of an earlier one. No operation of a plugin reports that a
category was registered twice, whatever the invoker does: if it stops with such a report, then the invoker gives this
report for a callable in a world that the operation can lead to. -/
theorem one_shadow_for_ever (reachable : Reachable w) (p : PluginId) :
    (∀ f s v, exec (shadowOf p f) w = (.ok s, v) → ∀ u, Execution v u →
      exec (shadowOf p f) u = (.ok s, u) ∧
      ∀ g t u', exec (shadowOf p g) u = (.ok t, u') → g ≠ f → t ≠ s) ∧
    (p < w.plugins.size → (w.plugin p).shadows.keys.Nodup ∧
      ∀ v, Execution w v → (w.plugin p).shadows.keys <+: (v.plugin p).shadows.keys) ∧
    ∀ invoke : Invoker, (∀ g xs u, Execution u (exec (invoke g xs) u).2) →
      ∀ (op : Script.PluginOp) args e, (exec (op.run invoke p args) w).1 = .error e →
        e.isDuplicate = false ∨ ∃ g xs u, Execution w u ∧ (exec (invoke g xs) u).1 = .error e := by
  refine ⟨fun f o v ran u later => ?_, fun bound => ⟨?_, fun v execution => ?_⟩,
    fun invoke steady op args e stopped => ?_⟩
  · obtain ⟨execution, s, found, rfl⟩ := registered_of_shadowOf reachable ran
    have reachable' := reachable.execution execution
    have found' := shadow?_advance (later.advances reachable'.sound) found
    refine ⟨exec_shadowOf_known found', fun g o u' ran' other same => other ?_⟩
    obtain ⟨last, t, given, rfl⟩ := registered_of_shadowOf (reachable'.execution later) ran'
    have advances := last.advances (reachable'.execution later).sound
    exact shadow?_inj advances.sound given (shadow?_advance advances found') same
  · exact (reachable.sound.plugins p bound).categories
  · exact keys_prefix (execution.advances reachable.sound) bound
  · exact operation_blameless steady reachable op args stopped

open Script in
/-- A plain function is given its first shadow, and then the same one, and calls do not report a second registration. -/
theorem one_shadow_for_ever_plain : ∃ w s v, Reachable w ∧ shadow? w 0 (.fn 0) = none ∧
    exec (shadowOf 0 (.fn 0)) w = (.ok s, v) ∧ exec (shadowOf 0 (.fn 0)) v = (.ok s, v) ∧
    ∀ (op : PluginOp) args e, (exec (op.run (invoke 0) 0 args) w).1 = .error e → e.isDuplicate = false := by
  have facts : (start {} false).toOption.map (fun w =>
      ((shadow? w 0 (.fn 0)).isSome, (exec (shadowOf 0 (.fn 0)) w).1.toOption.isSome)) = some (false, true) := by
    decide +kernel
  obtain ⟨w, started, -⟩ := start_default
  rw [started] at facts
  obtain ⟨absent, given⟩ := Prod.mk.inj (Option.some.inj facts)
  have reachable := start_reachable started
  rcases ran : exec (shadowOf 0 (.fn 0)) w with ⟨_ | s, v⟩
  · rw [ran] at given
    cases given
  obtain ⟨same, -, blameless⟩ := one_shadow_for_ever reachable 0
  refine ⟨w, s, v, reachable, by simpa using absent, ran, (same _ s v ran v .refl).1, fun op args e stopped => ?_⟩
  rcases blameless (invoke 0) (fun g xs u => (invoke_execution 0 g xs u).world) op args e stopped with
    ordinary | ⟨g, xs, u, -, ended⟩
  · exact ordinary
  · -- on an empty stack every call stops because it is too deep
    cases ended
    rfl

end Plugin

end Overlay
