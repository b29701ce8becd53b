import Overlay.Proofs.Building

/-!
# Raising a line of shadows

Asking for a shadow that is not there makes those of the missing ancestors first. `Plugin.Raised` is what a list of
callables does to a world when their shadows are made one after the other; the run of `Plugin.shadowOf` is such a
raising of the missing ancestry, the farthest ancestor first, or of an initial part of it when the log stops it.
-/

namespace Overlay
set_option autoImplicit false

open Act World

theorem Host.category?_congr {w v : World} (functions : ∀ o, v.heap.hostFn? o = w.heap.hostFn? o) (f : Value) :
    category? v f = category? w f := by
  have same : v.hostFn? f = w.hostFn? f := by
    unfold World.hostFn?
    split
    · exact functions _
    · rfl
  unfold category?
  rw [same]

theorem World.isCallable_congr {w v : World} (functions : ∀ o, v.heap.hostFn? o = w.heap.hostFn? o) (f : Value) :
    v.isCallable f = w.isCallable f := by
  rw [Bool.eq_iff_iff, isCallable_iff, isCallable_iff, Host.category?_congr functions]

namespace Plugin
variable {w v u : World} {statics : Key → Prop} {p : PluginId} {f g : Value} {l : List Value}

theorem shadow?_setBag (w : World) (p : PluginId) (o : ObjId) (b : Bag) (g : Value) :
    shadow? { w with heap := w.heap.setBag o b } p g = shadow? w p g := by
  have functions (a : ObjId) : (w.heap.setBag o b).hostFn? a = w.heap.hostFn? a :=
    (Heap.get_setBag_shape w.heap o a b).2
  have category := Host.category?_congr (v := { w with heap := w.heap.setBag o b }) functions g
  rw [shadow?, category, shadow?]
  rfl

namespace Made

theorem shadow?_eq (made : Made p f w v) : shadow? v p f = some ⟨w.heap.size, w.heap.size + 1⟩ :=
  made.toBuilt.shadow?_eq made.bound

theorem not_loggable {e : Fault} (made : Made p f w v) (run : exec (build p f) w = (.error e, v)) :
    ¬ Loggable v p f := by
  rw [← made.ends, run]
  exact nofun

/-- Another callable has the shadow that it had before. -/
theorem shadow?_other (made : Made p f w v) (sound : w.Sound) (other : g ≠ f) : shadow? v p g = shadow? w p g := by
  obtain ⟨c, category, extended⟩ := made.entry
  rw [shadow?, shadow?, Host.category?_congr made.functions, extended]
  cases category' : Host.category? w g with
  | none => rfl
  | some d =>
    have differ : c ≠ d := fun equal => other (Host.category?_inj sound.numbered category' (equal ▸ category))
    exact Registry.find?_append_other _ _ differ

theorem ancestral (made : Made p f w v) (sound : w.Sound) (ancestral : w.Ancestral statics) :
    v.Ancestral statics := by
  refine ancestral.advance sound made.resolves.advances.trail made.functions fun h => ⟨h, ?_⟩
  rw [World.host, made.resolves.hosts, World.host]

end Made

/-- The shadows of some callables were made, one after the other. -/
inductive Raised (p : PluginId) : List Value → World → World → Prop
  | nil (w : World) : Raised p [] w w
  | cons {f : Value} {rest : List Value} {w u v : World} (made : Made p f w u) (further : Raised p rest u v) :
      Raised p (f :: rest) w v

namespace Raised

theorem append {l' : List Value} (near : Raised p l u v) (far : Raised p l' v w) : Raised p (l ++ l') u w := by
  induction near with
  | nil _ => exact far
  | cons made _ ih => exact .cons made (ih far)

theorem resolves (raised : Raised p l w v) (sound : w.Sound) : Resolves p w.heap.size w v := by
  induction raised with
  | nil w => exact sound.resolves (.refl _ w)
  | cons made _ ih =>
    have first := made.resolves
    exact first.trans ((ih first.advances.sound).mono first.advances.trail.sameShape.size)

theorem functions (raised : Raised p l w v) (o : ObjId) : v.heap.hostFn? o = w.heap.hostFn? o := by
  induction raised with
  | nil _ => rfl
  | cons made _ ih => rw [ih, made.functions]

theorem logging (raised : Raised p l w v) : v.logging = w.logging := by
  induction raised with
  | nil _ => rfl
  | cons made _ ih => rw [ih, made.logging]

theorem ancestral (raised : Raised p l w v) (sound : w.Sound) (ancestral : w.Ancestral statics) :
    v.Ancestral statics := by
  induction raised with
  | nil _ => exact ancestral
  | cons made _ ih => exact ih made.resolves.advances.sound (made.ancestral sound ancestral)

/-- The table of the plugin got the categories of the callables, in this order. -/
theorem keys (raised : Raised p l w v) :
    (v.plugin p).shadows.keys = (w.plugin p).shadows.keys ++ l.filterMap (Host.category? w) := by
  induction raised with
  | nil _ => simp
  | @cons f rest w u v made _ ih =>
    obtain ⟨c, category, extended⟩ := made.entry
    have same : Host.category? u = Host.category? w := funext (Host.category?_congr made.functions)
    rw [ih, same, extended, List.filterMap_cons_some category]
    simp [Plugin.extend, Registry.keys]

theorem callable (raised : Raised p l w v) (listed : g ∈ l) : w.isCallable g = true := by
  induction raised with
  | nil _ => cases listed
  | cons made _ ih =>
    obtain ⟨c, category, -⟩ := made.entry
    rcases List.mem_cons.1 listed with rfl | later
    · exact isCallable_iff.2 ⟨c, category⟩
    · rw [← isCallable_congr made.functions]
      exact ih later

theorem shadow?_mem (raised : Raised p l w v) (sound : w.Sound) (listed : g ∈ l) :
    (shadow? v p g).isSome = true := by
  induction raised with
  | nil _ => cases listed
  | cons made further ih =>
    have sound' := made.resolves.advances.sound
    rcases List.mem_cons.1 listed with rfl | later
    · rw [shadow?_advance (further.resolves sound').advances made.shadow?_eq]
      rfl
    · exact ih sound' later

theorem shadow?_other (raised : Raised p l w v) (sound : w.Sound) (other : g ∉ l) :
    shadow? v p g = shadow? w p g := by
  induction raised with
  | nil _ => rfl
  | cons made _ ih =>
    rw [List.mem_cons, not_or] at other
    rw [ih made.resolves.advances.sound other.2, made.shadow?_other sound other.1]

end Raised

/-- The shadows of a chain are made with the farthest ancestor first, all of them unless the line on one of them cannot
be written to the log. -/
theorem Chain.raise (chain : Chain w p f l) (sound : w.Sound) (ancestral : w.Ancestral statics)
    (bound : p < w.plugins.size) (callable : w.isCallable f = true) :
    ∃ done v, Raised p done w v ∧
      (exec (l.reverse.forM (build p)) w = (.ok (), v) ∧ done = l.reverse ∨
        (∃ g ∈ done, ¬ Loggable v p g) ∧ done <+: l.reverse ∧ ∃ e, exec (l.reverse.forM (build p)) w = (.error e, v)) := by
  induction chain with
  | known _ => exact ⟨[], w, .nil w, .inl ⟨rfl, rfl⟩⟩
  | @last f absent top =>
    obtain ⟨r, v, run, made⟩ := build_made sound ancestral bound callable absent fun parent above ancestor =>
      absurd (Except.ok.inj (above.symm.trans top)) ancestor
    have all : exec ([f].reverse.forM (build p)) w = (r, v) := by
      show exec (build p f >>= fun _ => pure ()) w = (r, v)
      cases r with
      | ok _ => exact exec_bind_ok run
      | error e => exact exec_bind_error run
    refine ⟨[f], v, .cons made (.nil v), ?_⟩
    cases r with
    | ok _ => exact .inl ⟨all, rfl⟩
    | error e => exact .inr ⟨⟨f, by simp, made.not_loggable run⟩, List.prefix_rfl, e, all⟩
  | @more f parent rest absent above ancestor further ih =>
    obtain ⟨done, u, raised, outcome⟩ := ih (superConstructor_callable above ancestor)
    have in_turn : exec ((f :: rest).reverse.forM (build p)) w =
        exec (rest.reverse.forM (build p) >>= fun _ => [f].forM (build p)) w := by
      rw [List.reverse_cons, List.forM_eq_forM, List.forM_append]
    rw [in_turn, List.reverse_cons]
    rcases outcome with ⟨run, rfl⟩ | ⟨silenced, part, e, run⟩
    · -- the ancestors have their shadows, the callable's own is made last
      have resolves := raised.resolves sound
      have advances := resolves.advances
      have again : f ∉ rest.reverse := by
        rw [List.mem_reverse]
        exact (List.nodup_cons.1 (Chain.more absent above ancestor further).nodup).1
      have ready : ∀ parent', Host.superConstructor u (u.plugin p).host f = .ok parent' → parent' ≠ .null →
          (shadow? u p parent').isSome = true := by
        intro parent' above' _
        rw [ancestral.superConstructor_eq callable advances.trail (w.plugin p).host] at above'
        obtain rfl : parent = parent' := Except.ok.inj (above.symm.trans above')
        cases further with
        | known found =>
          rw [shadow?_advance advances found]
          rfl
        | last _ _ => exact raised.shadow?_mem sound (by simp)
        | more _ _ _ _ => exact raised.shadow?_mem sound (by simp)
      obtain ⟨r, v, last_run, made⟩ := build_made advances.sound (raised.ancestral sound ancestral)
        (by rw [resolves.plugins]; exact bound) (isCallable_later advances.trail callable)
        (by rw [raised.shadow?_other sound again]; exact absent) ready
      have all : exec ([f].forM (build p)) u = (r, v) := by
        show exec (build p f >>= fun _ => pure ()) u = (r, v)
        cases r with
        | ok _ => exact exec_bind_ok last_run
        | error e => exact exec_bind_error last_run
      refine ⟨rest.reverse ++ [f], v, raised.append (.cons made (.nil v)), ?_⟩
      rw [exec_bind_ok run, all]
      cases r with
      | ok _ => exact .inl ⟨rfl, rfl⟩
      | error e => exact .inr ⟨⟨f, by simp, made.not_loggable last_run⟩, List.prefix_rfl, e, rfl⟩
    · refine ⟨done, u, raised, .inr ⟨silenced, part.trans (List.prefix_append _ _), e, ?_⟩⟩
      exact exec_bind_error run

/-- Asking for the shadow of a callable makes those that are missing, and gives it unless the line on one of them cannot
be written to the log. -/
theorem shadowOf_raises (sound : w.Sound) (ancestral : w.Ancestral statics) (bound : p < w.plugins.size)
    (callable : w.isCallable f = true) :
    ∃ l done v, Chain w p f l ∧ Raised p done w v ∧
      ((∃ s, exec (shadowOf p f) w = (.ok s.object, v) ∧ shadow? v p f = some s) ∧ done = l.reverse ∧
          exec (l.reverse.forM (build p)) w = (.ok (), v) ∨
        (∃ g ∈ done, ¬ Loggable v p g) ∧ done <+: l.reverse ∧ ∃ e, exec (shadowOf p f) w = (.error e, v)) := by
  obtain ⟨l, answer, chain⟩ := exists_chain (p := p) ancestral callable
  obtain ⟨done, v, raised, outcome⟩ := chain.raise sound ancestral bound callable
  refine ⟨l, done, v, chain, raised, ?_⟩
  rw [shadowOf, exec_bind_ok (exec_enforceCallable _ callable), exec_get_bind, answer, exec_lift_ok_bind]
  rcases outcome with ⟨run, rfl⟩ | ⟨silenced, part, e, run⟩
  · left
    have given : (shadow? v p f).isSome = true := by
      cases chain with
      | known found =>
        rw [shadow?_advance (raised.resolves sound).advances found]
        rfl
      | last _ _ => exact raised.shadow?_mem sound (by simp)
      | more _ _ _ _ => exact raised.shadow?_mem sound (by simp)
    obtain ⟨s, found⟩ := Option.isSome_iff_exists.1 given
    refine ⟨⟨s, ?_, found⟩, rfl, run⟩
    rw [exec_bind_ok run, exec_get_bind, found]
    rfl
  · exact .inr ⟨silenced, part, e, exec_bind_error run⟩

end Plugin

end Overlay
