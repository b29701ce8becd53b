import Overlay.Proofs.Soundness

/-!
# How shadows are made

A shadow is asked for by category, so what is registered once is found for ever. The callables whose shadows are
missing form a chain without repetitions: a callable met again would have the same super constructors again, and
the chain would not end. So when the shadows are made, each category is still free, and the report that something
was registered twice is never given.
-/

namespace Overlay
set_option autoImplicit false

open Act World Emulation

namespace Registry
variable {κ ν : Type} [BEq κ]

theorem contains_eq (r : Registry κ ν) (k : κ) : r.contains k = (r.find? k).isSome := by
  rw [contains, find?, Option.isSome_map, List.isSome_find?]

/-- What is registered stays registered when entries are added. -/
theorem find?_append_left {r : Registry κ ν} {k : κ} {v : ν} (more : List (κ × ν)) (found : r.find? k = some v) :
    (Registry.mk (r.entries ++ more)).find? k = some v := by
  obtain ⟨e, here, value⟩ := Option.map_eq_some_iff.1 found
  rw [find?, List.find?_append, here]
  exact congrArg some value

variable [LawfulBEq κ]

/-- A new entry is found under its key. -/
theorem find?_append_same {r : Registry κ ν} {k : κ} (v : ν) (absent : r.find? k = none) :
    (Registry.mk (r.entries ++ [(k, v)])).find? k = some v := by
  have nowhere : r.entries.find? (fun e => e.1 == k) = none := Option.map_eq_none_iff.1 absent
  rw [find?, List.find?_append, nowhere]
  simp

/-- A new entry makes no difference to other keys. -/
theorem find?_append_other (r : Registry κ ν) {k l : κ} (v : ν) (other : k ≠ l) :
    (Registry.mk (r.entries ++ [(k, v)])).find? l = r.find? l := by
  simp [find?, List.find?_append, other]

theorem not_mem_keys {r : Registry κ ν} {k : κ} (absent : r.find? k = none) : k ∉ r.keys := by
  intro listed
  obtain ⟨e, here, rfl⟩ := List.mem_map.1 listed
  have nowhere : r.entries.find? (fun x => x.1 == e.1) = none := Option.map_eq_none_iff.1 absent
  simpa using List.find?_eq_none.1 nowhere e here

theorem mem_of_find? {r : Registry κ ν} {k : κ} {v : ν} (found : r.find? k = some v) : (k, v) ∈ r.entries := by
  obtain ⟨e, here, rfl⟩ := Option.map_eq_some_iff.1 found
  have key : e.1 = k := by simpa using List.find?_some here
  rw [← key]
  exact List.mem_of_find?_eq_some here

end Registry

namespace World
variable {w v : World}

/-- A callable keeps its category. -/
theorem Advances.category? {f : Value} {c : Category} (h : Advances w v) (found : Host.category? w f = some c) :
    Host.category? v f = some c := by
  rcases Host.category?_cases found with ⟨i, rfl, rfl⟩ | ⟨o, fn, rfl, host, rfl⟩
  · rfl
  · simp [Host.category?, World.hostFn?, h.trail.hostFn? host]

/-- The values that can be called are those that have a category. -/
theorem isCallable_iff {f : Value} : w.isCallable f = true ↔ ∃ c, Host.category? w f = some c := by
  rw [← Option.isSome_iff_exists]
  unfold World.isCallable Host.category?
  split
  · simp
  · simp

end World

namespace Plugin
variable {w v : World} {p : PluginId} {f : Value}

/-- A shadow is found only in a plugin that is there. -/
theorem lt_size_of_shadow? {s : Shadow} (found : shadow? w p f = some s) : p < w.plugins.size := by
  obtain ⟨c, -, here⟩ := Option.bind_eq_some_iff.1 found
  refine Nat.lt_of_not_le fun out => ?_
  have empty : w.plugin p = default := by rw [World.plugin, Array.getElem?_eq_none out]; rfl
  rw [empty] at here
  cases here

/-- A shadow that is there stays. -/
theorem shadow?_advance {s : Shadow} (h : Advances w v) (found : shadow? w p f = some s) :
    shadow? v p f = some s := by
  have bound := lt_size_of_shadow? found
  obtain ⟨c, category, here⟩ := Option.bind_eq_some_iff.1 found
  obtain ⟨more, grown⟩ := h.shadows p bound
  rw [shadow?, h.category? category, grown]
  exact Registry.find?_append_left more here

/-! ## The chain of missing shadows -/

/-- The chain of a callable: it and its super constructors up to the first that has a shadow or none above it. -/
inductive Chain (w : World) (p : PluginId) : Value → List Value → Prop
  | known {f : Value} {s : Shadow} (found : shadow? w p f = some s) : Chain w p f []
  | last {f : Value} (absent : shadow? w p f = none)
      (top : Host.superConstructor w (w.plugin p).host f = .ok .null) : Chain w p f [f]
  | more {f parent : Value} {rest : List Value} (absent : shadow? w p f = none)
      (above : Host.superConstructor w (w.plugin p).host f = .ok parent) (ancestor : parent ≠ .null)
      (further : Chain w p parent rest) : Chain w p f (f :: rest)

theorem missing_known {fuel : Nat} {s : Shadow} (found : shadow? w p f = some s) :
    missing w p (fuel + 1) f = .ok [] := by
  rw [missing, found]
  rfl

theorem missing_chain {fuel : Nat} {l : List Value} (answer : missing w p fuel f = .ok l) : Chain w p f l := by
  induction fuel generalizing f l with
  | zero => cases answer
  | succ fuel ih =>
    cases found : shadow? w p f with
    | some s =>
      rw [missing_known found] at answer
      cases answer
      exact .known found
    | none =>
      rw [missing, found] at answer
      simp only [Option.isSome_none, Bool.false_eq_true, if_false] at answer
      cases above : Host.superConstructor w (w.plugin p).host f with
      | error e => rw [above] at answer; cases answer
      | ok parent =>
        rw [above] at answer
        dsimp only [Bind.bind, Except.bind] at answer
        split at answer
        · cases answer
          exact .last found above
        · rename_i ancestor
          cases further : missing w p fuel parent with
          | error e => rw [further] at answer; cases answer
          | ok rest =>
            rw [further] at answer
            cases answer
            exact .more found above ancestor (ih further)

namespace Chain
variable {l l' : List Value} {g : Value}

/-- A callable has one chain. -/
theorem unique (chain : Chain w p f l) (chain' : Chain w p f l') : l = l' := by
  induction chain generalizing l' with
  | known found =>
    cases chain' with
    | known _ => rfl
    | last absent _ => rw [found] at absent; cases absent
    | more absent _ _ _ => rw [found] at absent; cases absent
  | last absent top =>
    cases chain' with
    | known found => rw [found] at absent; cases absent
    | last _ _ => rfl
    | more _ above ancestor _ => exact absurd (Except.ok.inj (above.symm.trans top)) ancestor
  | more absent above ancestor _ ih =>
    cases chain' with
    | known found => rw [found] at absent; cases absent
    | last _ top => exact absurd (Except.ok.inj (above.symm.trans top)) ancestor
    | more _ above' _ further' =>
      obtain rfl := Except.ok.inj (above.symm.trans above')
      rw [ih further']

/-- A callable of a chain has no shadow, and its own chain is not longer. -/
theorem of_mem (chain : Chain w p f l) (listed : g ∈ l) :
    shadow? w p g = none ∧ ∃ own, Chain w p g own ∧ own.length ≤ l.length := by
  induction chain with
  | known _ => cases listed
  | last absent top =>
    obtain rfl := List.mem_singleton.1 listed
    exact ⟨absent, _, .last absent top, Nat.le_refl _⟩
  | more absent above ancestor further ih =>
    rcases List.mem_cons.1 listed with rfl | later
    · exact ⟨absent, _, .more absent above ancestor further, Nat.le_refl _⟩
    · obtain ⟨absent', own, chain', shorter⟩ := ih later
      exact ⟨absent', own, chain', Nat.le_succ_of_le shorter⟩

/-- No callable is met twice: its chain would have to be shorter than itself. -/
theorem nodup (chain : Chain w p f l) : l.Nodup := by
  induction chain with
  | known _ => exact List.nodup_nil
  | last _ _ => simp
  | more absent above ancestor further ih =>
    refine List.nodup_cons.2 ⟨fun again => ?_, ih⟩
    obtain ⟨-, own, chain', shorter⟩ := further.of_mem again
    rw [← (Chain.more absent above ancestor further).unique chain', List.length_cons] at shorter
    exact Nat.not_succ_le_self _ shorter

/-- A chain of missing shadows starts with the callable itself. -/
theorem eq_cons (chain : Chain w p f l) (absent : shadow? w p f = none) : ∃ rest, l = f :: rest := by
  cases chain with
  | known found => rw [found] at absent; cases absent
  | last _ _ => exact ⟨[], rfl⟩
  | more _ _ _ _ => exact ⟨_, rfl⟩

end Chain

/-- A super constructor can be called, unless it is null. -/
theorem superConstructor_callable {h : HostId} {parent : Value} (above : Host.superConstructor w h f = .ok parent)
    (ancestor : parent ≠ .null) : w.isCallable parent = true := by
  unfold Host.superConstructor at above
  split at above
  · cases above
    exact absurd rfl ancestor
  · dsimp only [Bind.bind, Except.bind] at above
    split at above
    · cases above
    · cases above
      split at ancestor
      · rename_i callable
        simp only [callable, if_true]
        exact (Bool.and_eq_true _ _ ▸ callable).1
      · exact absurd rfl ancestor

theorem Chain.callable {l : List Value} {g : Value} (chain : Chain w p f l) (callable : w.isCallable f = true)
    (listed : g ∈ l) : w.isCallable g = true := by
  induction chain with
  | known _ => cases listed
  | last _ _ =>
    obtain rfl := List.mem_singleton.1 listed
    exact callable
  | more _ above ancestor _ ih =>
    rcases List.mem_cons.1 listed with rfl | later
    · exact callable
    · exact ih (superConstructor_callable above ancestor) later

/-- A shadow that is there is given, and nothing else happens. -/
theorem exec_shadowOf_known {s : Shadow} (found : shadow? w p f = some s) :
    exec (shadowOf p f) w = (.ok s.object, w) := by
  obtain ⟨c, category, -⟩ := Option.bind_eq_some_iff.1 found
  have callable : w.isCallable f = true := isCallable_iff.2 ⟨c, category⟩
  rw [shadowOf, exec_bind_ok (exec_enforceCallable _ callable), exec_get_bind, missing_known found,
    exec_lift_ok_bind]
  have none_missing : exec ([].reverse.forM (build p)) w = (.ok (), w) := rfl
  rw [exec_bind_ok none_missing, exec_get_bind]
  simp only [found, exec_pure]

end Plugin

end Overlay
