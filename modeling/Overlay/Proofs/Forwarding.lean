import Overlay.Proofs.Frozen
import Overlay.Proofs.Lookup

/-!
# Method calls and forwarders

A method call looks the name up on the receiver's real path first. Where the nearest owner is the prototype of a
defined constructor, the call is the host's call of the real method. Where it is the pseudo-prototype that a plugin
shows for the constructor, the call comes to a forwarder, and the forwarder looks the same name up once more on the
same receiver: it finds itself, which no host can call. So a forwarder reaches the real method only when it is
applied to a receiver on whose path the real prototype is the nearest owner.
-/

namespace Overlay
set_option autoImplicit false

open Act World Emulation

theorem Key.ofValue_of? {name : Value} {k : Key} (named : Key.of? name = some k) : Key.ofValue name = .ok k := by
  rw [Key.ofValue, Name.ofValue, Name.of?]
  split
  · rename_i n found
    split at found
    · rename_i k' here
      cases found
      rw [named] at here
      cases here
      rfl
    · cases found
  · rename_i found
    split at found
    · cases found
    · rename_i absent
      rw [named] at absent
      cases absent

theorem Key.eq_ref_of_of? {v : Value} {r : Ref} (key : Key.of? v = some (.ref r)) : v = .ref r := by
  cases v with
  | ref s =>
    cases key
    rfl
  | float x =>
    have number : x.toInt?.elim (Key.float x) Key.int = .ref r := Option.some.inj key
    cases whole : x.toInt? with
    | none => rw [whole] at number; cases number
    | some i => rw [whole] at number; cases number
  | _ => cases key

/-- The objects that can be called are the host functions. -/
theorem World.isCallable_obj (w : World) (o : ObjId) : w.isCallable (.obj o) = (w.heap.hostFn? o).isSome := rfl

/-! ## Look-up of a method -/

namespace Host
variable {w : World} {r o : ObjId} {k : Key} {name x : Value}

theorem search_of_owner? (nearest : w.heap.owner? r k = some o) (member : w.heap.member? o k = some x)
    (named : Key.of? name = some k) (h : HostId) : search w h (.obj r) name = .ok (some x) := by
  change (Key.ofValue name >>= fun k => w.heap.search r k) = _
  rw [Key.ofValue_of? named]
  exact Heap.search_of_owner? nearest member

/-- A host reads what the nearest owner holds. -/
theorem exec_read_owned (nearest : w.heap.owner? r k = some o) (member : w.heap.member? o k = some x)
    (named : Key.of? name = some k) (h : HostId) : exec (read h (.obj r) name) w = (.ok x, w) := by
  have base : checkBase w (.obj r) name .read = .ok () := rfl
  rw [read, exec_get_bind, base, exec_lift_ok_bind, search_of_owner? nearest member named h, exec_lift_ok_bind, exec_pure,
    Option.getD_some]

theorem exec_has_owned (nearest : w.heap.owner? r k = some o) (member : w.heap.member? o k = some x)
    (named : Key.of? name = some k) (h : HostId) : exec (has h (.obj r) name) w = (.ok true, w) := by
  have base : checkBase w (.obj r) name .read = .ok () := rfl
  rw [has, exec_get_bind, base, exec_lift_ok_bind, search_of_owner? nearest member named h, exec_lift_ok_bind, exec_pure,
    Option.isSome_some]

end Host

namespace Plugin
variable {w : World} {p : PluginId} {r o : ObjId} {k : Key} {name x args : Value} {xs : List Value}

/-- A plugin reads what the nearest owner on the real path holds. -/
theorem exec_read_owned (plain : w.isCallable (.obj r) = false) (nearest : w.heap.owner? r k = some o)
    (member : w.heap.member? o k = some x) (named : Key.of? name = some k) :
    exec (read p (.obj r) name) w = (.ok x, w) := by
  rw [read, exec_get_bind]
  simp only [plain, Bool.false_eq_true, if_false]
  rw [exec_bind_ok (Host.exec_has_owned nearest member named _)]
  exact Host.exec_read_owned nearest member named _

/-- A method call applies what the nearest owner holds. -/
theorem exec_callMethod_owned {invoke : Invoker} (plain : w.isCallable (.obj r) = false)
    (nearest : w.heap.owner? r k = some o) (member : w.heap.member? o k = some x) (named : Key.of? name = some k)
    (defined : x ≠ .undefined) :
    exec (callMethod invoke p (.obj r) name args) w = exec (apply invoke p x (.obj r) args) w := by
  rw [callMethod, exec_bind_ok (exec_read_owned plain nearest member named)]
  split
  · exact absurd rfl defined
  · rfl

/-- A callable is applied by the host. -/
theorem exec_apply_callable {invoke : Invoker} {this : Value} (callable : w.isCallable x = true)
    (spread : Host.spread args = .ok xs) :
    exec (apply invoke p x this args) w = exec (Host.call invoke x this xs) w := by
  rw [apply, exec_get_bind]
  simp only [callable, if_true]
  rw [Host.callSpread, exec_bind_ok (exec_enforceCallable _ callable), spread, exec_lift_ok_bind]

end Plugin

/-! ## Application of a forwarder -/

namespace Script
variable {w : World}

/-- A call on a stack from which some levels are taken comes through if one is left. -/
theorem exec_invokeAfter (levels taken : Nat) (v : Value) (args : List Value) :
    exec (invokeAfter levels taken v args) w =
      if taken < levels then exec (callDirectly (invokeAfter (levels - taken - 1) (furtherLevels w v)) v args) w
      else (.error .tooDeep, w) := by
  induction levels generalizing taken with
  | zero => rw [invokeAfter, exec_stop, if_neg (Nat.not_lt_zero taken)]
  | succ levels ih =>
    cases taken with
    | zero => rw [invokeAfter, exec_get_bind, if_pos (Nat.zero_lt_succ levels), Nat.sub_zero, Nat.add_sub_cancel]
    | succ taken =>
      rw [invokeAfter, ih taken, Nat.add_sub_add_right]
      simp only [Nat.add_lt_add_iff_right]

/-- A host calls a plain function through the invoker. -/
theorem exec_call_fn (invoke : Invoker) (f : FnId) (this : Value) (args : List Value) :
    exec (Host.call invoke (.fn f) this args) w = exec (invoke (.fn f) args) w := by
  have callable : w.isCallable (.fn f) = true := rfl
  have plain : w.hostFn? (.fn f) = none := rfl
  rw [Host.call, exec_bind_ok (exec_enforceCallable "value" callable), exec_get_bind]
  simp only [plain]

theorem exec_callDirectly_fn {f : FnId} {code : Fn} (found : w.fns[f]? = some code) (invoke : Invoker)
    (args : List Value) : exec (callDirectly invoke (.fn f) args) w = exec (runFn invoke code args) w := by
  rw [callDirectly, exec_get_bind]
  simp only [found, Option.getD_some]

/-- A plain function that is called on a stack runs one level deeper, and further levels are taken of the stack. -/
theorem exec_call_fn_after {f : FnId} {code : Fn} (found : w.fns[f]? = some code) (levels taken : Nat) (this : Value)
    (args : List Value) :
    exec (Host.call (invokeAfter levels taken) (.fn f) this args) w =
      if taken < levels then
        exec (runFn (invokeAfter (levels - taken - 1) (furtherLevels w (.fn f))) code args) w
      else (.error .tooDeep, w) := by
  rw [exec_call_fn, exec_invokeAfter, exec_callDirectly_fn found]

end Script

namespace Plugin
variable {w : World} {p : PluginId} {f r : ObjId} {h : HostId} {name args : Value} {xs : List Value}

/-- An emulated function is applied through its `apply` member. -/
theorem exec_apply_emulated {a : FnId} (plain : w.heap.hostFn? f = none)
    (member : w.heap.member? f "apply" = some (.fn a)) (spread : Host.spread args = .ok xs) (invoke : Invoker)
    (this : Value) : exec (apply invoke p (.obj f) this args) w = exec (invoke (.fn a) [this, .list none xs]) w := by
  have refused : w.isCallable (.obj f) = false := by
    rw [World.isCallable_obj, plain, Option.isSome_none]
  have callable : w.isCallable (.fn a) = true := rfl
  rw [apply, exec_get_bind]
  simp only [refused, Bool.false_eq_true, if_false]
  rw [Heap.lookup_of_member? member, exec_lift_ok_bind, spread]
  simp only [callable, if_true]
  rw [exec_lift_ok_bind, Script.exec_call_fn]

open Script in
/-- A forwarder that is applied to a receiver reads its name from the receiver and calls what it reads, three levels
deeper on the stack. -/
theorem exec_apply_forwarder (forwards : Forwards w f h name) (spread : Host.spread args = .ok xs)
    (levels taken : Nat) :
    exec (apply (invokeAfter levels taken) p (.obj f) (.obj r) args) w =
      if taken + 3 ≤ levels then
        exec (do Host.call (invokeAfter (levels - (taken + 3)) 1) (← Host.read h (.obj r) name) (.obj r) xs) w
      else (.error .tooDeep, w) := by
  obtain ⟨g, emulates, code⟩ := forwards
  obtain ⟨a, member, applies⟩ := emulates.applies
  have first : furtherLevels w (.fn a) = 1 := by
    simp only [furtherLevels, applies, Option.getD_some]
  have second : furtherLevels w (.fn g) = 1 := by
    simp only [furtherLevels, code, Option.getD_some]
  rw [exec_apply_emulated emulates.plain member spread, ← exec_call_fn _ a (.obj f), exec_call_fn_after applies, first]
  by_cases room : taken + 3 ≤ levels
  · rw [if_pos (by omega), if_pos room]
    -- the application of the raw function, one level in
    change exec (Host.call (invokeAfter (levels - taken - 1) 1) (.fn g) (.obj World.useless) (.obj r :: xs)) w = _
    rw [exec_call_fn_after code, second, if_pos (by omega)]
    have left : levels - taken - 1 - 1 - 1 = levels - (taken + 3) := by omega
    rw [left]
    rfl
  · rw [if_neg room]
    by_cases some_left : taken < levels
    · rw [if_pos some_left]
      change exec (Host.call (invokeAfter (levels - taken - 1) 1) (.fn g) (.obj World.useless) (.obj r :: xs)) w = _
      rw [exec_call_fn_after code, if_neg (by omega)]
    · rw [if_neg some_left]

end Plugin

/-! ## The pseudo-prototype of a constructor -/

namespace Host
variable {w : World} {c proto : ObjId} {k : Key} {method : Value} {config : Config}

/-- What a function does not own is not among its own names. -/
theorem ownNames_without (config : Config) (absent : w.heap.member? c k = none) :
    ∃ names, ownNames w (.obj c) (excludeCoercion config) = .ok names ∧ ∀ m ∈ names, m.key ≠ k := by
  refine ⟨_, filterM_ok (fun _ => rfl) _, fun m listed same => ?_⟩
  obtain ⟨q, here, rfl⟩ := List.mem_map.1 (List.mem_filter.1 listed).1
  have nowhere : (w.heap.get c).bag.find? k = none := Option.map_eq_none_iff.1 absent
  simpa [same] using List.find?_eq_none.1 nowhere q here

/-- A callable member of a function's prototype is among its methods, unless it is left out. -/
theorem methodNames_with (link : prototypeMember w (.obj c) = .obj proto) (member : w.heap.member? proto k = some method)
    (callable : w.isCallable method = true) (other : k ≠ "constructor") (shown : config.isCoercionMember k = false) :
    ∃ names, methodNames w (.obj c) (excludeCoercion config) = .ok names ∧ ∃ m ∈ names, m.key = k := by
  obtain ⟨q, found, rfl⟩ := Option.map_eq_some_iff.1 member
  have key : q.name.key = k := by simpa using List.find?_some found
  let keep (q : Property) : Bool :=
    q.name.key != "constructor" && (!config.isCoercionMember q.name.key && w.isCallable q.value)
  have answers (q : Property) : isMethod w (excludeCoercion config) q = .ok (keep q) := by
    unfold isMethod
    by_cases ctor : q.name.key = "constructor"
    · simp [ctor, keep]
    · simp [ctor, keep, excludeCoercion, Bind.bind, Except.bind, Pure.pure, Except.pure]
  refine ⟨((w.heap.get proto).bag.props.filter keep).map (·.name), ?_, q.name, ?_, key⟩
  · rw [methodNames, link]
    change (·.map (·.name)) <$> (w.heap.get proto).bag.props.filterM (isMethod w (excludeCoercion config)) = _
    rw [filterM_ok answers]
    rfl
  · refine List.mem_map_of_mem (List.mem_filter.2 ⟨List.mem_of_find?_eq_some found, ?_⟩)
    simp [keep, key, other, shown, callable]

end Host

namespace Plugin
variable {w v : World} {p : PluginId} {f : Value}

/-- The first shadow of a callable is the one that was built for it. -/
theorem built_of_first {o : ObjId} (sound : w.Sound) (absent : shadow? w p f = none)
    (ran : exec (shadowOf p f) w = (.ok o, v)) :
    ∃ u, Advances w u ∧ (u.plugin p).config = (w.plugin p).config ∧ u.heap.size = o ∧ Built p f u v := by
  obtain ⟨resolved, ⟨s, found, rfl⟩, made⟩ :=
    (shadowOf_leaves (p := p) (f := f) sound (Nat.le_refl w.heap.size)).of_run ran
  obtain ⟨u, before, built, -⟩ := made absent
  have bound : p < w.plugins.size := (resolved sound).plugins ▸ lt_size_of_shadow? found
  have entry := built.shadow?_eq (by rw [before.plugins]; exact bound)
  obtain rfl : s = _ := Option.some.inj (found.symm.trans entry)
  obtain ⟨more, same⟩ := before.advances.shadows p bound
  exact ⟨u, before.advances, by rw [same]; rfl, rfl, built⟩

/-- The prototype that a plugin shows for a callable is its shadow's. -/
theorem lookup_of_pseudoPrototype {x : Value} (callable : w.isCallable f = true)
    (ran : exec (pseudoPrototype p f) w = (.ok x, v)) :
    ∃ o, exec (shadowOf p f) w = (.ok o, v) ∧ v.heap.lookup o "prototype" = .ok x := by
  unfold pseudoPrototype at ran
  rw [exec_get_bind] at ran
  simp only [callable, if_true] at ran
  rcases first : exec (shadowOf p f) w with ⟨e | o, u⟩
  · rw [exec_bind_error first] at ran
    cases ran
  · rw [exec_bind_ok first, exec_get_bind, exec_lift] at ran
    obtain ⟨answer, rfl⟩ := Prod.mk.inj ran
    exact ⟨o, rfl, answer⟩

end Plugin

/-- A constructor was defined in a reachable world, and its prototype owns a method under a key. -/
structure Host.DefinesMethod (w v : World) (c proto : ObjId) (k : Key) (method : Value) : Prop where
  reachable : Reachable w
  defined : ∃ h s init parent methods statics,
    exec (Host.defineConstructor h s init parent methods statics) w = (.ok c, v)
  prototype : Host.prototypeMember v (.obj c) = .obj proto
  member : v.heap.member? proto k = some method
  callable : v.isCallable method = true

namespace Host.DefinesMethod
variable {w v u : World} {c proto : ObjId} {k : Key} {method : Value}

theorem defines (real : DefinesMethod w v c proto k method) : Host.Defines w c v := by
  obtain ⟨h, s, init, parent, methods, statics, ran⟩ := real.defined
  exact .constructor h s init parent methods statics ran

theorem advances (real : DefinesMethod w v c proto k method) (execution : Execution v u) : Advances v u :=
  execution.advances (real.reachable.execution real.defines.execution).sound

/-- Afterwards the constructor and its prototype are the same for ever, and the method can still be called. -/
theorem later (real : DefinesMethod w v c proto k method) (advances : Advances v u) :
    u.isCallable (.obj c) = true ∧ Host.prototypeMember u (.obj c) = .obj proto ∧
      u.heap.get c = v.heap.get c ∧ u.heap.get proto = v.heap.get proto ∧ u.isCallable method = true := by
  obtain ⟨⟨frozen, fn, p, found, link, frozen'⟩, -⟩ := real.defines.sealed
  have found' := advances.trail.hostFn? found
  have shown (t : World) (here : t.heap.hostFn? c = some fn) : Host.prototypeMember t (.obj c) = .obj p := by
    change (t.heap.hostFn? c).elim .null (·.prototype) = _
    rw [here]
    exact link
  have same : p = proto := by
    have twice := (shown v found).symm.trans real.prototype
    cases twice
    rfl
  subst same
  refine ⟨?_, shown u found', advances.trail.keeps c frozen, advances.trail.keeps p frozen', ?_⟩
  · rw [World.isCallable_obj, found', Option.isSome_some]
  · obtain ⟨d, category⟩ := isCallable_iff.1 real.callable
    exact isCallable_iff.2 ⟨d, advances.category? category⟩

end Host.DefinesMethod

namespace Plugin
variable {w₀ w₁ w₂ w₃ : World} {p : PluginId} {c proto q : ObjId} {k : Key} {method : Value}

/-- When the pseudo-prototype of a constructor is first asked for, it holds a forwarder for each method that is not
left out. -/
theorem holds_of_first (real : Host.DefinesMethod w₀ w₁ c proto k method) (execution : Execution w₁ w₂)
    (absent : shadow? w₂ p (.obj c) = none) (undisturbed : w₁.heap.member? c "prototype" = none)
    (other : k ≠ "constructor") (shown : (w₂.plugin p).config.isCoercionMember k = false)
    (ran : exec (pseudoPrototype p (.obj c)) w₂ = (.ok (.obj q), w₃)) : ∃ h, HoldsForwarder w₃ h q k := by
  have advances := real.advances execution
  obtain ⟨o, made, answer⟩ := lookup_of_pseudoPrototype (real.later advances).1 ran
  obtain ⟨u, further, config, rfl, built⟩ := built_of_first advances.sound absent made
  obtain ⟨-, link, same, same', callable⟩ := real.later (advances.trans further)
  rw [← config] at shown
  have own : u.heap.member? c "prototype" = none := by
    rw [Heap.member?, same]
    exact undisturbed
  have method_here : u.heap.member? proto k = some method := by
    rw [Heap.member?, same']
    exact real.member
  obtain ⟨members', owned', others⟩ := Host.ownNames_without (u.plugin p).config own
  obtain ⟨names', named', m, listed, rfl⟩ := Host.methodNames_with link method_here callable other shown
  obtain rfl := Except.ok.inj ((Host.ownNames_eq u (u.plugin p).config (.obj c)).symm.trans owned')
  obtain rfl := Except.ok.inj (built.named.symm.trans named')
  have here := Heap.lookup_of_member? (built.member?_prototype others)
  obtain rfl : q = u.heap.size + 1 := by
    rw [here] at answer
    cases answer
    rfl
  exact ⟨_, built.holdsForwarder listed⟩

/-- No host calls an object that is no host function. -/
theorem exec_call_refused {w : World} {f : ObjId} (plain : w.heap.hostFn? f = none) (invoke : Invoker) (this : Value)
    (args : List Value) : exec (Host.call invoke (.obj f) this args) w =
      (.error (.notCallable "value" TypeTag.object.word), w) := by
  have refused : w.isCallable (.obj f) = false := by
    rw [World.isCallable_obj, plain, Option.isSome_none]
  have word : w.tagWord (.obj f) = TypeTag.object.word := by
    rw [World.tagWord]
    change (if w.isCallable (.obj f) then TypeTag.function else TypeTag.object).word = _
    rw [refused]
    rfl
  rw [Host.call, exec_bind_error (exec_enforceCallable_refused "value" refused), word]

open Script in
/-- Where method calls lead. The prototype of a defined constructor owns a method, and `r` is an object that is no
callable.

When the prototype is the nearest owner of the name on the path of `r`, a method call is the host's call of the method
on `r`, whatever the callables do that are called.

When it is the pseudo-prototype, as it was first shown for the constructor, the forwarder there finds itself under the
name, so that the call stops and changes nothing: the forwarder is not callable, unless the stack is too small to
come so far. The forwarder does call the method, three levels deeper on the stack, when it is applied to an `r` on
whose path the prototype is the nearest owner. -/
theorem method_call_outcome {name args : Value} {xs : List Value}
    (real : Host.DefinesMethod w₀ w₁ c proto k method) (named : Key.of? name = some k)
    (spread : Host.spread args = .ok xs) (p : PluginId) (r : ObjId) :
    (∀ w, Execution w₁ w → w.isCallable (.obj r) = false → w.heap.owner? r k = some proto → ∀ invoke,
      exec (callMethod invoke p (.obj r) name args) w = exec (Host.call invoke method (.obj r) xs) w) ∧
    ∀ w₂ q w₃, Execution w₁ w₂ → shadow? w₂ p (.obj c) = none → w₁.heap.member? c "prototype" = none →
      k ≠ "constructor" → (w₂.plugin p).config.isCoercionMember k = false →
      exec (pseudoPrototype p (.obj c)) w₂ = (.ok (.obj q), w₃) →
      ∃ f, w₃.heap.member? q k = some (.obj f) ∧ ∀ w levels taken, Execution w₃ w →
        w.heap.member? q k = some (.obj f) → w.heap.get f = w₃.heap.get f →
        (w.isCallable (.obj r) = false → w.heap.owner? r k = some q →
          exec (callMethod (invokeAfter levels taken) p (.obj r) name args) w =
            (.error (if taken + 3 ≤ levels then .notCallable "value" TypeTag.object.word else .tooDeep), w)) ∧
        (w.heap.owner? r k = some proto →
          exec (apply (invokeAfter levels taken) p (.obj f) (.obj r) args) w =
            if taken + 3 ≤ levels then exec (Host.call (invokeAfter (levels - (taken + 3)) 1) method (.obj r) xs) w
            else (.error .tooDeep, w)) := by
  have kept {w : World} (advances : Advances w₁ w) : w.heap.member? proto k = some method := by
    obtain ⟨-, -, -, same, -⟩ := real.later advances
    rw [Heap.member?, same]
    exact real.member
  refine ⟨fun w execution plain nearest invoke => ?_,
    fun w₂ q w₃ execution absent undisturbed other shown ran => ?_⟩
  · have advances := real.advances execution
    obtain ⟨-, -, -, -, callable⟩ := real.later advances
    have defined : method ≠ .undefined := fun same => by
      rw [same] at callable
      cases callable
    rw [exec_callMethod_owned plain nearest (kept advances) named defined, exec_apply_callable callable spread]
  · obtain ⟨h, f, asked, member, -, key, forwards⟩ := holds_of_first real execution absent undisturbed other shown ran
    have shows : Execution w₂ w₃ := by
      have execution := (pseudoPrototype_execution (T := .all) p (.obj c) w₂).world
      rw [ran] at execution
      exact execution
    refine ⟨f, member, fun w levels taken later member' same => ?_⟩
    have advances := real.advances ((execution.trans shows).trans later)
    have since := later.advances (real.advances (execution.trans shows)).sound
    have forwards' : Forwards w f h asked := by
      refine forwards.later since.trail since.fns ?_
      rw [Heap.member?, same, Heap.member?]
    refine ⟨fun plain nearest => ?_, fun nearest => ?_⟩
    · have defined : (.obj f : Value) ≠ .undefined := by
        intro same
        cases same
      rw [exec_callMethod_owned plain nearest member' named defined, exec_apply_forwarder forwards' spread]
      split
      · rw [exec_bind_ok (Host.exec_read_owned nearest member' key h)]
        exact exec_call_refused forwards'.plain _ _ _
      · rfl
    · rw [exec_apply_forwarder forwards' spread]
      split
      · rw [exec_bind_ok (Host.exec_read_owned nearest (kept advances) key h)]
      · rfl

open Script in
/-- An object that descends from the pseudo-prototype of a constructor with a method: calls of the method stop. -/
theorem method_call_outcome_point : ∃ w r q, Reachable w ∧ w.heap.owner? r "norm" = some q ∧
    ∀ levels taken mark xs, exec (callMethod (invokeAfter levels taken) 0 (.obj r) (.str "norm") (.list mark xs)) w =
      (.error (if taken + 3 ≤ levels then .notCallable "value" TypeTag.object.word else .tooDeep), w) := by
  let define : Act ObjId := Host.defineConstructor 0 { name := .str "Point" } .null .null
    [(⟨.text "norm", .str "norm", rfl⟩, .fn 0)] []
  let asking : Act Value := pseudoPrototype 0 (.obj 17)
  obtain ⟨w₀, started, -⟩ := start_default
  -- the constructor is object 17 and its prototype object 16
  have defining : (start {} false).toOption.map (fun w₀ =>
      let w₁ := (exec define w₀).2
      ((exec define w₀).1.toOption, Key.of? (Host.prototypeMember w₁ (.obj 17)),
        (w₁.heap.member? 16 "norm").map w₁.isCallable, (w₁.heap.member? 17 "prototype").isSome,
        (shadow? w₁ 0 (.obj 17)).isSome, (w₁.plugin 0).config.isCoercionMember "norm")) =
      some (some 17, some (.ref (.object 16)), some true, false, false, false) := by
    decide +kernel
  -- the pseudo-prototype is object 21, its forwarder object 22, and the receiver object 24
  have showing : (start {} false).toOption.map (fun w₀ =>
      let w₁ := (exec define w₀).2
      let w₃ := (exec asking w₁).2
      let w := (exec (Act.begetFrom (.obj 21)) w₃).2
      ((exec asking w₁).1.toOption.bind Key.of?, (w₃.heap.member? 21 "norm").bind Key.of?, w₃.heap.size,
        w.isCallable (.obj 24), w.heap.owner? 24 "norm")) =
      some (some (.ref (.object 21)), some (.ref (.object 22)), 24, false, some 21) := by
    decide +kernel
  rw [started] at defining showing
  obtain ⟨defined, proto, method, own, absent, shown⟩ : _ ∧ _ ∧ _ ∧ _ ∧ _ ∧ _ := by
    simpa only [Prod.mk.injEq] using Option.some.inj defining
  obtain ⟨asked, forwarder, size, plain, nearest⟩ : _ ∧ _ ∧ _ ∧ _ ∧ _ := by
    simpa only [Prod.mk.injEq] using Option.some.inj showing
  rcases ran : exec define w₀ with ⟨_ | c, w₁⟩
  · rw [ran] at defined
    cases defined
  rw [ran] at defined proto method own absent shown asked forwarder size plain nearest
  obtain rfl : c = 17 := Option.some.inj defined
  rcases ran' : exec asking w₁ with ⟨_ | x, w₃⟩
  · rw [ran'] at asked
    cases asked
  rw [ran'] at asked forwarder size plain nearest
  obtain rfl : x = .obj 21 := Key.eq_ref_of_of? asked
  obtain ⟨m, member, callable⟩ := Option.map_eq_some_iff.1 method
  obtain ⟨g, held, key⟩ := Option.bind_eq_some_iff.1 forwarder
  obtain rfl : g = .obj 22 := Key.eq_ref_of_of? key
  have reachable := start_reachable started
  have real : Host.DefinesMethod w₀ w₁ 17 16 "norm" m :=
    ⟨reachable, ⟨_, _, _, _, _, _, ran⟩, Key.eq_ref_of_of? proto, member, callable⟩
  have shows : Execution w₁ w₃ := by
    have execution := (pseudoPrototype_execution (T := .all) 0 (.obj 17) w₁).world
    change Execution w₁ (exec asking w₁).2 at execution
    rw [ran'] at execution
    exact execution
  have begets : Execution w₃ (exec (Act.begetFrom (.obj 21)) w₃).2 := (begetFrom_execution (T := .all) (.obj 21) w₃).world
  have reaches := (reachable.execution real.defines.execution).execution (shows.trans begets)
  refine ⟨_, 24, 21, reaches, nearest, fun levels taken mark xs => ?_⟩
  have named : Key.of? (.str "norm") = some "norm" := rfl
  have spread : Host.spread (.list mark xs) = .ok xs := rfl
  obtain ⟨f, here, calls⟩ := (method_call_outcome real named spread 0 24).2 w₁ 21 w₃ .refl
    (by simpa using absent) (by simpa using own) (by decide) shown ran'
  obtain rfl : f = 22 := by
    rw [held] at here
    cases here
    rfl
  -- the receiver is the only new object, so the pseudo-prototype and its forwarder are as they were
  have old {o : ObjId} (below : o < 24) : (exec (Act.begetFrom (.obj 21)) w₃).2.heap.get o = w₃.heap.get o :=
    Heap.get_push_old _ (Nat.lt_of_lt_of_le below (Nat.le_of_eq size.symm))
  refine (calls _ levels taken begets ?_ (old (by decide))).1 plain nearest
  rw [Heap.member?, old (by decide)]
  exact held

end Plugin

end Overlay
