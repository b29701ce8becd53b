import Overlay.Proofs.Instances

/-!
# What a class is known by

A class is found again from its prototype: what the prototype owns as `constructor` is the direct constructor of all
objects that are linked to it, the super constructor of all classes that are defined over it, and by this the source of
what instances are supplied with. A definition puts the new constructor there first and the methods after it, under
their names, whatever these are. So a class is known by its own constructor just if no method is named `constructor`;
otherwise it is known by the function that was made for the last method of that name (`class_known_by`).
-/

namespace Overlay
set_option autoImplicit false

open Act World

namespace Host
variable {w v u : World}

/-- The method that is put last under `constructor`. -/
def constructorMethod (methods : List (Name × Value)) : Option Value :=
  (methods.filter fun m => m.1.key = Key.text "constructor").getLast?.map (·.2)

section Methods
variable {m : Name × Value} {methods : List (Name × Value)}

theorem constructorMethod_eq_none_iff :
    constructorMethod methods = none ↔ ∀ m ∈ methods, m.1.key ≠ Key.text "constructor" := by
  simp [constructorMethod]

theorem constructorMethod_cons_other (other : m.1.key ≠ Key.text "constructor") :
    constructorMethod (m :: methods) = constructorMethod methods := by
  simp [constructorMethod, other]

theorem constructorMethod_cons_same (same : m.1.key = Key.text "constructor") :
    constructorMethod (m :: methods) = some ((constructorMethod methods).getD m.2) := by
  simp only [constructorMethod, List.filter_cons, same, decide_true, if_true, List.getLast?_cons]
  cases (methods.filter fun m => m.1.key = Key.text "constructor").getLast? <;> rfl

end Methods

/-- A definition makes a new function of the given implementation. -/
theorem defineFunction_ok {h : HostId} {f : ObjId} {impl : Impl} {s : Signature}
    (run : exec (defineFunction h impl s) w = (.ok f, v)) :
    w.heap.size ≤ f ∧ ∃ fn, v.heap.hostFn? f = some fn ∧ fn.impl = impl := by
  rw [defineFunction, exec_get_bind] at run
  dsimp only at run
  generalize (w.host h).objectPrototype = op at run
  generalize (w.host h).functionPrototype = fp at run
  cases sourced : s.sourceIn (drawn { w with heap := w.heap.push { proto := .obj op } }) with
  | error e =>
    rw [exec_define_error op fp impl sourced] at run
    cases run
  | ok source =>
    rw [exec_define op fp impl sourced] at run
    obtain ⟨answer, rfl⟩ := Prod.mk.inj run
    obtain rfl := Except.ok.inj answer
    have last : w.heap.size + 1 = (w.heap.push (definedPrototype op (w.heap.size + 1))).size := by simp
    refine ⟨Nat.le_succ _, ⟨impl, w.nextCategory, .obj w.heap.size, s.arityIn w impl, source⟩, ?_, rfl⟩
    exact (congrArg (Heap.hostFn? _) last).trans (congrArg Obj.host (Heap.get_push_new _ _))

/-- By which function a class is known after its methods were put, if it was known by `g` before: by the same one if no
method is named `constructor`, and otherwise by a new one that runs the last of these methods. -/
def KnownBy (w v : World) (g g' : ObjId) : Option Value → Prop
  | none => g' = g
  | some x => w.heap.size ≤ g' ∧ ∃ fn, v.heap.hostFn? g' = some fn ∧ fn.impl = .value x

theorem KnownBy.earlier {g g' : ObjId} {method : Option Value} (known : KnownBy u v g g' method)
    (size : w.heap.size ≤ u.heap.size) : KnownBy w v g g' method := by
  cases method with
  | none => exact known
  | some x => exact ⟨Nat.le_trans size known.1, known.2⟩

/-- Methods that are put on a prototype change what it owns as `constructor` as far as they are named so. -/
theorem defineMethods_known {h : HostId} {q g : ObjId} {methods : List (Name × Value)} (inside : q < w.heap.size)
    (owned : w.heap.member? q "constructor" = some (.obj g)) (run : exec (defineMethods h q methods) w = (.ok (), v)) :
    ∃ g', v.heap.member? q "constructor" = some (.obj g') ∧ KnownBy w v g g' (constructorMethod methods) := by
  induction methods generalizing w g with
  | nil =>
    obtain ⟨-, rfl⟩ := Prod.mk.inj run
    exact ⟨g, owned, rfl⟩
  | cons m rest ih =>
    rw [defineMethods, List.forM_eq_forM, List.forM_cons] at run
    obtain ⟨_, u, round, run⟩ := exists_of_exec_bind run
    obtain ⟨f, t, made, put⟩ := exists_of_exec_bind round
    obtain ⟨new, fn, host, impl⟩ := defineFunction_ok made
    obtain ⟨near, -⟩ := (defineFunction_leaves h (.value m.2) { name := m.1.value } (Nat.le_refl w.heap.size)).of_run made
    obtain ⟨far, k, spelled, -, rfl⟩ := (putProperty_leaves (n := 0) q m.1.value (.obj f) false (Nat.zero_le _)).of_run put
    obtain rfl : m.1 = k := Option.some.inj ((Name.of?_value m.1).symm.trans spelled)
    have inside₁ : q < t.heap.size := Nat.lt_of_lt_of_le inside near.size_le
    have inside₂ := Nat.lt_of_lt_of_le inside₁ far.size_le
    have size := Nat.le_trans near.size_le far.size_le
    by_cases named : m.1.key = Key.text "constructor"
    · have owned₂ := Heap.member?_put_same m.1 (.obj f) false inside₁
      rw [named] at owned₂
      obtain ⟨g', owned', known⟩ := ih inside₂ owned₂ run
      refine ⟨g', owned', ?_⟩
      rw [constructorMethod_cons_same named]
      cases later : constructorMethod rest with
      | some x =>
        rw [later] at known
        exact known.earlier size
      | none =>
        rw [later] at known
        obtain rfl : g' = f := known
        -- no later method is named so, and what they make leaves the function as it is
        obtain ⟨last, -⟩ := (defineMethods_leaves (n := 0) h rest (Nat.zero_le _) (Nat.zero_le q)
          (Heap.frozenFrom_of_size_le (Nat.le_refl _))).of_run run
        exact ⟨new, fn, last.trail.hostFn? (far.trail.hostFn? host), impl⟩
    · have owned₂ : (t.heap.setBag q ((t.heap.get q).bag.put m.1 (.obj f) false)).member? q (Key.text "constructor") =
          some (.obj g) := by
        rw [Heap.member?_put_other _ _ _ (.inl named), Heap.member?, near.old q inside]
        exact owned
      obtain ⟨g', owned', known⟩ := ih inside₂ owned₂ run
      refine ⟨g', owned', ?_⟩
      rw [constructorMethod_cons_other named]
      exact known.earlier size

/-- Once the methods are there, a definition leaves the members of the prototype as they are. -/
theorem finish_leaves {q f : ObjId} (statics : List (Name × Value)) (apart : q ≠ f) (k : Key) :
    Leaves (.growth 0) (do
      statics.forM fun m => Act.putProperty f m.1.value m.2 true
      Act.freeze q
      Act.freeze f
      return f) w fun g v => g = f ∧ v.heap.member? q k = w.heap.member? q k := by
  refine .bind (.forM (I := fun v => v.heap.member? q k = w.heap.member? q k) rfl fun m _ u _ same => ?_)
    fun _ u _ same => ?_
  · refine (putProperty_leaves f m.1.value m.2 true (Nat.zero_le f)).conseq fun _ v _ => ?_
    rintro ⟨name, -, -, rfl⟩
    exact (Heap.member?_put_other _ _ _ (.inr apart)).trans same
  · refine .bind (freeze_leaves q (Nat.zero_le q)) fun _ v _ frozen => ?_
    refine .bind (freeze_leaves f (Nat.zero_le f)) fun _ t _ frozen' => .pure ⟨rfl, ?_⟩
    have near : v.heap.member? q k = u.heap.member? q k := by
      rw [frozen]
      exact Heap.member?_setBag _ fun _ => rfl
    have far : t.heap.member? q k = v.heap.member? q k := by
      rw [frozen']
      exact Heap.member?_setBag _ fun _ => rfl
    rw [far, near, same]

/-- A defined class is known by its constructor, or by what was made for a method of that name. -/
theorem defineConstructor_known {h : HostId} {s : Signature} {init parent : Value} {methods statics : List (Name × Value)}
    {c : ObjId} (ran : exec (defineConstructor h s init parent methods statics) w = (.ok c, v)) :
    HasPrototype v.heap c w.heap.size ∧ ∃ g fn, v.heap.member? w.heap.size "constructor" = some (.obj g) ∧
      v.heap.hostFn? g = some fn ∧ (g = c ↔ ∀ m ∈ methods, m.1.key ≠ Key.text "constructor") ∧
      ∀ x, constructorMethod methods = some x → fn.impl = .value x := by
  have run := ran
  rw [defineConstructor, exec_get_bind] at run
  obtain ⟨link, answer, run⟩ := exists_of_exec_lift_bind run
  have has : HasPrototype v.heap c w.heap.size := (defineConstructor_links answer ran).1
  refine ⟨has, ?_⟩
  rw [exec_bind_ok (exec_begetFrom_eq w _)] at run
  have size : (w.begetting link).heap.size = w.heap.size + 1 := Array.size_push _
  obtain ⟨f, u₁, made, run⟩ := exists_of_exec_bind run
  obtain ⟨-, isNext, bag, arity, source, -, world⟩ := (newFunction_leaves (n := 0) _ _ _ _ (Nat.zero_le _)).of_run made
  have host : u₁.heap.hostFn? f = some ⟨initialiser w init, (w.begetting link).nextCategory, .obj w.heap.size, arity,
      source⟩ := by
    rw [world, isNext]
    exact congrArg Obj.host (Heap.get_push_new _ _)
  clear world
  have newer : w.heap.size < f := by
    rw [isNext, size]
    exact Nat.lt_succ_self _
  have inside : w.heap.size < u₁.heap.size := Nat.lt_trans newer (Heap.lt_size_of_hostFn? host)
  obtain ⟨_, u₂, put, run⟩ := exists_of_exec_bind run
  obtain ⟨near, owned, -⟩ := (Emulation.putHidden_members_leaves (n := 0) "constructor" (.obj f) (Nat.zero_le _)).of_run put
  obtain ⟨_, u₃, defined, run⟩ := exists_of_exec_bind run
  obtain ⟨g, owned', known⟩ := defineMethods_known (Nat.lt_of_lt_of_le inside near.size_le) (owned inside) defined
  obtain ⟨far, -⟩ := (defineMethods_leaves (n := 0) h methods (Nat.zero_le _) (Nat.zero_le _)
    (Heap.frozenFrom_of_size_le (Nat.le_refl _))).of_run defined
  obtain ⟨last, rfl, same⟩ := (finish_leaves statics (Nat.ne_of_lt newer) (Key.text "constructor")).of_run run
  have host₂ := near.trail.hostFn? host
  rw [← constructorMethod_eq_none_iff]
  cases method : constructorMethod methods with
  | none =>
    rw [method] at known
    obtain rfl : g = c := known
    exact ⟨g, _, same.trans owned', last.trail.hostFn? (far.trail.hostFn? host₂), by simp, by rintro x ⟨⟩⟩
  | some x =>
    rw [method] at known
    obtain ⟨late, fn, made', impl⟩ := known
    have differs : g ≠ c := Nat.ne_of_gt (Nat.lt_of_lt_of_le (Heap.lt_size_of_hostFn? host₂) late)
    refine ⟨g, fn, same.trans owned', last.trail.hostFn? made', by simp [differs], ?_⟩
    rintro y ⟨⟩
    exact impl

/-! ## In later worlds -/

/-- What an object is linked to owns the direct constructor of the object. -/
theorem directConstructor_linked {o q g : ObjId} (linked : w.heap.Linked o (.obj q))
    (owned : w.heap.member? q "constructor" = some (.obj g)) (h : HostId) :
    directConstructor w h (.obj o) = .ok (.obj g) := by
  have proto : prototypeOf w h (.obj o) = .ok (.obj q) := congrArg Except.ok linked.2
  rw [directConstructor, proto]
  exact (Heap.ownConstructor_eq w.heap q).trans (by rw [owned]; rfl)

/-- The super constructor of a host function is what its prototype is linked to owns as `constructor`. -/
theorem superConstructor_linked {d o q g : ObjId} {fn : HostFn} (has : HasPrototype w.heap d o)
    (linked : w.heap.Linked o (.obj q)) (owned : w.heap.member? q "constructor" = some (.obj g))
    (host : w.heap.hostFn? g = some fn) (other : g ≠ d) (h : HostId) : superConstructor w h (.obj d) = .ok (.obj g) := by
  obtain ⟨fd, found, link⟩ := has
  have member : prototypeMember w (.obj d) = .obj o := by
    rw [prototypeMember, World.hostFn?, found]
    exact link
  have differs : Datum.eqv (.obj g : Value) (.obj d) = false := by simp [Datum.eqv, other]
  rw [superConstructor, member]
  simp only [directConstructor_linked linked owned h]
  show Except.ok (if w.isCallable (.obj g) && !Datum.eqv (.obj g : Value) (.obj d) then _ else _) = _
  rw [isCallable_hostFn host, differs]
  rfl

end Host

/-- A class is known by one function for ever, and by its own constructor just if none of its methods is named
`constructor`. This function is the direct constructor of every object that is linked to the prototype of the class and
the super constructor of every constructor that is defined over it, and every plugin supplies such an object that is no
callable with what it shows for this function. -/
theorem class_known_by {w v : World} {c : ObjId} {h : HostId} {s : Host.Signature} {init parent : Value}
    {methods statics : List (Name × Value)} (reachable : Reachable w)
    (ran : exec (Host.defineConstructor h s init parent methods statics) w = (.ok c, v)) :
    ∃ q g fn, Host.HasPrototype v.heap c q ∧ v.heap.hostFn? g = some fn ∧
      (g = c ↔ ∀ m ∈ methods, m.1.key ≠ Key.text "constructor") ∧
      (∀ x, Host.constructorMethod methods = some x → fn.impl = .value x) ∧
      ∀ u, Execution v u →
        (∀ o k, u.heap.Linked o (.obj q) → Host.directConstructor u k (.obj o) = .ok (.obj g)) ∧
        (∀ k s' init' methods' statics' d t, exec (Host.defineConstructor k s' init' (.obj c) methods' statics') u =
          (.ok d, t) → ∀ t', Execution t t' → ∀ k', Host.superConstructor t' k' (.obj d) = .ok (.obj g)) ∧
        ∀ o p, u.heap.Linked o (.obj q) → u.isCallable (.obj o) = false →
          exec (Plugin.supplementOf p (.obj o)) u = exec (Plugin.pseudoPrototype p (.obj g)) u := by
  obtain ⟨has, g, fn, owned, host, own, method⟩ := Host.defineConstructor_known ran
  refine ⟨w.heap.size, g, fn, has, host, own, method, fun u execution => ?_⟩
  have defines : Host.Defines w c v := .constructor h s init parent methods statics ran
  have reachable' : Reachable v := reachable.execution defines.execution
  have frozen : (v.heap.get w.heap.size).bag.frozen = true := by
    obtain ⟨-, late, -⟩ :=
      (Host.defineConstructor_leaves h s init parent methods statics (Nat.le_refl w.heap.size)).of_run ran
    obtain ⟨_, found, -⟩ := has
    exact defines.sealed.2 _ (Nat.le_refl _) (Nat.lt_of_le_of_lt late (Heap.lt_size_of_hostFn? found))
  -- the prototype is frozen, so it owns the same for ever
  have always (t : World) (execution : Execution v t) : t.heap.member? w.heap.size "constructor" = some (.obj g) ∧
      t.heap.hostFn? g = some fn := by
    have changes := (execution.advances reachable'.sound).trail
    exact ⟨(Heap.member?_of_get (changes.keeps _ frozen) _).trans owned, changes.hostFn? host⟩
  obtain ⟨owned', host'⟩ := always u execution
  refine ⟨fun o k linked => Host.directConstructor_linked linked owned' k, ?_, fun o p linked plain => ?_⟩
  · intro k s' init' methods' statics' d t ran' t' execution' k'
    have execution₁ : Execution u t := Host.Defines.execution (.constructor k s' init' (.obj c) methods' statics' ran')
    have reachable₁ : Reachable t := (reachable'.execution execution).execution execution₁
    have changes := (execution'.advances reachable₁.sound).trail
    obtain ⟨owned₂, host₂⟩ := always t' ((execution.trans execution₁).trans execution')
    have parentLink := (has.change (execution.advances reachable'.sound).trail).parentPrototype k
    obtain ⟨has', linked⟩ := Host.defineConstructor_links parentLink ran'
    have late : u.heap.size ≤ d :=
      ((Host.defineConstructor_leaves k s' init' (.obj c) methods' statics' (Nat.le_refl u.heap.size)).of_run ran').2.1
    have older : g ≠ d := Nat.ne_of_lt (Nat.lt_of_lt_of_le (Heap.lt_size_of_hostFn? host') late)
    exact Host.superConstructor_linked (has'.change changes) (changes.linked linked) owned₂ host₂ older k'
  · rw [Plugin.supplementOf, exec_get_bind]
    simp only [plain, Bool.false_eq_true, if_false]
    rw [Host.directConstructor_linked linked owned', exec_lift_ok_bind]

/-- A class with a method that is named `constructor` is known by the function that was made for this method. -/
theorem class_known_by_method : ∃ w v c,
    let methods := [(Name.ofText "constructor", .obj 17), (Name.ofText "norm", .obj 3)]
    Reachable w ∧ exec (Host.defineConstructor 0 { name := .str "Point" } .null (.obj 19) methods []) w = (.ok c, v) ∧
      ∃ q g fn, Host.HasPrototype v.heap c q ∧ v.heap.hostFn? g = some fn ∧ fn.impl = .value (.obj 17) ∧ g ≠ c ∧
        ∀ o k, v.heap.Linked o (.obj q) → Host.directConstructor v k (.obj o) = .ok (.obj g) := by
  let methods : List (Name × Value) := [(Name.ofText "constructor", .obj 17), (Name.ofText "norm", .obj 3)]
  let w := World.after Effect.family
  have reachable : Reachable w := (reachableUnder_of_allowed (Effect.family_lawful fun _ => True)).reachable
  have answer : (exec (Host.defineConstructor 0 { name := .str "Point" } .null (.obj 19) methods []) w).1.toOption =
      some 21 := by
    decide +kernel
  clear_value w
  have run : exec (Host.defineConstructor 0 { name := .str "Point" } .null (.obj 19) methods []) w = (.ok 21, _) :=
    Prod.ext (eq_ok_of_toOption answer) rfl
  obtain ⟨q, g, fn, has, host, own, method, always⟩ := class_known_by reachable run
  have other : g ≠ 21 := fun same => own.1 same _ List.mem_cons_self rfl
  exact ⟨w, _, 21, reachable, run, q, g, fn, has, host, method _ rfl, other, (always _ .refl).1⟩

end Overlay
