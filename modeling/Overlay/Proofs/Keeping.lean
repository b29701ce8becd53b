import Overlay.Proofs.Reference
import Overlay.Proofs.Seeding

/-!
# Effects keep to what is there

An effect that is given nothing but values of its world leaves an intact world intact: whatever it puts into a bag, a
link, a function, a host or a plugin is a value of the world it leaves. Each function of the library is followed once,
in a regime that also tells that a script's own variables and tables are not touched. The parameter `strict` adds that
links and prototypes are null or objects; makers that take them from outside have to be given such.
-/

namespace Overlay
set_option autoImplicit false

open Act World

namespace World

/-- The world is intact and has all the objects of another one, and a script still holds what it held there. -/
structure Kept (strict : Prop) (w v : World) : Prop where
  intact : v.Intact strict
  size : w.heap.size ≤ v.heap.size
  tables : v.tables = w.tables
  vars : v.vars = w.vars
  frame : v.frame = w.frame

variable {strict : Prop} {u v w : World}

theorem Kept.refl (intact : w.Intact strict) : Kept strict w w :=
  ⟨intact, Nat.le_refl _, rfl, rfl, rfl⟩

theorem Kept.trans (near : Kept strict u v) (far : Kept strict v w) : Kept strict u w :=
  ⟨far.intact, Nat.le_trans near.size far.size, far.tables.trans near.tables, far.vars.trans near.vars,
    far.frame.trans near.frame⟩

namespace Intact

theorem of_same (intact : w.Intact strict) (heap : v.heap = w.heap) (fns : v.fns = w.fns) (hosts : v.hosts = w.hosts)
    (plugins : v.plugins = w.plugins) : v.Intact strict := by
  have host (h : HostId) : v.host h = w.host h := by rw [World.host, hosts, World.host]
  have plugin (p : PluginId) : v.plugin p = w.plugin p := by rw [World.plugin, plugins, World.plugin]
  refine ⟨fun o => ?_, fun i => ?_, fun h => ?_, fun h => ?_, fun p => ?_, fun p => ?_⟩
  · rw [heap]; exact intact.objects o
  · rw [heap, fns]; exact intact.fns i
  · rw [heap, host]; exact intact.roots h
  · rw [heap, host]; exact intact.primitives h
  · rw [heap, plugin]; exact intact.owned p
  · rw [heap, plugin]; exact intact.outers p

/-- A heap that has at least the old objects may take the place of the old one if its own objects are in order. -/
theorem withHeap {heap : Heap} (intact : w.Intact strict) (size : w.heap.size ≤ heap.size)
    (objects : ∀ o, (heap.get o).Intact strict heap.size o) : World.Intact strict { w with heap := heap } :=
  ⟨objects, fun i => (intact.fns i).mono size, fun h o root => Nat.lt_of_lt_of_le (intact.roots h o root) size,
    fun h e listed => (intact.primitives h e listed).mono size,
    fun p o own => Nat.lt_of_lt_of_le (intact.owned p o own) size, fun p => (intact.outers p).mono size⟩

theorem push {x : Obj} (intact : w.Intact strict) (fits : x.Intact strict w.heap.size w.heap.size) :
    World.Intact strict { w with heap := w.heap.push x } := by
  have size : w.heap.size ≤ (w.heap.push x).size := by simp
  refine intact.withHeap size fun o => ?_
  rw [Heap.get_push]
  split
  · rename_i last
    rw [last]
    exact fits.mono size
  · exact (intact.objects o).mono size

theorem setBag {o : ObjId} {b : Bag} (intact : w.Intact strict) (below : b.Below w.heap.size) :
    World.Intact strict { w with heap := w.heap.setBag o b } := by
  refine intact.withHeap (by simp) fun p => ?_
  have old := intact.objects p
  obtain ⟨proto, host⟩ := Heap.get_setBag_shape w.heap o p b
  rw [Heap.size_setBag]
  refine ⟨by rw [proto]; exact old.link, ?_, by rw [host]; exact old.host, by rw [proto]; exact old.linked,
    by rw [host]; exact old.prototype⟩
  by_cases same : p = o
  · subst same
    by_cases inside : p < w.heap.size
    · rw [Heap.get_setBag_same b inside]; exact below
    · rw [Heap.get_of_size_le (by rw [Heap.size_setBag]; exact Nat.le_of_not_lt inside)]
      exact fun q none => nomatch none
  · rw [Heap.get_setBag_other _ _ same]; exact old.bag

end Intact

end World

/-- An intact world stays intact, and a script still holds what it held. -/
def Regime.keeping (strict : Prop) : Regime where
  step w v := w.Intact strict → Kept strict w v
  fault _ _ := True
  refl _ := Kept.refl
  trans near far intact := (near intact).trans (far (near intact).intact)
  back _ _ := trivial
  ordinary _ _ _ := trivial

namespace Act
variable {α β : Type} {strict : Prop} {w : World} {x : Act α} {f : α → Act β} {P : α → World → Prop} {Q : β → World → Prop}

/-- The rule of sequences in an intact world. -/
theorem Leaves.keep (intact : w.Intact strict) (first : Leaves (.keeping strict) x w P)
    (next : ∀ a v, Kept strict w v → P a v → Leaves (.keeping strict) (f a) v Q) :
    Leaves (.keeping strict) (x >>= f) w Q :=
  .bind first fun a v step => next a v (step intact)

/-- After a question the action goes on in the same world, with what the answer yields. -/
theorem Leaves.ask {L : Regime} {R : α → Prop} {q : Except Fault α} (free : ∀ w e, L.fault w e) (yields : Yields R q)
    (next : ∀ a, R a → Leaves L (f a) w Q) : Leaves L (liftM q >>= f) w Q := by
  cases q with
  | error e => exact .of_error rfl (L.refl w) (free w e)
  | ok a => exact ⟨(next a (yields a rfl)).world, (next a (yields a rfl)).value, (next a (yields a rfl)).fault⟩

/-- An action that changes nothing keeps to any regime that minds no faults. -/
theorem Leaves.of_still {L : Regime} (free : ∀ w e, L.fault w e) (still : (exec x w).2 = w)
    (value : ∀ a, (exec x w).1 = .ok a → P a w) : Leaves L x w P := by
  refine ⟨?_, fun a ended => ?_, fun e _ => free w e⟩
  · rw [still]; exact L.refl w
  · rw [still]; exact value a ended

theorem keeping_free (w : World) (e : Fault) : (Regime.keeping strict).fault w e :=
  trivial

/-- What touches neither objects nor functions, hosts and plugins, and nothing that a script holds, keeps all. -/
theorem Leaves.keeping_of_ok {a : α} {v : World} (run : exec x w = (.ok a, v)) (heap : v.heap = w.heap)
    (fns : v.fns = w.fns) (hosts : v.hosts = w.hosts) (plugins : v.plugins = w.plugins) (tables : v.tables = w.tables)
    (vars : v.vars = w.vars) (frame : v.frame = w.frame) (value : P a v) : Leaves (.keeping strict) x w P :=
  .of_ok run (fun intact => ⟨intact.of_same heap fns hosts plugins, Nat.le_of_eq (congrArg Array.size heap.symm),
    tables, vars, frame⟩) value

theorem enforceCallable_stays {L : Regime} (v : Value) (what : Text) :
    Leaves L (enforceCallable v what) w fun _ u => u = w ∧ w.isCallable v = true := by
  cases callable : w.isCallable v with
  | true => exact .of_ok (exec_enforceCallable what callable) (L.refl w) ⟨rfl, rfl⟩
  | false => exact .of_error (exec_enforceCallable_refused what callable) (L.refl w) (L.ordinary w rfl)

theorem say_keeps (line : World → Except Fault LogLine) : Leaves (.keeping strict) (say line) w fun _ _ => True := by
  refine .bind_get ?_
  split
  · exact .ask keeping_free Yields.any fun l _ => .keeping_of_ok rfl rfl rfl rfl rfl rfl rfl rfl trivial
  · exact .pure trivial

theorem alloc_keeps {o : Obj} (fits : o.Intact strict w.heap.size w.heap.size) :
    Leaves (.keeping strict) (alloc o) w fun i v => i < v.heap.size := by
  refine .of_ok rfl (fun intact => ⟨intact.push fits, ?_, rfl, rfl, rfl⟩) ?_
  · simp
  · simp

theorem begetFrom_keeps {proto : Value} (below : proto.Below w.heap.size) (link : strict → IsLink proto) :
    Leaves (.keeping strict) (begetFrom proto) w fun i v => i < v.heap.size :=
  alloc_keeps ⟨below, fun _ none => (nomatch none), fun _ none => (nomatch none), link, fun _ _ none => (nomatch none)⟩

/-- An object of the world can be a link. -/
theorem begetFrom_obj_keeps {o : ObjId} (inside : o < w.heap.size) :
    Leaves (.keeping strict) (begetFrom (.obj o)) w fun i v => i < v.heap.size :=
  begetFrom_keeps (Datum.below_obj.2 inside) fun _ => .inr ⟨o, rfl⟩

theorem newFn_keeps {g : Fn} (below : g.Below w.heap.size) :
    Leaves (.keeping strict) (newFn g) w fun a v => a.Below v.heap.size := by
  refine .of_ok rfl (fun intact => ⟨⟨intact.objects, fun i => ?_, intact.roots, intact.primitives, intact.owned,
    intact.outers⟩, Nat.le_refl _, rfl, rfl, rfl⟩) Datum.below_fn
  change Fn.Below _ ((w.fns.push g)[i]?.getD default)
  rw [Array.getElem?_push]
  split
  · exact below
  · exact intact.fns i

theorem setBag_kept {o : ObjId} {b : Bag} (below : w.Intact strict → b.Below w.heap.size) :
    (Regime.keeping strict).step w { w with heap := w.heap.setBag o b } :=
  fun intact => ⟨intact.setBag (below intact), by simp, rfl, rfl, rfl⟩

theorem putProperty_keeps (o : ObjId) {name value : Value} (e : Bool) (named : name.Below w.heap.size)
    (below : value.Below w.heap.size) : Leaves (.keeping strict) (putProperty o name value e) w fun _ _ => True := by
  rcases putProperty_cases (w := w) o name value e with still | ⟨k, spelled, -, run⟩
  · exact .of_still keeping_free still fun _ _ => trivial
  · refine .of_ok run (setBag_kept fun intact => (intact.objects o).bag.put ?_ below) trivial
    rw [Name.value_of? spelled]
    exact named

/-- A put under a name that is a text, as the library makes them. -/
theorem putHidden_keeps (o : ObjId) (s : Text) {value : Value} (below : value.Below w.heap.size) :
    Leaves (.keeping strict) (putHidden o (.str s) value) w fun _ _ => True :=
  putProperty_keeps o false Datum.below_str below

theorem eraseProperty_keeps (o : ObjId) (name : Value) :
    Leaves (.keeping strict) (eraseProperty o name) w fun _ _ => True := by
  refine ⟨?_, fun _ _ => trivial, fun _ _ => trivial⟩
  rcases eraseProperty_cases (w := w) o name with still | ⟨k, -, -, run⟩
  · rw [still]; exact Regime.refl _ w
  · rw [run]; exact setBag_kept fun intact => (intact.objects o).bag.erase

theorem freeze_keeps (o : ObjId) : Leaves (.keeping strict) (freeze o) w fun _ _ => True :=
  .of_ok (exec_freeze o) (setBag_kept fun intact => (intact.objects o).bag) trivial

theorem newNan_keeps : Leaves (.keeping strict) newNan w fun a v => a.Below v.heap.size :=
  .keeping_of_ok rfl rfl rfl rfl rfl rfl rfl rfl Datum.below_nan

end Act

/-! ## Hosts -/

namespace Host
variable {strict : Prop} {w : World}

theorem sourceIn_below {s : Signature} (v : World) (below : s.Below w.heap.size) :
    Yields (fun x => x.Below w.heap.size) (s.sourceIn v) := by
  unfold Signature.sourceIn
  split
  · exact .map .any fun _ _ => Datum.below_str
  · exact .ok below.source

theorem newFunction_keeps (intact : w.Intact strict) {impl : Impl} {s : Signature} {proto prototype : Value}
    (code : impl.Below w.heap.size) (signed : s.Below w.heap.size) (below : proto.Below w.heap.size)
    (below' : prototype.Below w.heap.size) (links : strict → IsLink proto ∧ IsLink prototype) :
    Leaves (.keeping strict) (newFunction impl s proto prototype) w fun i v => i < v.heap.size := by
  have drawing : Leaves (.keeping strict) drawCategory w fun _ v => v.heap.size = w.heap.size :=
    .keeping_of_ok (exec_drawCategory w) rfl rfl rfl rfl rfl rfl rfl rfl
  refine .keep intact drawing fun category v kept same => .bind_get ?_
  have arity : (if s.arity.isNull then (.int (implArity v impl) : Value) else s.arity).Below w.heap.size := by
    split
    · exact Datum.below_int
    · exact signed.arity
  refine .ask keeping_free (sourceIn_below v signed) fun source written => ?_
  have making : Leaves (.keeping strict) (alloc { proto := proto, host := some ⟨impl, category, prototype,
      if s.arity.isNull then (.int (implArity v impl) : Value) else s.arity, source⟩ }) v fun i u => i < u.heap.size := by
    refine alloc_keeps (same ▸ ⟨below, fun _ none => (nomatch none), fun g made => ?_, fun h => (links h).1,
      fun h g made => ?_⟩)
    · cases made; exact ⟨code, below', arity, written⟩
    · cases made; exact (links h).2
  refine .keep kept.intact making fun f u kept' made => ?_
  have grown := Nat.le_trans kept.size kept'.size
  refine .keep kept'.intact (putHidden_keeps f "name" (signed.name.mono grown)) fun _ t kept'' _ => ?_
  have grown' := Nat.le_trans grown kept''.size
  exact .keep kept''.intact (putHidden_keeps f "length" (arity.mono grown')) fun _ s' last _ =>
    .pure (Nat.lt_of_lt_of_le made (Nat.le_trans kept''.size last.size))

theorem define_keeps (intact : w.Intact strict) {op fp : ObjId} {impl : Impl} {s : Signature} (top : op < w.heap.size)
    (kind : fp < w.heap.size) (code : impl.Below w.heap.size) (signed : s.Below w.heap.size) :
    Leaves (.keeping strict) (define op fp impl s) w fun i v => i < v.heap.size := by
  refine .keep intact (begetFrom_obj_keeps top) fun p v kept inside => ?_
  have making := newFunction_keeps kept.intact (code.mono kept.size) (signed.mono kept.size)
    (Datum.below_obj.2 (Nat.lt_of_lt_of_le kind kept.size)) (Datum.below_obj.2 inside)
    fun _ => ⟨.inr ⟨fp, rfl⟩, .inr ⟨p, rfl⟩⟩
  refine .keep kept.intact making fun f u kept' made => ?_
  refine .keep kept'.intact (putHidden_keeps p "constructor" (Datum.below_obj.2 made)) fun _ u₁ kept₁ _ => ?_
  refine .keep kept₁.intact (freeze_keeps p) fun _ u₂ kept₂ _ => .keep kept₂.intact (freeze_keeps f) fun _ u₃ kept₃ _ => ?_
  exact .pure (Nat.lt_of_lt_of_le made (Nat.le_trans kept₁.size (Nat.le_trans kept₂.size kept₃.size)))

theorem defineFunction_keeps (intact : w.Intact strict) (h : HostId) {impl : Impl} {s : Signature}
    (code : impl.Below w.heap.size) (signed : s.Below w.heap.size) :
    Leaves (.keeping strict) (defineFunction h impl s) w fun i v => i < v.heap.size :=
  .bind_get (define_keeps intact (intact.roots h _ (by simp [roots])) (intact.roots h _ (by simp [roots])) code signed)

/-- A loop keeps what each round keeps. -/
theorem forM_keeps {α : Type} {items : List α} {body : α → Act Unit} (intact : w.Intact strict)
    (round : ∀ a ∈ items, ∀ v, Kept strict w v → Leaves (.keeping strict) (body a) v fun _ _ => True) :
    Leaves (.keeping strict) (items.forM body) w fun _ _ => True :=
  Leaves.forM (L := .keeping strict) (I := fun _ => True) trivial fun a listed v step _ => round a listed v (step intact)

theorem defineMethods_keeps (intact : w.Intact strict) (h : HostId) (p : ObjId) {methods : List (Name × Value)}
    (below : MembersBelow w.heap.size methods) :
    Leaves (.keeping strict) (defineMethods h p methods) w fun _ _ => True := by
  refine forM_keeps intact fun m listed v kept => ?_
  obtain ⟨name, value⟩ := below.mono kept.size m listed
  have code : Impl.Below v.heap.size (.value m.2) := value
  have signed : Signature.Below v.heap.size { name := m.1.value } := ⟨name, Datum.below_null, Datum.below_null⟩
  have making := defineFunction_keeps kept.intact h code signed
  exact .keep kept.intact making fun f u kept' made =>
    putProperty_keeps p false (name.mono kept'.size) (Datum.below_obj.2 made)

theorem defineConstructor_keeps (intact : w.Intact strict) (h : HostId) {s : Signature} {init : Value} (parent : Value)
    {methods statics : List (Name × Value)} (signed : s.Below w.heap.size) (begins : init.Below w.heap.size)
    (below : MembersBelow w.heap.size methods) (below' : MembersBelow w.heap.size statics) :
    Leaves (.keeping strict) (defineConstructor h s init parent methods statics) w fun i v => i < v.heap.size := by
  refine .bind_get (.ask keeping_free (intact.parentPrototype h parent) fun link given => ?_)
  refine .keep intact (begetFrom_keeps given.1 given.2) fun p v kept inside => ?_
  have code : (initialiser w init).Below v.heap.size := by
    unfold initialiser
    split
    · exact begins.mono kept.size
    · trivial
  have kind : (w.host h).functionPrototype < w.heap.size := intact.roots h _ (by simp [roots])
  have making := newFunction_keeps kept.intact code (signed.mono kept.size)
    (Datum.below_obj.2 (Nat.lt_of_lt_of_le kind kept.size)) (Datum.below_obj.2 inside)
    fun _ => ⟨.inr ⟨_, rfl⟩, .inr ⟨p, rfl⟩⟩
  refine .keep kept.intact making fun f u kept' made => ?_
  have grown := Nat.le_trans kept.size kept'.size
  refine .keep kept'.intact (putHidden_keeps p "constructor" (Datum.below_obj.2 made)) fun _ u₁ kept₁ _ => ?_
  have grown₁ := Nat.le_trans grown kept₁.size
  refine .keep kept₁.intact (defineMethods_keeps kept₁.intact h p (below.mono grown₁)) fun _ u₂ kept₂ _ => ?_
  have grown₂ := Nat.le_trans grown₁ kept₂.size
  have putting : Leaves (.keeping strict) (statics.forM fun m => putProperty f m.1.value m.2 true) u₂ fun _ _ => True :=
    forM_keeps kept₂.intact fun m listed t kept => by
      obtain ⟨name, value⟩ := below'.mono (Nat.le_trans grown₂ kept.size) m listed
      exact putProperty_keeps f true name value
  refine .keep kept₂.intact putting fun _ u₃ kept₃ _ => ?_
  refine .keep kept₃.intact (freeze_keeps p) fun _ u₄ kept₄ _ => .keep kept₄.intact (freeze_keeps f) fun _ u₅ kept₅ _ => ?_
  have later := (((kept₁.trans kept₂).trans kept₃).trans kept₄).trans kept₅
  exact .pure (Nat.lt_of_lt_of_le made later.size)

/-- A host whose roots and constructors are there may be added. -/
theorem pushHost_kept {x : Host} (inside : ∀ o ∈ x.roots, o < w.heap.size) (none_yet : x.primitives = []) :
    (Regime.keeping strict).step w { w with hosts := w.hosts.push x } := by
  intro intact
  have host (h : HostId) : World.host { w with hosts := w.hosts.push x } h = w.host h ∨
      World.host { w with hosts := w.hosts.push x } h = x := by
    unfold World.host
    dsimp only
    rw [Array.getElem?_push]
    split
    · exact .inr rfl
    · exact .inl rfl
  refine ⟨⟨intact.objects, intact.fns, fun h => ?_, fun h => ?_, intact.owned, intact.outers⟩, Nat.le_refl _, rfl, rfl, rfl⟩
  · rcases host h with old | new
    · rw [old]; exact intact.roots h
    · rw [new]; exact inside
  · rcases host h with old | new
    · rw [old]; exact intact.primitives h
    · rw [new, none_yet]; exact fun e none => nomatch none

theorem make_keeps (intact : w.Intact strict) : Leaves (.keeping strict) make w fun _ _ => True := by
  have signed {n : Nat} (name arity : Value) (named : name.Below n) (counted : arity.Below n) :
      Signature.Below n { name := name, arity := arity } := ⟨named, counted, Datum.below_null⟩
  refine .keep intact (begetFrom_keeps Datum.below_null fun _ => .inl rfl) fun op v₁ kept₁ op_in => ?_
  refine .keep kept₁.intact (begetFrom_obj_keeps op_in) fun fp v₂ kept₂ fp_in => ?_
  have op₂ := Nat.lt_of_lt_of_le op_in kept₂.size
  refine .keep kept₂.intact (newFunction_keeps kept₂.intact op₂ (signed _ _ Datum.below_str Datum.below_int)
    (Datum.below_obj.2 fp_in) (Datum.below_obj.2 op₂) fun _ => ⟨.inr ⟨fp, rfl⟩, .inr ⟨op, rfl⟩⟩)
    fun object v₃ kept₃ object_in => ?_
  have op₃ := Nat.lt_of_lt_of_le op₂ kept₃.size
  have fp₃ := Nat.lt_of_lt_of_le fp_in kept₃.size
  have code : Impl.Below v₃.heap.size .makeFunction := trivial
  refine .keep kept₃.intact (newFunction_keeps kept₃.intact code
    (signed _ _ Datum.below_str Datum.below_int) (Datum.below_obj.2 fp₃) (Datum.below_obj.2 fp₃)
    fun _ => ⟨.inr ⟨fp, rfl⟩, .inr ⟨fp, rfl⟩⟩) fun function v₄ kept₄ function_in => ?_
  -- from here on the roots are there, and stay there
  have roots : ∀ u, Kept strict v₄ u → op < u.heap.size ∧ fp < u.heap.size ∧ object < u.heap.size ∧
      function < u.heap.size := fun u kept =>
    ⟨Nat.lt_of_lt_of_le op₃ (Nat.le_trans kept₄.size kept.size), Nat.lt_of_lt_of_le fp₃ (Nat.le_trans kept₄.size kept.size),
      Nat.lt_of_lt_of_le object_in (Nat.le_trans kept₄.size kept.size), Nat.lt_of_lt_of_le function_in kept.size⟩
  have method (s : Text) (impl : Impl) (plain : ∀ n, impl.Below n) {α : Type} {next : Unit → Act α} {Q : α → World → Prop}
      {u : World} (kept : Kept strict v₄ u)
      (rest : ∀ t, Kept strict v₄ t → Leaves (.keeping strict) (next ()) t Q) :
      Leaves (.keeping strict) (do
        let f ← define op fp impl { name := .str s }
        putHidden op (.str s) (.obj f) >>= next) u Q := by
    have making := define_keeps kept.intact (roots u kept).1 (roots u kept).2.1 (plain _)
      (signed (.str s) .null Datum.below_str Datum.below_null)
    exact .keep kept.intact making fun f t kept' made =>
      .keep kept'.intact (putHidden_keeps op s (Datum.below_obj.2 made)) fun _ t' kept'' _ =>
        rest t' ((kept.trans kept').trans kept'')
  refine .keep kept₄.intact (putHidden_keeps op "constructor" (Datum.below_obj.2 (roots v₄ (.refl kept₄.intact)).2.2.1))
    fun _ v₅ kept₅ _ => ?_
  refine method "toString" .describe (fun _ => trivial) kept₅ fun v₆ kept₆ => ?_
  refine method "valueOf" .identity (fun _ => trivial) kept₆ fun v₇ kept₇ => ?_
  refine method "hasOwnProperty" .ownsName (fun _ => trivial) kept₇ fun v₈ kept₈ => ?_
  refine .keep kept₈.intact (putHidden_keeps fp "constructor" (Datum.below_obj.2 (roots v₈ kept₈).2.2.2))
    fun _ v₉ kept₉ _ => ?_
  refine .keep kept₉.intact (freeze_keeps op) fun _ u₁ more₁ _ => .keep more₁.intact (freeze_keeps fp) fun _ u₂ more₂ _ =>
    .keep more₂.intact (freeze_keeps object) fun _ u₃ more₃ _ => .keep more₃.intact (freeze_keeps function)
      fun _ u₄ more₄ _ => ?_
  have there := roots u₄ (((((kept₈.trans kept₉).trans more₁).trans more₂).trans more₃).trans more₄)
  refine .bind_get (.of_ok rfl (pushHost_kept (fun o root => ?_) rfl) trivial)
  simp only [Host.roots, List.mem_cons, List.not_mem_nil, or_false] at root
  rcases root with rfl | rfl | rfl | rfl
  · exact there.1
  · exact there.2.1
  · exact there.2.2.1
  · exact there.2.2.2

theorem registerPrimitive_keeps (h : HostId) (kind : Primitive) {ctor : Value} (below : ctor.Below w.heap.size) :
    Leaves (.keeping strict) (registerPrimitive h kind ctor) w fun _ _ => True := by
  refine .of_ok rfl (fun intact => ⟨⟨intact.objects, intact.fns, fun i => ?_, fun i => ?_, intact.owned, intact.outers⟩,
    Nat.le_refl _, rfl, rfl, rfl⟩) trivial
  · have same : (World.host { w with hosts := w.hosts.modify h fun x =>
        { x with primitives := (kind, ctor) :: x.primitives.filter (·.1 != kind) } } i).roots = (w.host i).roots := by
      simp only [World.host, Array.getElem?_modify]
      split
      · cases w.hosts[i]? <;> rfl
      · rfl
    rw [same]
    exact intact.roots i
  · have some_of : ∀ e ∈ (World.host { w with hosts := w.hosts.modify h fun x =>
        { x with primitives := (kind, ctor) :: x.primitives.filter (·.1 != kind) } } i).primitives,
        e.2 = ctor ∨ e ∈ (w.host i).primitives := by
      simp only [World.host, Array.getElem?_modify]
      split
      · cases w.hosts[i]? with
        | none => exact fun e listed => .inr listed
        | some x =>
          intro e listed
          rcases List.mem_cons.1 listed with rfl | old
          · exact .inl rfl
          · exact .inr (List.mem_filter.1 old).1
      · exact fun e listed => .inr listed
    intro e listed
    rcases some_of e listed with new | old
    · rw [new]; exact below
    · exact intact.primitives i e old

theorem put_keeps (intact : w.Intact strict) (v : Value) {name x : Value} (named : name.Below w.heap.size) (below : x.Below w.heap.size) :
    Leaves (.keeping strict) (Host.put v name x) w fun a u => a.Below u.heap.size := by
  refine .bind_get (.ask keeping_free Yields.any fun _ _ => ?_)
  split
  · exact .keep intact (putProperty_keeps _ true named below) fun _ u kept _ => .pure (below.mono kept.size)
  · exact .ask keeping_free Yields.any fun _ _ => .stop rfl

end Host

/-! ## Emulated functions -/

namespace Emulation
variable {strict : Prop} {w : World}

/-- The roots are objects of the heap. -/
def Inside (n : Nat) (roots : Roots) : Prop :=
  roots.objectPrototype < n ∧ roots.functionPrototype < n ∧ roots.function < n ∧ roots.objectShadow < n

theorem Inside.mono {n m : Nat} {roots : Roots} (inside : Inside m roots) (more : m ≤ n) : Inside n roots :=
  ⟨Nat.lt_of_lt_of_le inside.1 more, Nat.lt_of_lt_of_le inside.2.1 more, Nat.lt_of_lt_of_le inside.2.2.1 more,
    Nat.lt_of_lt_of_le inside.2.2.2 more⟩

theorem inside_roots (intact : w.Intact strict) (p : PluginId) : Inside w.heap.size (w.plugin p).roots := by
  refine ⟨intact.owned p _ ?_, intact.owned p _ ?_, intact.owned p _ ?_, intact.owned p _ ?_⟩ <;> simp [Plugin.owned]

theorem seedRoots_keeps (intact : w.Intact strict) (h : HostId) (config : Config) :
    Leaves (.keeping strict) (seedRoots h config) w fun roots v => Inside v.heap.size roots := by
  have top : (w.host h).objectPrototype < w.heap.size := intact.roots h _ (by simp [Host.roots])
  have ctor : (w.host h).object < w.heap.size := intact.roots h _ (by simp [Host.roots])
  refine .bind_get (.keep intact (begetFrom_obj_keeps top) fun op v₁ kept₁ op_in => ?_)
  refine .keep kept₁.intact (putHidden_keeps op "constructor" (Datum.below_obj.2 (Nat.lt_of_lt_of_le ctor kept₁.size)))
    fun _ v₂ kept₂ _ => ?_
  refine .keep kept₂.intact (begetFrom_obj_keeps (Nat.lt_of_lt_of_le op_in kept₂.size)) fun fp v₃ kept₃ fp_in => ?_
  refine .keep kept₃.intact (begetFrom_obj_keeps fp_in) fun function v₄ kept₄ function_in => ?_
  have fp₄ := Nat.lt_of_lt_of_le fp_in kept₄.size
  refine .keep kept₄.intact (putHidden_keeps function "prototype" (Datum.below_obj.2 fp₄)) fun _ v₅ kept₅ _ => ?_
  refine .keep kept₅.intact (putHidden_keeps function "length" Datum.below_int) fun _ v₆ kept₆ _ => ?_
  have late := (kept₅.trans kept₆).size
  refine .keep kept₆.intact (putHidden_keeps fp "constructor" (Datum.below_obj.2 (Nat.lt_of_lt_of_le function_in late)))
    fun _ v₇ kept₇ _ => ?_
  refine .keep kept₇.intact (newFn_keeps (Datum.below_toValue config.constructorText)) fun printer v₈ kept₈ below => ?_
  refine .keep kept₈.intact (putHidden_keeps fp "toString" below) fun _ v₉ kept₉ _ => ?_
  have later := (((kept₅.trans kept₆).trans kept₇).trans kept₈).trans kept₉
  have fp₉ := Nat.lt_of_lt_of_le fp₄ later.size
  refine .keep kept₉.intact (begetFrom_obj_keeps fp₉) fun shadow u₁ more₁ shadow_in => ?_
  have op₉ : op < u₁.heap.size :=
    Nat.lt_of_lt_of_le op_in ((((kept₂.trans kept₃).trans kept₄).trans later).trans more₁).size
  refine .keep more₁.intact (putHidden_keeps shadow "prototype" (Datum.below_obj.2 op₉)) fun _ u₂ more₂ _ => .pure ?_
  exact ⟨Nat.lt_of_lt_of_le op₉ more₂.size, Nat.lt_of_lt_of_le fp₉ (more₁.trans more₂).size,
    Nat.lt_of_lt_of_le function_in ((later.trans more₁).trans more₂).size, Nat.lt_of_lt_of_le shadow_in more₂.size⟩

theorem shownLength_keeps (arity : Value) :
    Leaves (.keeping strict) (shownLength arity) w fun a v => a.Below v.heap.size := by
  unfold shownLength
  split
  · exact .pure Datum.below_int
  · exact .pure Datum.below_int
  · refine .pure ?_
    split
    · exact Datum.below_int
    · exact Datum.below_float
  · exact newNan_keeps
  · exact .stop rfl

theorem sourceText_keeps (intact : w.Intact strict) (v : Value) :
    Leaves (.keeping strict) (Host.sourceText v) w fun a u => a.Below u.heap.size := by
  refine .bind_get ?_
  have source := intact.source v
  split
  · exact .bind (say_keeps _) fun _ _ _ _ => .pure Datum.below_null
  · exact .pure source

/-- A header is shown under the name that is given, or under a text. -/
theorem renderAs_below {n : Nat} (isTruthy : Value → Bool) (bare : Value → Except Fault Text) (receiver body : Text)
    (source : Option Text) {name : Value} (below : name.Below n) :
    Yields (fun r => r.name.Below n) (Header.renderAs isTruthy bare receiver body source name) := by
  unfold Header.renderAs
  split
  · refine .ok ?_
    dsimp only
    cases (Header.render receiver body source none).name with
    | none => exact Datum.below_null
    | some s => exact Datum.below_str
  · dsimp only
    split
    · exact .bind .any fun _ _ => .ok below
    · exact .bind .any fun _ _ => .ok below

theorem renderHeader_keeps (intact : w.Intact strict) (config : Config) (raw : Value) {name : Value}
    (below : name.Below w.heap.size) :
    Leaves (.keeping strict) (renderHeader config raw name) w fun r v => r.name.Below v.heap.size := by
  refine .bind_get (.keep intact (sourceText_keeps intact raw) fun text v kept _ => ?_)
  refine .ask keeping_free Yields.any fun source _ => ?_
  have rendered (u : World) (grown : w.heap.size ≤ u.heap.size) : Leaves (.keeping strict)
      (liftM (Header.renderAs w.isTruthy w.bare config.receiver config.redactedBody source name)) u
      fun r t => r.name.Below t.heap.size := by
    refine .of_still keeping_free rfl fun r ended => ?_
    exact (renderAs_below w.isTruthy w.bare _ _ source below r ended).mono grown
  dsimp only
  split
  · exact .keep kept.intact (say_keeps _) fun _ u more _ => rendered u (kept.trans more).size
  · exact rendered v kept.size

theorem emulate_keeps (intact : w.Intact strict) {roots : Roots} (config : Config) (raw : Value) {name : Value}
    (rooted : Inside w.heap.size roots) (below : name.Below w.heap.size) :
    Leaves (.keeping strict) (emulate roots config raw name) w fun i v => i < v.heap.size := by
  refine .bind (enforceCallable_stays raw _) fun _ u _ ⟨same, callable⟩ => ?_
  subst same
  have called := intact.callable callable
  refine .keep intact (begetFrom_obj_keeps rooted.2.1) fun f v₁ kept₁ f_in => ?_
  refine .keep kept₁.intact (putHidden_keeps f "call" (called.mono kept₁.size)) fun _ v₂ kept₂ _ => ?_
  refine .keep kept₂.intact (newFn_keeps (g := .applier raw) (called.mono (kept₁.trans kept₂).size))
    fun applier v₃ kept₃ applier_in => ?_
  refine .keep kept₃.intact (putHidden_keeps f "apply" applier_in) fun _ v₄ kept₄ _ => ?_
  have so_far := ((kept₁.trans kept₂).trans kept₃).trans kept₄
  refine .keep kept₄.intact (newFn_keeps (g := .binder raw) (called.mono so_far.size)) fun binder v₅ kept₅ binder_in => ?_
  refine .keep kept₅.intact (putHidden_keeps f "bind" binder_in) fun _ v₆ kept₆ _ => ?_
  have so_far := (so_far.trans kept₅).trans kept₆
  have f_in := Nat.lt_of_lt_of_le f_in ((((kept₂.trans kept₃).trans kept₄).trans kept₅).trans kept₆).size
  refine .keep kept₆.intact (begetFrom_obj_keeps (Nat.lt_of_lt_of_le rooted.1 so_far.size)) fun p v₇ kept₇ p_in => ?_
  have f_in := Nat.lt_of_lt_of_le f_in kept₇.size
  refine .keep kept₇.intact (putHidden_keeps p "constructor" (Datum.below_obj.2 f_in)) fun _ v₈ kept₈ _ => ?_
  refine .keep kept₈.intact (putHidden_keeps f "prototype" (Datum.below_obj.2 (Nat.lt_of_lt_of_le p_in kept₈.size)))
    fun _ v₉ kept₉ _ => .bind_get ?_
  refine .keep kept₉.intact (shownLength_keeps _) fun length u₁ more₁ length_in => ?_
  refine .keep more₁.intact (putHidden_keeps f "length" length_in) fun _ u₂ more₂ _ => ?_
  have later := ((kept₈.trans kept₉).trans more₁).trans more₂
  have named := below.mono ((so_far.trans kept₇).trans later).size
  refine .keep more₂.intact (renderHeader_keeps more₂.intact config raw named) fun r u₃ more₃ shown => ?_
  refine .keep more₃.intact (newFn_keeps (g := .printer r.text) trivial) fun printer u₄ more₄ printer_in => ?_
  refine .keep more₄.intact (putHidden_keeps f "toString" printer_in) fun _ u₅ more₅ _ => .bind_get ?_
  have f_in := Nat.lt_of_lt_of_le f_in (((later.trans more₃).trans more₄).trans more₅).size
  dsimp only
  split
  · exact .keep more₅.intact (putHidden_keeps f "name" (shown.mono (more₄.trans more₅).size)) fun _ u₆ more₆ _ =>
      .pure (Nat.lt_of_lt_of_le f_in more₆.size)
  · exact .pure f_in

theorem forwarder_keeps (intact : w.Intact strict) (h : HostId) {roots : Roots} (config : Config) {name : Value}
    (rooted : Inside w.heap.size roots) (below : name.Below w.heap.size) :
    Leaves (.keeping strict) (forwarder h roots config name) w fun i v => i < v.heap.size :=
  .keep intact (newFn_keeps (g := .forward h name) below) fun raw _ kept _ =>
    emulate_keeps kept.intact config raw (rooted.mono kept.size) (below.mono kept.size)

end Emulation

/-! ## Plugins -/

namespace Plugin
variable {strict : Prop} {w : World}

theorem emulate_keeps (intact : w.Intact strict) (p : PluginId) (raw : Value) {name : Value}
    (below : name.Below w.heap.size) :
    Leaves (.keeping strict) (emulate p raw name) w fun a v => a.Below v.heap.size := by
  refine .bind_get ?_
  exact .bind (Emulation.emulate_keeps intact (w.plugin p).config raw (Emulation.inside_roots intact p) below)
    fun _ _ _ made => .pure (Datum.below_obj.2 made)

theorem forwarder_keeps (intact : w.Intact strict) (p : PluginId) {name : Value} (below : name.Below w.heap.size) :
    Leaves (.keeping strict) (forwarder p name) w fun a v => a.Below v.heap.size := by
  refine .bind_get ?_
  exact .bind (Emulation.forwarder_keeps intact (w.plugin p).host (w.plugin p).config (Emulation.inside_roots intact p) below)
    fun _ _ _ made => .pure (Datum.below_obj.2 made)

/-- A plugin may be replaced or added if its own objects and its outer bindings are there. -/
theorem withPlugins_kept {plugins : Array Plugin}
    (known : w.Intact strict → ∀ p, World.plugin { w with plugins := plugins } p = w.plugin p ∨
      (∀ o ∈ (World.plugin { w with plugins := plugins } p).owned, o < w.heap.size) ∧
        (World.plugin { w with plugins := plugins } p).outers.Below w.heap.size) :
    (Regime.keeping strict).step w { w with plugins := plugins } := by
  intro intact
  refine ⟨⟨intact.objects, intact.fns, intact.roots, intact.primitives, fun p => ?_, fun p => ?_⟩, Nat.le_refl _, rfl,
    rfl, rfl⟩
  · rcases known intact p with old | ⟨new, -⟩
    · rw [old]; exact intact.owned p
    · exact new
  · rcases known intact p with old | ⟨-, new⟩
    · rw [old]; exact intact.outers p
    · exact new

theorem register_keeps (p : PluginId) (c : Category) {s : Shadow} (object : s.object < w.heap.size)
    (prototype : s.prototype < w.heap.size) : Leaves (.keeping strict) (register p c s) w fun _ _ => True := by
  refine .bind_get ?_
  split
  · rename_i shadows inserted
    refine .of_ok rfl (withPlugins_kept fun intact q => ?_) trivial
    have entries : shadows.entries = (w.plugin p).shadows.entries ++ [(c, s)] := by
      unfold Registry.insert? at inserted
      split at inserted <;> cases inserted
      rfl
    by_cases same : q = p
    · subst same
      cases found : w.plugins[q]? with
      | none => exact .inl (by simp [World.plugin, Array.getElem?_modify, found])
      | some x =>
        have here : w.plugin q = x := by simp [World.plugin, found]
        have now : World.plugin { w with plugins := w.plugins.modify q fun x => { x with shadows := shadows } } q =
            { x with shadows := shadows } := by simp [World.plugin, Array.getElem?_modify, found]
        rw [now]
        refine .inr ⟨fun o own => ?_, by rw [← here]; exact intact.outers q⟩
        rw [here] at entries
        have extended : ({ x with shadows := shadows } : Plugin) = x.extend [(c, s)] := by
          rw [Plugin.extend, ← entries]
        rw [extended, Plugin.owned_extend, List.mem_append] at own
        rcases own with old | new
        · rw [← here] at old
          exact intact.owned q o old
        · simp only [List.flatMap_cons, List.flatMap_nil, List.append_nil, List.mem_cons, List.not_mem_nil,
            or_false] at new
          rcases new with rfl | rfl
          · exact object
          · exact prototype
    · exact .inl (by simp [World.plugin, Array.getElem?_modify, Ne.symm same])
  · exact .of_error rfl (Regime.refl _ w) trivial

theorem copyMembers_keeps (intact : w.Intact strict) (f : Value) (shadow : ObjId) {names : List Name}
    (below : ∀ m ∈ names, m.value.Below w.heap.size) :
    Leaves (.keeping strict) (copyMembers f shadow names) w fun _ _ => True := by
  refine Host.forM_keeps intact fun m listed v kept => ?_
  split
  · exact .bind_get (putProperty_keeps _ _ ((below m listed).mono kept.size) (kept.intact.objects _).bag.get)
  · exact .pure trivial

theorem addForwarders_keeps (intact : w.Intact strict) {plugin : Plugin} (prototype : ObjId) {names : List Name}
    (rooted : Emulation.Inside w.heap.size plugin.roots) (below : ∀ m ∈ names, m.value.Below w.heap.size) :
    Leaves (.keeping strict) (addForwarders plugin prototype names) w fun _ _ => True := by
  refine Host.forM_keeps intact fun m listed v kept => ?_
  have named := (below m listed).mono kept.size
  refine .keep kept.intact (Emulation.forwarder_keeps kept.intact _ _ (rooted.mono kept.size) named) fun f u more made => ?_
  exact putProperty_keeps prototype false (named.mono more.size) (Datum.below_obj.2 made)

theorem parentPrototype_below (intact : w.Intact strict) {roots : Roots} (rooted : Emulation.Inside w.heap.size roots)
    (parent : ObjId) : Yields (fun o => o < w.heap.size) (parentPrototype w roots parent) := by
  refine .bind (intact.lookup parent _) fun x below => ?_
  split
  · exact .ok (Datum.below_obj.1 below)
  · exact .ok rooted.1

/-- The two objects of a new shadow refer to nothing that is not there. -/
theorem laid_keeps (intact : w.Intact strict) (p : PluginId) {f : Value} {q : ObjId} (below : f.Below w.heap.size)
    (inside : q < w.heap.size) : Kept strict w (laid w p f q) := by
  have making : Leaves (.keeping strict) (layOut w p f q) w fun _ _ => True := by
    have rooted := Emulation.inside_roots intact p
    refine .keep intact (begetFrom_obj_keeps rooted.2.1) fun shadow v₁ kept₁ shadow_in => ?_
    refine .keep kept₁.intact (begetFrom_obj_keeps (Nat.lt_of_lt_of_le inside kept₁.size))
      fun prototype v₂ kept₂ prototype_in => ?_
    refine .keep kept₂.intact (putHidden_keeps shadow "prototype" (Datum.below_obj.2 prototype_in)) fun _ v₃ kept₃ _ => ?_
    have so_far := (kept₁.trans kept₂).trans kept₃
    refine .keep kept₃.intact (putHidden_keeps prototype "constructor" (below.mono so_far.size)) fun _ v₄ kept₄ _ => ?_
    have so_far := so_far.trans kept₄
    have own_in := intact.ownNames f _ _ (Host.ownNames_eq w (w.plugin p).config f)
    exact copyMembers_keeps kept₄.intact f shadow fun m listed => (own_in m listed).mono so_far.size
  exact (making.of_run (exec_layOut w p f q)).1 intact

theorem enter_keeps {u : World} (p : PluginId) (f parent : Value) (room : w.heap.size + 2 ≤ u.heap.size) :
    Leaves (.keeping strict) (enter w p f parent) u fun _ _ => True := by
  unfold enter
  split
  · exact .bind (register_keeps p _ (Nat.lt_of_lt_of_le (Nat.lt_add_of_pos_right (by decide)) room)
      (Nat.lt_of_lt_of_le (Nat.lt_succ_self _) room)) fun _ _ _ _ => say_keeps _
  · exact .pure trivial

theorem build_keeps (intact : w.Intact strict) (p : PluginId) {f : Value} (below : f.Below w.heap.size) :
    Leaves (.keeping strict) (build p f) w fun _ _ => True := by
  have rooted := Emulation.inside_roots intact p
  rcases build_cases w p f with ⟨e, -, run⟩ | ⟨parent, q, -, link, run⟩
  · exact .of_error run (Regime.refl _ w) trivial
  · have laying := laid_keeps intact p below (parentPrototype_below intact rooted _ q link)
    refine .of_exec run (fun _ => laying) (.ask keeping_free (intact.methodNames f _) fun names names_in => ?_)
    refine .keep laying.intact (addForwarders_keeps laying.intact _ (rooted.mono laying.size) fun m listed =>
      (names_in m listed).mono laying.size) fun _ u kept _ => ?_
    exact enter_keeps p f parent (by rw [← size_laid w p f q]; exact kept.size)

theorem shadow?_inside (intact : w.Intact strict) {p : PluginId} {f : Value} {s : Shadow}
    (found : shadow? w p f = some s) : s.object < w.heap.size ∧ s.prototype < w.heap.size := by
  obtain ⟨c, -, registered⟩ := Option.bind_eq_some_iff.1 found
  obtain ⟨e, here, rfl⟩ := Option.map_eq_some_iff.1 registered
  have listed := List.mem_of_find?_eq_some here
  exact ⟨intact.owned p _ (Plugin.mem_owned.2 (.inr ⟨e, listed, .inl rfl⟩)),
    intact.owned p _ (Plugin.mem_owned.2 (.inr ⟨e, listed, .inr rfl⟩))⟩

/-- The callables for which shadows are missing are there if the first of them is. -/
theorem missing_below (intact : w.Intact strict) (p : PluginId) (depth : Nat) {f : Value} (below : f.Below w.heap.size) :
    Yields (fun l => ∀ g ∈ l, g.Below w.heap.size) (missing w p depth f) := by
  induction depth generalizing f with
  | zero => exact .error _
  | succ depth ih =>
    unfold missing
    split
    · exact .ok (List.forall_mem_nil _)
    · refine .bind (intact.superConstructor _ f) fun parent parent_in => ?_
      split
      · exact .ok (by simpa using below)
      · exact .bind (ih parent_in) fun l rest => .ok (List.forall_mem_cons.2 ⟨below, rest⟩)

theorem shadowOf_keeps (intact : w.Intact strict) (p : PluginId) (f : Value) :
    Leaves (.keeping strict) (shadowOf p f) w fun s v => s < v.heap.size := by
  refine .bind (enforceCallable_stays f _) fun _ u _ ⟨same, callable⟩ => ?_
  subst same
  refine .bind_get (.ask keeping_free (missing_below intact p _ (intact.callable callable)) fun chain below => ?_)
  have building : Leaves (.keeping strict) (chain.reverse.forM (build p)) u fun _ _ => True :=
    Host.forM_keeps intact fun g listed v kept =>
      build_keeps kept.intact p ((below g (List.mem_reverse.1 listed)).mono kept.size)
  refine .keep intact building fun _ v kept _ => .bind_get ?_
  split
  · rename_i s found
    exact .pure (shadow?_inside kept.intact found).1
  · exact .stop rfl

theorem make_keeps (intact : w.Intact strict) (h : HostId) (config : Config) {outers : Value}
    (below : outers.Below w.heap.size) : Leaves (.keeping strict) (make h config outers) w fun _ _ => True := by
  have warning : Leaves (.keeping strict) (warn config) w fun _ _ => True :=
    Host.forM_keeps intact fun _ _ _ _ => say_keeps _
  refine .keep intact warning fun _ v₁ kept₁ _ => ?_
  refine .keep kept₁.intact (Emulation.seedRoots_keeps kept₁.intact h config) fun roots v₂ kept₂ rooted => .bind_get ?_
  dsimp only
  refine .keep kept₂.intact (Host.put_keeps kept₂.intact outers Datum.below_str (Datum.below_obj.2 rooted.2.2.1))
    fun _ v₃ kept₃ _ => ?_
  refine .keep kept₃.intact (say_keeps _) fun _ v₄ kept₄ _ => .bind_get ?_
  have later := kept₃.trans kept₄
  have rooted' := rooted.mono later.size
  refine .of_ok rfl (withPlugins_kept fun _ p => ?_) trivial
  unfold World.plugin
  dsimp only
  rw [Array.getElem?_push]
  split
  · refine .inr ⟨fun o own => ?_, below.mono ((kept₁.trans kept₂).trans later).size⟩
    rw [Option.getD_some, Plugin.mem_owned] at own
    have seeded : ∀ e ∈ seededShadows v₂ (v₂.host h) roots,
        e.2 = ⟨roots.objectShadow, roots.objectPrototype⟩ ∨ e.2 = ⟨roots.function, roots.functionPrototype⟩ := by
      intro e listed
      obtain ⟨pair, here, made⟩ := List.mem_filterMap.1 listed
      obtain ⟨c, -, rfl⟩ := Option.map_eq_some_iff.1 made
      simp only [List.mem_cons, List.not_mem_nil, or_false] at here
      rcases here with rfl | rfl
      · exact .inl rfl
      · exact .inr rfl
    rcases own with (rfl | rfl | rfl | rfl) | ⟨e, listed, made⟩
    · exact rooted'.1
    · exact rooted'.2.1
    · exact rooted'.2.2.1
    · exact rooted'.2.2.2
    · rcases seeded e listed with same | same <;> rw [same] at made <;> rcases made with rfl | rfl
      · exact rooted'.2.2.2
      · exact rooted'.1
      · exact rooted'.2.2.1
      · exact rooted'.2.1
  · exact .inl rfl

end Plugin

/-! ## Effects -/

/-- All values that an effect is given are values of the world. Where its makers are `strict`, what an effect gives an
object as its link, or a host function as its prototype, is null or an object. -/
def Effect.Given (strict : Prop) (w : World) : Effect → Prop
  | .newFn f => f.Below w.heap.size
  | .newObject proto members =>
    proto.Below w.heap.size ∧ MembersBelow w.heap.size members ∧ (strict → IsLink proto)
  | .put _ name value _ => name.Below w.heap.size ∧ value.Below w.heap.size
  | .erase _ name => name.Below w.heap.size
  | .freeze _ => True
  | .newFunction impl s proto prototype =>
    impl.Below w.heap.size ∧ s.Below w.heap.size ∧ proto.Below w.heap.size ∧ prototype.Below w.heap.size ∧
      (strict → IsLink proto ∧ IsLink prototype)
  | .defineFunction _ impl s => impl.Below w.heap.size ∧ s.Below w.heap.size
  | .defineConstructor _ s init parent methods statics =>
    s.Below w.heap.size ∧ init.Below w.heap.size ∧ parent.Below w.heap.size ∧ MembersBelow w.heap.size methods ∧
      MembersBelow w.heap.size statics
  | .makeHost => True
  | .registerPrimitive _ _ ctor => ctor.Below w.heap.size
  | .makePlugin _ _ outers => outers.Below w.heap.size
  | .shadowOf _ f => f.Below w.heap.size
  | .emulate _ raw name => raw.Below w.heap.size ∧ name.Below w.heap.size
  | .forwarder _ name => name.Below w.heap.size

/-- An effect that is given values of its world leaves an intact world intact. -/
theorem Effect.keeps {strict : Prop} {w : World} (intact : w.Intact strict) {d : Effect} (given : d.Given strict w) :
    Kept strict w (d.after w) := by
  cases d with
  | newFn f => exact (newFn_keeps given).world intact
  | newObject proto members =>
    obtain ⟨below, members_in, link⟩ := given
    refine (alloc_keeps ⟨below, Bag.below_ofMembers members_in, fun _ none => ?_, link, fun _ _ none => ?_⟩).world intact
    · cases none
    · cases none
  | put o name value e => exact (putProperty_keeps o e given.1 given.2).world intact
  | erase o name => exact (eraseProperty_keeps o name).world intact
  | freeze o => exact (freeze_keeps o).world intact
  | newFunction impl s proto prototype =>
    obtain ⟨code, signed, below, below', links⟩ := given
    exact (Host.newFunction_keeps intact code signed below below' links).world intact
  | defineFunction h impl s => exact (Host.defineFunction_keeps intact h given.1 given.2).world intact
  | defineConstructor h s init parent methods statics =>
    obtain ⟨signed, begins, -, methods_in, statics_in⟩ := given
    exact (Host.defineConstructor_keeps intact h parent signed begins methods_in statics_in).world intact
  | makeHost => exact (Host.make_keeps intact).world intact
  | registerPrimitive h kind ctor => exact (Host.registerPrimitive_keeps h kind given).world intact
  | makePlugin h config outers => exact (Plugin.make_keeps intact h config given).world intact
  | shadowOf p f => exact (Plugin.shadowOf_keeps intact p f).world intact
  | emulate p raw name => exact (Plugin.emulate_keeps intact p raw given.2).world intact
  | forwarder p name => exact (Plugin.forwarder_keeps intact p given).world intact

/-- The world of the start refers to its one object only. -/
theorem World.initial_intact (strict : Prop) : World.initial.Intact strict := by
  refine ⟨fun o => ?_, fun i => ?_, fun h => ?_, fun h => ?_, fun p => ?_, fun p => ?_⟩
  · match o with
    | 0 => exact ⟨Datum.below_null, fun _ none => (nomatch none), fun _ none => (nomatch none), fun _ => .inl rfl,
        fun _ _ none => (nomatch none)⟩
    | o + 1 => exact ⟨Datum.below_null, fun _ none => (nomatch none), fun _ none => (nomatch none), fun _ => .inl rfl,
        fun _ _ none => (nomatch none)⟩
  · match i with
    | 0 => trivial
    | 1 => trivial
    | i + 2 => trivial
  · have none_yet : World.initial.host h = default := rfl
    rw [none_yet]
    decide
  · exact fun _ none => nomatch none
  · have none_yet : World.initial.plugin p = default := rfl
    rw [none_yet]
    decide
  · exact Datum.below_null

/-- A run whose effects are given values of their worlds goes through intact worlds. -/
theorem ReachableUnder.intact {strict : Prop} {w : World} (reachable : ReachableUnder (fun u d => d.Given strict u) w) :
    w.Intact strict := by
  refine ExecutionUnder.keeps reachable World.initial_sound (World.initial_intact strict) (fun u t _ aside intact => ?_)
    fun u d _ given intact => (Effect.keeps intact given).intact
  exact intact.of_same aside.heap aside.fns aside.hosts aside.plugins

/-- The effects that make a family are given values of their worlds, with a log or without. -/
theorem Effect.family_given (strict : Prop) (statics : Key → Prop) (logging : Bool) :
    AllowedFrom (fun u d => d.Given strict u ∧ d.Within (.definitions statics))
      { World.initial with logging := logging } family := by
  have signed (n : Nat) (s : Text) : Host.Signature.Below n { name := .str s } :=
    ⟨Datum.below_str, Datum.below_null, Datum.below_null⟩
  refine ⟨⟨trivial, trivial⟩, ⟨⟨Datum.below_obj.2 ?_, nofun, fun _ => .inr ⟨1, rfl⟩⟩, .inl trivial⟩,
    ⟨Datum.below_obj.2 ?_, trivial⟩, ⟨⟨signed _ _, Datum.below_null, Datum.below_null, nofun, nofun⟩, nofun, nofun⟩,
    ⟨⟨signed _ _, Datum.below_null, Datum.below_obj.2 ?_, nofun, nofun⟩, nofun, nofun⟩, trivial⟩
  all_goals
    cases logging
    · decide +kernel
    · decide +kernel

end Overlay
