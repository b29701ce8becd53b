import Overlay.Proofs.Raising
import Overlay.Proofs.Forwarding
import Overlay.Proofs.Views

/-!
# Instances

A construction makes an object, and then hands it to a body that may do anything: patch prototypes, construct more, or
answer something else. What the object is linked to is settled before that, and a link never changes; nor does what makes
a host function one. So what the object is an instance of is settled as well, by the prototypes that the constructors of
a chain have had since they were defined. Only the `prototype` of an emulated constructor may change, and where it is
what it was the object is an instance again.
-/

namespace Overlay
set_option autoImplicit false

open Act World

/-- The world with a new object of the given prototype. -/
def World.begetting (w : World) (proto : Value) : World :=
  { w with heap := w.heap.push { proto := proto } }

theorem Act.exec_begetFrom_eq (w : World) (proto : Value) :
    exec (begetFrom proto) w = (.ok w.heap.size, w.begetting proto) := rfl

theorem World.after_concat (ds : List Effect) (d : Effect) : World.after (ds ++ [d]) = d.after (World.after ds) := by
  rw [World.after, List.foldl_append]
  rfl

/-! ## Chains of constructors -/

namespace Host
variable {w v u : World} {f : ObjId} {l : List ObjId}

/-- A host function and its super constructors, the nearest first. The last one is any host function whose prototype is
an object, or the constructor of objects of the host on which a constructor was defined without a parent; each of the
others was defined over the next, and since then anything may have happened. -/
inductive DefinedOver : World → ObjId → List ObjId → Prop
  | last {w : World} {f q : ObjId} {fn : HostFn} (reachable : Reachable w) (found : w.heap.hostFn? f = some fn)
    (link : fn.prototype = .obj q) (inside : q < w.heap.size) : DefinedOver w f []
  | root {u u' w v : World} {f : ObjId} {h : HostId} (s : Signature) (init : Value) (methods statics : List (Name × Value))
    (reachable : Reachable u) (host : exec make u = (.ok h, u')) (execution : Execution u' w)
    (ran : exec (defineConstructor h s init .null methods statics) w = (.ok f, v)) : DefinedOver v f [(v.host h).object]
  | next {w v : World} {f b : ObjId} {l : List ObjId} (h : HostId) (s : Signature) (init : Value)
    (methods statics : List (Name × Value)) (parent : DefinedOver w b l)
    (ran : exec (defineConstructor h s init (.obj b) methods statics) w = (.ok f, v)) : DefinedOver v f (b :: l)
  | later {w v : World} {f : ObjId} {l : List ObjId} (made : DefinedOver w f l) (execution : Execution w v) :
    DefinedOver v f l

/-- The object is the prototype of a host function. -/
def HasPrototype (h : Heap) (f q : ObjId) : Prop :=
  ∃ fn, h.hostFn? f = some fn ∧ fn.prototype = .obj q

theorem HasPrototype.change {h k : Heap} {f q : ObjId} (has : HasPrototype h f q) (changes : h.Changes k) :
    HasPrototype k f q := by
  obtain ⟨fn, found, link⟩ := has
  exact ⟨fn, changes.hostFn? found, link⟩

theorem HasPrototype.parentPrototype {b q : ObjId} (has : HasPrototype w.heap b q) (h : HostId) :
    parentPrototype w h (.obj b) = .ok (.obj q) := by
  obtain ⟨fn, found, link⟩ := has
  rw [Host.parentPrototype]
  · rw [World.hostFn?, found]
    exact congrArg Except.ok link
  · rintro ⟨⟩

/-- Where the roots of a host stand for ever: they come first of what was made with it. -/
theorem roots_of_make {h : HostId} (reachable : Reachable w) (made : exec make w = (.ok h, v))
    (execution : Execution v u) :
    (u.host h).roots = [w.heap.size, w.heap.size + 1, w.heap.size + 2, w.heap.size + 3] ∧
      Heap.Changes (extended w (foundation w.heap.size w.nextCategory) (w.nextCategory + 5)).heap u.heap := by
  obtain ⟨making, -⟩ := (make_execution (T := .all) w).of_run made
  have advances := execution.advances (reachable.execution making).sound
  rw [exec_make] at made
  obtain ⟨answer, rfl⟩ := Prod.mk.inj made
  obtain rfl := Except.ok.inj answer
  refine ⟨(advances.roots (h := w.hosts.size) (by simp)).trans ?_, advances.trail⟩
  simp only [World.host, Array.getElem?_push_size, Option.getD_some, Host.roots]

/-- The constructor of objects of a host has the object prototype of the host, from when the host was made. -/
theorem HasPrototype.of_make {h : HostId} (reachable : Reachable w) (made : exec make w = (.ok h, v))
    (execution : Execution v u) : HasPrototype u.heap (u.host h).object (u.host h).objectPrototype := by
  obtain ⟨roots, changes⟩ := roots_of_make reachable made execution
  simp only [Host.roots, List.cons.injEq] at roots
  obtain ⟨top, -, object, -⟩ := roots
  rw [top, object]
  have first : HasPrototype (extended w (foundation w.heap.size w.nextCategory) (w.nextCategory + 5)).heap
      (w.heap.size + 2) w.heap.size := ⟨_, congrArg Obj.host (get_extended w _ _ 2), rfl⟩
  exact first.change changes

/-- After a constructor and its prototype were made, a definition only changes them, and answers the constructor. -/
theorem complete_leaves (h : HostId) (f q : ObjId) (methods statics : List (Name × Value)) :
    Leaves (.growth 0) (do
      Act.putHidden q (.str "constructor") (.obj f)
      defineMethods h q methods
      statics.forM fun m => Act.putProperty f m.1.value m.2 true
      Act.freeze q
      Act.freeze f
      return f) w fun g _ => g = f := by
  refine .bind (putProperty_leaves q _ _ false (Nat.zero_le q)) fun _ u _ _ => ?_
  have none_yet : u.heap.FrozenFrom u.heap.size := Heap.frozenFrom_of_size_le (Nat.le_refl _)
  refine .bind (defineMethods_leaves h methods (Nat.zero_le _) (Nat.zero_le q) none_yet) fun _ _ _ _ => ?_
  refine .bind (.forM (I := fun _ => True) trivial fun m _ u _ _ => ?_) fun _ _ _ _ => ?_
  · exact (putProperty_leaves f _ _ true (Nat.zero_le f)).conseq fun _ _ _ _ => trivial
  · refine .bind (freeze_leaves q (Nat.zero_le q)) fun _ _ _ _ => ?_
    exact .bind (freeze_leaves f (Nat.zero_le f)) fun _ _ _ _ => .pure rfl

/-- A defined constructor has a new prototype, which is linked to that of its parent. -/
theorem defineConstructor_links {h : HostId} {s : Signature} {init parent link : Value}
    {methods statics : List (Name × Value)} (answer : parentPrototype w h parent = .ok link)
    (ran : exec (defineConstructor h s init parent methods statics) w = (.ok f, v)) :
    HasPrototype v.heap f w.heap.size ∧ v.heap.Linked w.heap.size link := by
  rw [defineConstructor, exec_get_bind, answer, exec_lift_ok_bind, exec_bind_ok (exec_begetFrom_eq w _)] at ran
  obtain ⟨g, u, made, ran⟩ := exists_of_exec_bind ran
  obtain ⟨near, rfl, bag, arity, source, -, rfl⟩ := (newFunction_leaves (n := 0) _ _ _ _ (Nat.zero_le _)).of_run made
  obtain ⟨far, rfl⟩ := (complete_leaves h _ w.heap.size methods statics).of_run ran
  have linked := near.trail.linked (Heap.linked_push w.heap { proto := link })
  refine ⟨HasPrototype.change ⟨⟨initialiser w init, w.nextCategory, .obj w.heap.size, arity, source⟩, ?_, rfl⟩ far.trail,
    far.trail.linked linked⟩
  exact congrArg Obj.host (Heap.get_push_new _ _)

/-- The prototypes of the super constructors are ancestors of the prototype of the constructor. -/
theorem DefinedOver.prototypes (defined : DefinedOver w f l) : Reachable w ∧ ∃ q, HasPrototype w.heap f q ∧
    q < w.heap.size ∧ ∀ a ∈ l, ∃ t, HasPrototype w.heap a t ∧ t ∈ w.heap.ancestors q := by
  -- by induction on how the chain came about
  induction defined with
  | last reachable found link inside => exact ⟨reachable, _, ⟨_, found, link⟩, inside, List.forall_mem_nil _⟩
  | @root u u' w v f h s init methods statics reachable host execution ran =>
    obtain ⟨making, -⟩ := (make_execution (T := .all) u).of_run host
    have reachable' := (reachable.execution making).execution execution
    have defining : Execution w v := Defines.execution (.constructor h s init .null methods statics ran)
    have inside : (w.host h).objectPrototype < w.heap.size := (reachable'.sound.hosts h).top.1.1
    obtain ⟨has, linked⟩ := defineConstructor_links rfl ran
    obtain ⟨grown, -⟩ := (defineConstructor_leaves h s init .null methods statics (Nat.le_refl w.heap.size)).of_run ran
    refine ⟨reachable'.execution defining, w.heap.size, has, linked.1, fun a among => ?_⟩
    rw [List.mem_singleton.1 among]
    refine ⟨_, HasPrototype.of_make reachable host (execution.trans defining), ?_⟩
    rw [Heap.ancestors_of_linked linked inside, grown.host h]
    exact List.mem_cons_self
  | @next w v f b l h s init methods statics parent ran ih =>
    obtain ⟨reachable, q, has, inside, above⟩ := ih
    have execution : Execution w v := Defines.execution (.constructor h s init (.obj b) methods statics ran)
    have changes := (execution.advances reachable.sound).trail
    obtain ⟨has', linked⟩ := defineConstructor_links (has.parentPrototype h) ran
    have path : v.heap.ancestors w.heap.size = v.heap.path q := Heap.ancestors_of_linked linked inside
    refine ⟨reachable.execution execution, w.heap.size, has', linked.1, fun a among => ?_⟩
    rw [path, Heap.path, (changes.sameShape.path inside).1]
    rcases List.mem_cons.1 among with rfl | further
    · exact ⟨q, has.change changes, List.mem_cons_self⟩
    · obtain ⟨t, owns, on⟩ := above a further
      exact ⟨t, owns.change changes, List.mem_cons_of_mem q on⟩
  | later _ execution ih =>
    obtain ⟨reachable, q, has, inside, above⟩ := ih
    have changes := (execution.advances reachable.sound).trail
    refine ⟨reachable.execution execution, q, has.change changes, Nat.lt_of_lt_of_le inside changes.sameShape.size,
      fun a among => ?_⟩
    obtain ⟨t, owns, on⟩ := above a among
    rw [(changes.sameShape.path inside).1]
    exact ⟨t, owns.change changes, on⟩

end Host

/-! ## Construction -/

namespace Plugin
variable {invoke : Invoker} {w v u : World} {p : PluginId} {ctor args r : Value}

/-- The prototype that a constructor gives to its instances: that of a host function; of any other object what is found
as its `prototype`, or the patchable prototype of all objects if that is no object. -/
inductive Gives (w : World) (p : PluginId) : Value → Value → Prop
  | real {ctor : Value} {fn : HostFn} (found : w.hostFn? ctor = some fn) : Gives w p ctor fn.prototype
  | shown {o t : ObjId} (plain : w.isCallable (.obj o) = false) (found : w.heap.lookup o "prototype" = .ok (.obj t)) :
    Gives w p (.obj o) (.obj t)
  | none {o : ObjId} {y : Value} (plain : w.isCallable (.obj o) = false) (found : w.heap.lookup o "prototype" = .ok y)
    (other : ∀ t, y ≠ .obj t) : Gives w p (.obj o) (.obj (w.plugin p).roots.objectPrototype)

theorem Gives.eq_real {c t : ObjId} {proto : Value} (gives : Gives w p (.obj c) proto)
    (has : Host.HasPrototype w.heap c t) : proto = .obj t := by
  obtain ⟨fn, found, link⟩ := has
  cases gives with
  | real found' => rw [← link, Option.some.inj (found'.symm.trans found)]
  | shown plain _ =>
    rw [isCallable_obj, found] at plain
    cases plain
  | none plain _ _ =>
    rw [isCallable_obj, found] at plain
    cases plain

theorem Gives.eq_shown {c t : ObjId} {proto : Value} (gives : Gives w p (.obj c) proto)
    (plain : w.isCallable (.obj c) = false) (shown : w.heap.lookup c "prototype" = .ok (.obj t)) : proto = .obj t := by
  cases gives with
  | real found =>
    rw [isCallable_obj] at plain
    have callable : (w.heap.hostFn? c).isSome = true := Option.isSome_iff_exists.2 ⟨_, found⟩
    rw [plain] at callable
    cases callable
  | shown _ found => exact Except.ok.inj (found.symm.trans shown)
  | none _ found other => exact absurd (Except.ok.inj (found.symm.trans shown)) (other t)

/-- What a constructor does with a new object: the body of a host function, or what an emulated function applies. -/
def body (invoke : Invoker) (w : World) (p : PluginId) (ctor args : Value) (made : ObjId) : Act Value :=
  match w.hostFn? ctor with
  | some fn => do fn.impl.run invoke (.obj made) (← Host.spread args)
  | none => apply invoke p ctor (.obj made) args

theorem refuseCall_not_ok {f a : Value} : exec (refuseCall p f) w ≠ (.ok a, v) := by
  intro ended
  rw [refuseCall, exec_get_bind] at ended
  obtain ⟨shown, -, ended⟩ := exists_of_exec_lift_bind ended
  obtain ⟨tag, -, ended⟩ := exists_of_exec_lift_bind ended
  cases ended

theorem hostRead_ok {h : HostId} {x name y : Value} (run : exec (Host.read h x name) w = (.ok y, u)) :
    u = w ∧ (·.getD .undefined) <$> Host.search w h x name = .ok y := by
  rw [Host.read, exec_get_bind] at run
  obtain ⟨_, -, run⟩ := exists_of_exec_lift_bind run
  obtain ⟨found, answer, ended⟩ := exists_of_exec_lift_bind run
  obtain ⟨same, rfl⟩ := Prod.mk.inj ended
  rw [answer]
  exact ⟨rfl, same⟩

theorem isCallable_begetting (w : World) (proto x : Value) : (w.begetting proto).isCallable x = w.isCallable x := by
  rcases x with _ | _ | _ | _ | _ | _ | _ | _ | _ | (o | _ | _ | _ | _)
  case ref.object =>
    change (Heap.get (w.heap.push { proto := proto }) o).host.isSome = (w.heap.get o).host.isSome
    rw [Heap.get_push]
    split
    · next last => rw [last, Heap.get_of_size_le (Nat.le_refl _)]
    · rfl
  all_goals rfl

/-- Only a callable or an object can be applied. -/
theorem apply_ok {f this a : Value} (run : exec (apply invoke p f this args) w = (.ok a, v))
    (plain : w.isCallable f = false) : ∃ o, f = .obj o := by
  rw [apply, exec_get_bind] at run
  simp only [plain, Bool.false_eq_true, if_false] at run
  split at run
  · exact ⟨_, rfl⟩
  · exact absurd run refuseCall_not_ok

/-- What an emulated constructor is applied to. -/
theorem exists_of_emulated {t : ObjId} (run : exec (do
      let made ← Act.begetFrom (.obj t)
      let answer ← apply invoke p ctor (.obj made) args
      return Host.constructed (← get) made answer) w = (.ok r, v)) :
    ∃ answer, exec (apply invoke p ctor (.obj w.heap.size) args) (w.begetting (.obj t)) = (.ok answer, v) ∧
      r = Host.constructed v w.heap.size answer := by
  rw [exec_bind_ok (exec_begetFrom_eq w _)] at run
  obtain ⟨answer, u, ran, ended⟩ := exists_of_exec_bind run
  obtain ⟨same, rfl⟩ := Prod.mk.inj ended
  exact ⟨answer, ran, (Except.ok.inj same).symm⟩

/-- A construction that ends has run the body on a new object. -/
theorem construct_ok (run : exec (construct invoke p ctor args) w = (.ok r, v)) : ∃ proto answer, Gives w p ctor proto ∧
    exec (body invoke w p ctor args w.heap.size) (w.begetting proto) = (.ok answer, v) ∧
    r = Host.constructed v w.heap.size answer := by
  rw [construct, exec_get_bind] at run
  unfold body
  cases callable : w.isCallable ctor with
  | true =>
    simp only [callable, if_true] at run
    rw [Host.construct, exec_bind_ok (exec_enforceCallable _ callable), exec_get_bind] at run
    split at run
    · obtain ⟨_, -, stopped⟩ := exists_of_exec_lift_bind run
      cases stopped
    · obtain ⟨_, -, stopped⟩ := exists_of_exec_lift_bind run
      cases stopped
    · next fn found _ =>
      rw [exec_bind_ok (exec_begetFrom_eq w _)] at run
      obtain ⟨xs, spread, run⟩ := exists_of_exec_lift_bind run
      obtain ⟨answer, u, ran, ended⟩ := exists_of_exec_bind run
      obtain ⟨same, rfl⟩ := Prod.mk.inj ended
      have link : Host.prototypeMember w ctor = fn.prototype := by
        rw [Host.prototypeMember, found]
        rfl
      rw [link] at ran
      refine ⟨fn.prototype, answer, .real found, ?_, (Except.ok.inj same).symm⟩
      rw [found]
      simp only
      rw [spread, exec_lift_ok_bind]
      exact ran
  | false =>
    simp only [callable, Bool.false_eq_true, if_false] at run
    obtain ⟨y, u, read, run⟩ := exists_of_exec_bind run
    obtain ⟨rfl, found⟩ := hostRead_ok read
    have unhosted {o : ObjId} (plain : u.isCallable (.obj o) = false) : u.hostFn? (.obj o) = none :=
      Option.isNone_iff_eq_none.1 (Option.isSome_eq_false_iff.1 plain)
    split at run
    · next t =>
      obtain ⟨answer, ran, same⟩ := exists_of_emulated run
      obtain ⟨o, rfl⟩ := apply_ok ran ((isCallable_begetting u _ ctor).trans callable)
      refine ⟨.obj t, answer, .shown callable found, ?_, same⟩
      rw [unhosted callable]
      exact ran
    · next other =>
      obtain ⟨answer, ran, same⟩ := exists_of_emulated run
      obtain ⟨o, rfl⟩ := apply_ok ran ((isCallable_begetting u _ ctor).trans callable)
      refine ⟨_, answer, .none callable found other, ?_, same⟩
      rw [unhosted callable]
      exact ran

/-! ## Instances -/

theorem body_execution {T : Tolerance} (steady : ∀ g xs, Follows (.execution T) (invoke g xs)) (w : World) (p : PluginId)
    (ctor args : Value) (made : ObjId) : Follows (.execution T) (body invoke w p ctor args made) := by
  unfold body
  split
  · exact .bind (.lift (Host.spread_noReport args)) fun _ => Host.impl_execution steady _ _ _
  · exact apply_execution steady p ctor _ args

/-- A body leads from the world with the new object to a later one, in which the link of the object is what it was. -/
theorem body_linked {proto answer : Value} (steady : ∀ g xs u, Execution u (exec (invoke g xs) u).2)
    (reachable : Reachable w)
    (ran : exec (body invoke w p ctor args w.heap.size) (w.begetting proto) = (.ok answer, v)) :
    Execution w v ∧ v.heap.Linked w.heap.size proto := by
  have follows (g : Value) (xs : List Value) : Follows (.execution .all) (invoke g xs) := fun u =>
    ⟨steady g xs u, fun _ _ => trivial, fun e _ => Regime.execution_all u e⟩
  have first : Execution w (w.begetting proto) := (begetFrom_execution (T := .all) proto w).world
  obtain ⟨execution, -⟩ := (body_execution follows w p ctor args w.heap.size (w.begetting proto)).of_run ran
  refine ⟨first.trans execution, ?_⟩
  have changes := (execution.advances (reachable.execution first).sound).trail
  exact changes.linked (Heap.linked_push w.heap { proto := proto })

/-- An object below the prototype of a host function is its instance, for every plugin. -/
theorem instanceOf_real {o a t : ObjId} (has : Host.HasPrototype w.heap a t) (on : t ∈ w.heap.ancestors o)
    (q : PluginId) : exec (instanceOf q (.obj o) (.obj a)) w = (.ok true, w) := by
  obtain ⟨fn, found, link⟩ := has
  have callable : w.isCallable (.obj a) = true := Option.isSome_iff_exists.2 ⟨fn, found⟩
  have really : Host.instanceOf w (w.plugin q).host (.obj o) (.obj a) = .ok true := by
    rw [Host.instanceOf, Host.prototypeMember, World.hostFn?, found]
    change Host.inheritsFrom w (w.plugin q).host (.obj o) fn.prototype = _
    rw [link]
    change w.heap.inherits o t = _
    rw [Heap.inherits, if_pos (List.contains_iff_mem.2 on)]
  rw [instanceOf, exec_get_bind, really, exec_lift_ok_bind]
  simp only [callable, Bool.and_self, if_true]
  rfl

/-- An object that is no callable has as instances what descends from the object that it shows as its `prototype`. -/
theorem exec_instanceOf_shown {c t : ObjId} (plain : w.isCallable (.obj c) = false)
    (shown : w.heap.lookup c "prototype" = .ok (.obj t)) (q : PluginId) (x : Value) :
    exec (instanceOf q x (.obj c)) w = (Host.inheritsFrom w (w.plugin q).host x (.obj t), w) := by
  have unhosted : w.heap.hostFn? c = none := Option.isNone_iff_eq_none.1 (Option.isSome_eq_false_iff.1 plain)
  have really : Host.instanceOf w (w.plugin q).host x (.obj c) = .ok false := by
    rw [Host.instanceOf, Host.prototypeMember, World.hostFn?, unhosted]
    rfl
  have proto : exec (pseudoPrototype q (.obj c)) w = (.ok (.obj t), w) := by
    rw [pseudoPrototype, exec_get_bind]
    simp only [plain, Bool.false_eq_true, if_false]
    rw [exec_get_bind, shown]
    rfl
  rw [instanceOf, exec_get_bind, really, exec_lift_ok_bind]
  simp only [Bool.and_false, Bool.false_eq_true, if_false]
  rw [exec_bind_ok proto, exec_get_bind]
  rfl

/-- An object below what an emulated constructor shows as its `prototype` is its instance, for every plugin. -/
theorem instanceOf_shown {o c t : ObjId} (plain : w.isCallable (.obj c) = false)
    (shown : w.heap.lookup c "prototype" = .ok (.obj t)) (on : t ∈ w.heap.ancestors o) (q : PluginId) :
    exec (instanceOf q (.obj o) (.obj c)) w = (.ok true, w) := by
  rw [exec_instanceOf_shown plain shown]
  change (w.heap.inherits o t, w) = _
  rw [Heap.inherits, if_pos (List.contains_iff_mem.2 on)]

theorem constructed_made {made : ObjId} {answer : Value} (object : ∀ o, answer ≠ .obj o)
    (uncallable : v.isCallable answer = false) : Host.constructed v made answer = .obj made := by
  unfold Host.constructed
  split
  · next o => exact absurd rfl (object o)
  · rw [uncallable]
    rfl

/-- What finds something is there. -/
theorem lt_size_of_lookup {h : Heap} {o : ObjId} {k : Key} {y : Value} (found : h.lookup o k = .ok y)
    (there : y ≠ .undefined) : o < h.size := by
  apply Nat.lt_of_not_le
  intro out
  have gone := Heap.get_of_size_le out
  have whole : h.isWhole o = true := by rw [Heap.isWhole, gone]
  have nothing : h.search o k = .ok none := by
    refine Heap.search_of_not_owned whole fun a on => ?_
    rw [Heap.path, Heap.ancestors, gone, List.mem_singleton] at on
    rw [on, Heap.owns, gone]
    rfl
  rw [Heap.lookup, nothing] at found
  exact there (Except.ok.inj found).symm

/-- What a construction makes and what it is an instance of, whatever the body does, and however deep it calls. The
object is new and linked to the prototype that the constructor had before the body ran. If the constructor was defined
over others, then in every later world and for every plugin the object is an instance of it and of all of them. If it is
an emulated one that showed an object as its `prototype`, then the object is an instance wherever it shows the same one
again. -/
theorem construct_instance (steady : ∀ g xs u, Execution u (exec (invoke g xs) u).2)
    (reachable : ReachableUnder (fun u d => d.Given False u) w)
    (run : exec (construct invoke p ctor args) w = (.ok r, v)) :
    ∃ proto answer, Gives w p ctor proto ∧
      exec (body invoke w p ctor args w.heap.size) (w.begetting proto) = (.ok answer, v) ∧
      r = Host.constructed v w.heap.size answer ∧
      ((∀ o, answer ≠ .obj o) → v.isCallable answer = false →
        r = .obj w.heap.size ∧ v.heap.Linked w.heap.size proto ∧
        (∀ c l, ctor = .obj c → Host.DefinedOver w c l → ∀ a ∈ c :: l, ∀ q u, Execution v u →
          exec (instanceOf q r (.obj a)) u = (.ok true, u)) ∧
        ∀ o t, ctor = .obj o → w.isCallable ctor = false → w.heap.lookup o "prototype" = .ok (.obj t) →
          ∀ q u, Execution v u → u.heap.lookup o "prototype" = .ok (.obj t) →
            exec (instanceOf q r ctor) u = (.ok true, u)) := by
  obtain ⟨proto, answer, gives, ran, rfl⟩ := construct_ok run
  obtain ⟨execution, linked⟩ := body_linked steady reachable.reachable ran
  refine ⟨proto, answer, gives, ran, rfl, fun object uncallable => ?_⟩
  rw [constructed_made object uncallable]
  refine ⟨rfl, linked, fun c l same defined a among q u later => ?_, fun o t same plain shown q u later again => ?_⟩
  · subst same
    obtain ⟨-, t, has, inside, above⟩ := defined.prototypes
    obtain rfl := gives.eq_real has
    have changes := (Execution.advances reachable.reachable.sound (execution.trans later)).trail
    have linked' := (later.advances (reachable.reachable.execution execution).sound).trail.linked linked
    have path : u.heap.ancestors w.heap.size = t :: w.heap.ancestors t := by
      rw [Heap.ancestors_of_linked linked' inside, Heap.path, (changes.sameShape.path inside).1]
    rcases List.mem_cons.1 among with rfl | further
    · exact instanceOf_real (has.change changes) (path ▸ List.mem_cons_self) q
    · obtain ⟨t', has', on⟩ := above a further
      exact instanceOf_real (has'.change changes) (path ▸ List.mem_cons_of_mem t on) q
  · subst same
    obtain rfl := gives.eq_shown plain shown
    have inside : t < w.heap.size := Datum.below_obj.1 (reachable.intact.lookup o _ _ shown)
    have old : o < w.heap.size := lt_size_of_lookup shown (by rintro ⟨⟩)
    have shape := (Execution.advances reachable.reachable.sound (execution.trans later)).trail.sameShape
    have linked' := (later.advances (reachable.reachable.execution execution).sound).trail.linked linked
    have plain' : u.isCallable (.obj o) = false := by
      rw [isCallable_obj, Heap.hostFn?, shape.host o old]
      exact plain
    refine instanceOf_shown plain' again ?_ q
    rw [Heap.ancestors_of_linked linked' inside]
    exact List.mem_cons_self

/-- The second constructor of a family is defined over the first, and that one over the constructor of objects. -/
theorem family_definedOver : Host.DefinedOver (World.after Effect.family) 19 [17, 3] := by
  let beginning : List Effect := [.makeHost, .newObject (.obj 1) []]
  let founded := World.after [.makeHost]
  let settled := World.after (beginning ++ [.makePlugin 0 {} (.obj 11)])
  let base : Effect := .defineConstructor 0 { name := .str "Base" } .null .null [] []
  let sub : Effect := .defineConstructor 0 { name := .str "Sub" } .null (.obj 17) [] []
  have facts :
      (exec (Host.defineConstructor 0 { name := .str "Base" } .null .null [] []) settled).1.toOption = some 17 ∧
      ((base.after settled).host 0).object = 3 ∧
      (exec (Host.defineConstructor 0 { name := .str "Sub" } .null (.obj 17) [] []) (base.after settled)).1.toOption =
        some 19 := by
    decide +kernel
  have host : exec Host.make World.initial = (.ok 0, founded) := Prod.ext (by rw [Host.exec_make]; rfl) rfl
  have execution : Execution founded settled := by
    have object : World.after beginning = Effect.after founded (.newObject (.obj 1) []) :=
      World.after_concat [.makeHost] _
    have plugin : settled = Effect.after (World.after beginning) (.makePlugin 0 {} (.obj 11)) :=
      World.after_concat beginning _
    rw [plugin, object]
    exact Relation.ReflTransGen.tail (.single (.effect _)) (.effect _)
  have after : World.after Effect.family = sub.after (base.after settled) := by
    rw [← World.after_concat, ← World.after_concat]
    rfl
  rw [after]
  clear_value founded settled
  obtain ⟨first, object, second⟩ := facts
  have root : Host.DefinedOver (base.after settled) 17 [((base.after settled).host 0).object] :=
    .root { name := .str "Base" } .null [] [] .refl host execution (Prod.ext (eq_ok_of_toOption first) rfl)
  rw [object] at root
  exact .next 0 { name := .str "Sub" } .null [] [] root (Prod.ext (eq_ok_of_toOption second) rfl)

/-- An instance of the second constructor of a family is one of the first, and an object, whatever comes after. -/
theorem construct_instance_family : ∃ w v,
    ReachableUnder (fun u d => d.Given False u) w ∧ Host.DefinedOver w 19 [17, 3] ∧
    exec (construct (Script.invoke 1) 0 (.obj 19) (.list none [])) w = (.ok (.obj 20), v) ∧
    v.heap.Linked 20 (.obj 18) ∧ ∀ q u, Execution v u →
      exec (instanceOf q (.obj 20) (.obj 19)) u = (.ok true, u) ∧
      exec (instanceOf q (.obj 20) (.obj 17)) u = (.ok true, u) ∧
      exec (instanceOf q (.obj 20) (.obj 3)) u = (.ok true, u) := by
  let w := World.after Effect.family
  have reachable : ReachableUnder (fun u d => d.Given False u) w :=
    (reachableUnder_of_allowed (Effect.family_lawful fun _ => True)).loosen fun _ _ allowed => allowed.1.given
  have defined : Host.DefinedOver w 19 [17, 3] := family_definedOver
  have facts : w.heap.size = 20 ∧ (w.heap.hostFn? 19).map (·.prototype) = some (.obj 18) ∧
      (exec (body (Script.invoke 1) w 0 (.obj 19) (.list none []) 20) (w.begetting (.obj 18))).1.toOption = some .null ∧
      (exec (construct (Script.invoke 1) 0 (.obj 19) (.list none [])) w).1.toOption = some (.obj 20) := by
    decide +kernel
  clear_value w
  obtain ⟨size, prototype, body, answer⟩ := facts
  obtain ⟨fn, found, link⟩ := Option.map_eq_some_iff.1 prototype
  have run : exec (construct (Script.invoke 1) 0 (.obj 19) (.list none [])) w = (.ok (.obj 20), _) :=
    Prod.ext (eq_ok_of_toOption answer) rfl
  obtain ⟨proto, answer, gives, ran, -, made⟩ :=
    construct_instance (fun g xs u => (Script.invoke_execution 1 g xs u).world) reachable run
  obtain rfl := gives.eq_real ⟨fn, found, link⟩
  rw [size] at ran made
  rw [ran] at body
  obtain rfl := Option.some.inj body
  obtain ⟨-, linked, instances, -⟩ := made (by rintro o ⟨⟩) rfl
  have chain (a : ObjId) (among : a ∈ [19, 17, 3]) := instances 19 [17, 3] rfl defined a among
  refine ⟨w, _, reachable, defined, run, linked, fun q u later => ?_⟩
  exact ⟨chain 19 (by decide) q u later, chain 17 (by decide) q u later, chain 3 (by decide) q u later⟩

end Plugin

end Overlay
