import Overlay.Proofs.Bindings
import Overlay.Proofs.Instances

/-!
# What counts as a function

A plugin has two ways to tell that a value is a function: its tag, and whether it is an instance of the emulated
function constructor. The tag asks first whether the value is callable and then for the emulated function prototype
among its ancestors; the instance test asks for that prototype only, because the emulated constructor is an object and
no callable. So the two agree on all that is no callable (`typeOf_eq_function_iff`, `HasFunction.inheritsFrom_iff`),
and since links never change, they go on to do so (`HasFunction.exec_instanceOf`). On callables they part: what hosts
make is linked to the host's own function prototype (`Host.MadeBy.linked`), from which no path leads to the emulated
one (`HasFunction.not_mem_path`), and plain functions count as linked there too.
-/

namespace Overlay
set_option autoImplicit false

open Act World

/-- The object that a reference leads to. -/
theorem Datum.exists_obj_iff {o : ObjId} {P : ObjId → Prop} : (∃ a, (.obj o : Value) = .obj a ∧ P a) ↔ P o := by
  constructor
  · rintro ⟨a, same, holds⟩
    obtain rfl : o = a := Ref.object.inj (Datum.ref.inj same)
    exact holds
  · exact fun holds => ⟨o, rfl, holds⟩

/-! ## Strict ancestors -/

namespace Heap
variable {h : Heap} {o p : ObjId}

theorem inherits_eq_true_iff : h.inherits o p = .ok true ↔ p ∈ h.ancestors o := by
  rw [inherits]
  split
  · next on => exact iff_of_true rfl (List.contains_iff_mem.1 on)
  · next off =>
    refine iff_of_false ?_ fun on => off (List.contains_iff_mem.2 on)
    rw [atEnd]
    split <;> rintro ⟨⟩

theorem inherits_eq_false (outside : p ∉ h.ancestors o) (whole : h.isWhole o = true) : h.inherits o p = .ok false := by
  rw [inherits, if_neg fun on => outside (List.contains_iff_mem.1 on), atEnd, if_pos whole]

/-- What an object descends from never changes. -/
theorem SameShape.inherits {k : Heap} (same : SameShape h k) (inside : o < h.size) (p : ObjId) :
    k.inherits o p = h.inherits o p := by
  obtain ⟨ancestors, whole⟩ := same.path inside
  rw [Heap.inherits, Heap.inherits, ancestors, atEnd, atEnd, whole]

theorem lt_size_of_mem_ancestors (on : p ∈ h.ancestors o) : o < h.size := by
  apply Nat.lt_of_not_le
  intro out
  rw [ancestors, get_of_size_le out] at on
  cases on

/-- What is linked to an object has no other ancestors than it and its own, and its links end where those of the object
do. -/
theorem Linked.ancestors_sub (linked : h.Linked o (.obj p)) (whole : h.isWhole p = true) :
    h.ancestors o ⊆ h.path p ∧ h.isWhole o = true := by
  rw [ancestors, isWhole, linked.2]
  by_cases back : p < o
  · simp only [back, if_true]
    exact ⟨List.Subset.refl _, whole⟩
  · simp only [back, if_false]
    exact ⟨List.nil_subset _, trivial⟩

end Heap

/-! ## Hosts that were made -/

namespace Host
variable {w v : World} {k : HostId} {f : ObjId}

/-- What was made with a host is linked for ever as it was then. -/
theorem linked_of_make {a b : World} {link : Value} (reachable : Reachable a) (ran : exec make a = (.ok k, b))
    (execution : Execution b w) (i : Nat) (there : i < 10)
    (links : ((foundation a.heap.size a.nextCategory)[i]?.getD {}).proto = link) :
    w.heap.Linked (a.heap.size + i) link := by
  refine (roots_of_make reachable ran execution).2.linked ⟨?_, ?_⟩
  · rw [size_extended]
    exact Nat.add_lt_add_left there _
  · rw [get_extended]
    exact links

/-- The host was made, and since then anything may have happened. -/
def IsMade (k : HostId) (w : World) : Prop :=
  ∃ a b, Reachable a ∧ exec make a = (.ok k, b) ∧ Execution b w

namespace IsMade

theorem later (made : IsMade k w) (execution : Execution w v) : IsMade k v := by
  obtain ⟨a, b, reachable, ran, before⟩ := made
  exact ⟨a, b, reachable, ran, before.trans execution⟩

theorem reachable (made : IsMade k w) : Reachable w := by
  obtain ⟨a, b, reachable, ran, execution⟩ := made
  obtain ⟨making, -⟩ := (make_execution (T := .all) a).of_run ran
  exact (reachable.execution making).execution execution

/-- The function prototype of a host is linked to its object prototype. -/
theorem linked (made : IsMade k w) : w.heap.Linked (w.host k).functionPrototype (.obj (w.host k).objectPrototype) ∧
    (w.host k).objectPrototype < (w.host k).functionPrototype := by
  obtain ⟨a, b, reachable, ran, execution⟩ := made
  have roots := (roots_of_make reachable ran execution).1
  simp only [Host.roots, List.cons.injEq] at roots
  obtain ⟨top, function, -, -⟩ := roots
  rw [top, function]
  exact ⟨linked_of_make reachable ran execution 1 (by decide) rfl, Nat.lt_succ_self _⟩

/-- What the links from the function prototype of a host lead to. -/
theorem path (made : IsMade k w) :
    w.heap.path (w.host k).functionPrototype = [(w.host k).functionPrototype, (w.host k).objectPrototype] := by
  obtain ⟨linked, back⟩ := made.linked
  have top := (made.reachable.sound.hosts k).top
  rw [Heap.path, Heap.ancestors_of_linked linked back, Heap.path, Heap.ancestors_of_null top.1]

theorem isWhole (made : IsMade k w) : w.heap.isWhole (w.host k).functionPrototype = true := by
  obtain ⟨linked, back⟩ := made.linked
  have top := (made.reachable.sound.hosts k).top
  rw [Heap.isWhole, linked.2]
  simp only [back, if_true]
  rw [Heap.isWhole, top.1.2]

/-- The function prototype of a host is the same for ever. -/
theorem functionPrototype_later (made : IsMade k w) (execution : Execution w v) :
    (v.host k).functionPrototype = (w.host k).functionPrototype := by
  obtain ⟨a, b, reachable, ran, before⟩ := made
  have roots := (roots_of_make reachable ran (before.trans execution)).1.trans (roots_of_make reachable ran before).1.symm
  simp only [Host.roots, List.cons.injEq] at roots
  exact roots.2.1

/-- What a value descends from never changes. -/
theorem inheritsFrom_later (made : IsMade k w) (execution : Execution w v) {x : Value}
    (inside : ∀ o, x = .obj o → o < w.heap.size) (t : ObjId) :
    inheritsFrom v k x (.obj t) = inheritsFrom w k x (.obj t) := by
  have shape := (execution.advances made.reachable.sound).trail.sameShape
  unfold inheritsFrom
  dsimp only
  split
  · next o => exact shape.inherits (inside o rfl) t
  · next other =>
    have callable : v.isCallable x = w.isCallable x := by
      cases x with
      | ref r =>
        cases r with
        | object o => exact absurd rfl (other o)
        | _ => rfl
      | _ => rfl
    rw [callable, made.functionPrototype_later execution, shape.inherits made.linked.1.1]

end IsMade

/-- A function that a host made: one of its two constructors, or one that was defined on it. -/
inductive MadeBy (k : HostId) (f : ObjId) : World → Prop
  | root {w : World} (made : IsMade k w) (isRoot : f = (w.host k).object ∨ f = (w.host k).function) : MadeBy k f w
  | function {w v : World} (made : IsMade k w) (impl : Impl) (s : Signature)
    (ran : exec (defineFunction k impl s) w = (.ok f, v)) : MadeBy k f v
  | constructor {w v : World} (made : IsMade k w) (s : Signature) (init parent : Value)
    (methods statics : List (Name × Value))
    (ran : exec (defineConstructor k s init parent methods statics) w = (.ok f, v)) : MadeBy k f v
  | later {w v : World} (madeBy : MadeBy k f w) (execution : Execution w v) : MadeBy k f v

/-- A new host function is linked as it was asked for. -/
theorem newFunction_linked {impl : Impl} {s : Signature} {proto prototype : Value}
    (ran : exec (newFunction impl s proto prototype) w = (.ok f, v)) : v.heap.Linked f proto := by
  obtain ⟨-, rfl, bag, arity, source, -, rfl⟩ := (newFunction_leaves (n := 0) _ _ _ _ (Nat.zero_le _)).of_run ran
  exact Heap.linked_push w.heap _

theorem defineFunction_linked {impl : Impl} {s : Signature} (ran : exec (defineFunction k impl s) w = (.ok f, v)) :
    v.heap.Linked f (.obj (w.host k).functionPrototype) := by
  rw [defineFunction, exec_get_bind] at ran
  dsimp only at ran
  rw [define, exec_bind_ok (exec_begetFrom_eq w _)] at ran
  obtain ⟨g, u, made, ran⟩ := exists_of_exec_bind ran
  -- what follows is what follows for a constructor without methods and statics
  obtain ⟨far, rfl⟩ := (complete_leaves k g w.heap.size [] []).of_run ran
  exact far.trail.linked (newFunction_linked made)

theorem defineConstructor_linked {s : Signature} {init parent : Value} {methods statics : List (Name × Value)}
    (ran : exec (defineConstructor k s init parent methods statics) w = (.ok f, v)) :
    v.heap.Linked f (.obj (w.host k).functionPrototype) := by
  rw [defineConstructor, exec_get_bind] at ran
  obtain ⟨link, -, ran⟩ := exists_of_exec_lift_bind ran
  rw [exec_bind_ok (exec_begetFrom_eq w _)] at ran
  obtain ⟨g, u, made, ran⟩ := exists_of_exec_bind ran
  obtain ⟨far, rfl⟩ := (complete_leaves k _ w.heap.size methods statics).of_run ran
  exact far.trail.linked (newFunction_linked made)

/-- A function that a host made is linked to its function prototype. -/
theorem MadeBy.linked (madeBy : MadeBy k f w) : IsMade k w ∧ w.heap.Linked f (.obj (w.host k).functionPrototype) := by
  induction madeBy with
  | root made isRoot =>
    refine ⟨made, ?_⟩
    obtain ⟨a, b, reachable, ran, execution⟩ := made
    have roots := (roots_of_make reachable ran execution).1
    simp only [Host.roots, List.cons.injEq] at roots
    obtain ⟨-, prototype, object, function, -⟩ := roots
    rw [prototype]
    rcases isRoot with rfl | rfl
    · rw [object]
      exact linked_of_make reachable ran execution 2 (by decide) rfl
    · rw [function]
      exact linked_of_make reachable ran execution 3 (by decide) rfl
  | function made impl s ran =>
    have execution := Defines.execution (.function k impl s ran)
    exact ⟨made.later execution, made.functionPrototype_later execution ▸ defineFunction_linked ran⟩
  | constructor made s init parent methods statics ran =>
    have execution := Defines.execution (.constructor k s init parent methods statics ran)
    exact ⟨made.later execution, made.functionPrototype_later execution ▸ defineConstructor_linked ran⟩
  | later _ execution ih =>
    obtain ⟨made, linked⟩ := ih
    have changes := (execution.advances made.reachable.sound).trail
    exact ⟨made.later execution, made.functionPrototype_later execution ▸ changes.linked linked⟩

end Host

namespace Plugin
variable {w v : World} {p : PluginId} {h : HostId} {config : Config} {outers : Value}

/-! ## Plugins that were made -/

/-- A plugin that was made stands on its host and its bindings. Its function constructor is new and shows the function
prototype, and the bindings hold it. -/
theorem make_ok (made : exec (make h config outers) w = (.ok p, v)) :
    p < v.plugins.size ∧ (v.plugin p).host = h ∧ (v.plugin p).outers = outers ∧
    w.heap.size ≤ (v.plugin p).roots.function ∧ Seeded v.heap (v.plugin p).roots ∧
    ∀ o, outers = .obj o → o < w.heap.size → v.heap.member? o "Function" = some (.obj (v.plugin p).roots.function) := by
  rw [make] at made
  obtain ⟨_, v₁, warned, made⟩ := exists_of_exec_bind made
  obtain ⟨r, v₂, seeds, made⟩ := exists_of_exec_bind made
  rw [exec_get_bind] at made
  dsimp only at made
  obtain ⟨_, v₃, put, made⟩ := exists_of_exec_bind made
  obtain ⟨_, v₄, said, made⟩ := exists_of_exec_bind made
  rw [exec_get_bind] at made
  obtain ⟨same, rfl⟩ := Prod.mk.inj made
  obtain rfl := Except.ok.inj same
  have still : Aside w v₁ := ((warn_follows config w).of_run warned).1
  have still₄ : Aside v₃ v₄ := ((say_follows fun _ => .ok _) v₃ |>.of_run said).1
  obtain ⟨grown, new, rooted⟩ := (Emulation.seedRoots_leaves h config (Nat.le_refl v₁.heap.size)).of_run seeds
  have members := Host.member?_put (w := v₂) (k := "prototype") outers (.obj r.function)
    (show Key.text "Function" ≠ Key.text "prototype" by decide)
  rw [put] at members
  let x : Plugin := ⟨h, config, r, outers, ⟨seededShadows v₂ (v₂.host h) r⟩⟩
  have here : ({ v₄ with plugins := v₄.plugins.push x } : World).plugin v₄.plugins.size = x := by
    rw [World.plugin, Array.getElem?_push_size]
    rfl
  change v₄.plugins.size < (v₄.plugins.push x).size ∧ _
  rw [here]
  refine ⟨by simp, rfl, rfl, ?_, ?_, ?_⟩
  · rw [← still.heap]
    exact Nat.le_trans new (Nat.le_of_lt (Nat.lt_trans rooted.rising.1 rooted.rising.2.1))
  · exact ((seedRoots_seeded h config seeds).of_same members).of_same fun o => by rw [still₄.heap]
  · rintro o rfl inside
    obtain ⟨-, -, rfl⟩ := setting_ok put
    have there : o < v₂.heap.size := by
      rw [← still.heap] at inside
      exact Nat.lt_of_lt_of_le inside grown.trail.sameShape.size
    change v₄.heap.member? o (Name.ofText "Function").key = some (.obj r.function)
    rw [still₄.heap]
    exact Heap.member?_put_same (Name.ofText "Function") (.obj r.function) true there

/-- What is no callable has the tag of functions just if it is an object below the function prototype. -/
theorem typeOf_eq_function_iff {x : Value} (plain : w.isCallable x = false) : typeOf w p x = .ok .function ↔
    ∃ o, x = .obj o ∧ (w.plugin p).roots.functionPrototype ∈ w.heap.ancestors o := by
  have tag : w.typeTag x ≠ .function := by
    intro function
    have word := World.tagWord_eq_function w x
    rw [World.tagWord, function, plain] at word
    cases word
  by_cases object : ∃ o, x = .obj o
  · obtain ⟨o, rfl⟩ := object
    have isObject : w.typeTag (.obj o) = .object := if_neg (by rw [plain]; exact Bool.false_ne_true)
    have answer : typeOf w p (.obj o) = .ok .function ↔
        w.heap.inherits o (w.plugin p).roots.functionPrototype = .ok true := by
      have inherited : typeOf w p (.obj o) = w.heap.inherits o (w.plugin p).roots.functionPrototype >>= fun below =>
          .ok (if below then .function else .object) := by
        unfold typeOf
        rw [isObject]
        rfl
      rw [inherited]
      rcases w.heap.inherits o (w.plugin p).roots.functionPrototype with _ | (_ | _)
      · exact iff_of_false (by rintro ⟨⟩) (by rintro ⟨⟩)
      · exact iff_of_false (by rintro ⟨⟩) (by rintro ⟨⟩)
      · exact iff_of_true rfl rfl
    rw [answer, Heap.inherits_eq_true_iff, Datum.exists_obj_iff]
  · have other : typeOf w p x = .ok (w.typeTag x) := by
      unfold typeOf
      split
      · next o _ => exact absurd ⟨o, rfl⟩ object
      · rfl
    rw [other]
    refine iff_of_false (fun same => tag (Except.ok.inj same)) fun found => ?_
    obtain ⟨o, same, -⟩ := found
    exact object ⟨o, same⟩

/-! ## The emulated function constructor -/

/-- The emulated function constructor of the plugin is no callable, and it shows the function prototype. -/
structure HasFunction (w : World) (p : PluginId) : Prop where
  reachable : Reachable w
  bound : p < w.plugins.size
  plain : w.isCallable (.obj (w.plugin p).roots.function) = false
  shown : w.heap.member? (w.plugin p).roots.function "prototype" = some (.obj (w.plugin p).roots.functionPrototype)

namespace HasFunction
variable {x : Value}

theorem of_make (reachable : Reachable w) (made : exec (make h config outers) w = (.ok p, v)) : HasFunction v p := by
  obtain ⟨bound, -, -, new, seeded, -⟩ := make_ok made
  obtain ⟨execution, -⟩ := (make_execution (T := .all) h config outers w).of_run made
  obtain ⟨⟨functions, -⟩, -⟩ := (make_plain h config outers w).of_run made
  refine ⟨reachable.execution execution, bound, ?_, seeded.function⟩
  rw [isCallable_obj, functions, Heap.hostFn?, Heap.get_of_size_le new]
  rfl

theorem inside (has : HasFunction w p) : (w.plugin p).roots.function < w.heap.size :=
  (has.reachable.sound.plugins p has.bound).inside _ (by simp [Plugin.owned])

theorem later (has : HasFunction w p) (execution : Execution w v)
    (kept : v.heap.member? (w.plugin p).roots.function "prototype" =
      w.heap.member? (w.plugin p).roots.function "prototype") :
    HasFunction v p ∧ (v.plugin p).roots = (w.plugin p).roots := by
  have advances := execution.advances has.reachable.sound
  obtain ⟨more, same⟩ := advances.shadows p has.bound
  have roots : (v.plugin p).roots = (w.plugin p).roots := by rw [same, Plugin.extend]
  have inside := has.inside
  refine ⟨⟨has.reachable.execution execution, Nat.lt_of_lt_of_le has.bound advances.plugins, ?_, ?_⟩, roots⟩
  · rw [roots, isCallable_obj, Heap.hostFn?, advances.trail.sameShape.host _ inside]
    exact has.plain
  · rw [roots, kept]
    exact has.shown

/-- The function prototype of a plugin is on no host's path of functions: it stands two links above a top. -/
theorem not_mem_path {k : HostId} (has : HasFunction w p) (made : Host.IsMade k w) :
    (w.plugin p).roots.functionPrototype ∉ w.heap.path (w.host k).functionPrototype := by
  obtain ⟨top, -, -, rooted⟩ := (has.reachable.sound.plugins p has.bound).rooted
  obtain ⟨linked, -⟩ := made.linked
  have isTop := (has.reachable.sound.hosts k).top
  rw [made.path, List.mem_cons, List.mem_singleton, not_or]
  constructor
  · intro same
    have next : (w.plugin p).roots.objectPrototype = (w.host k).objectPrototype := by
      have links := rooted.functionPrototype.2
      rw [same, linked.2] at links
      exact (Ref.object.inj (Datum.ref.inj links)).symm
    have links := rooted.objectPrototype.2
    rw [next, isTop.1.2] at links
    cases links
  · intro same
    have links := rooted.functionPrototype.2
    rw [same, isTop.1.2] at links
    cases links

/-- A plain function counts as one of the host's, and anything else that is no object has no ancestors. -/
theorem inheritsFrom_plain {k : HostId} (has : HasFunction w p) (made : Host.IsMade k w) (plain : ∀ o, x ≠ .obj o) :
    Host.inheritsFrom w k x (.obj (w.plugin p).roots.functionPrototype) = .ok false := by
  have outside := has.not_mem_path made
  rw [Heap.path, List.mem_cons, not_or] at outside
  unfold Host.inheritsFrom
  dsimp only
  split
  · next o => exact absurd rfl (plain o)
  · split
    · rw [if_neg fun same => outside.1 (eq_of_beq same).symm]
      exact Heap.inherits_eq_false outside.2 made.isWhole
    · rfl

theorem inheritsFrom_linked {k : HostId} {o : ObjId} (has : HasFunction w p) (made : Host.IsMade k w)
    (linked : w.heap.Linked o (.obj (w.host k).functionPrototype)) (h : HostId) :
    Host.inheritsFrom w h (.obj o) (.obj (w.plugin p).roots.functionPrototype) = .ok false := by
  obtain ⟨within, whole⟩ := linked.ancestors_sub made.isWhole
  exact Heap.inherits_eq_false (fun on => has.not_mem_path made (within on)) whole

/-- What descends from the function prototype are the objects below it. -/
theorem inheritsFrom_iff {k : HostId} (has : HasFunction w p) (made : Host.IsMade k w) (x : Value) :
    Host.inheritsFrom w k x (.obj (w.plugin p).roots.functionPrototype) = .ok true ↔
      ∃ o, x = .obj o ∧ (w.plugin p).roots.functionPrototype ∈ w.heap.ancestors o := by
  by_cases object : ∃ o, x = .obj o
  · obtain ⟨o, rfl⟩ := object
    rw [Datum.exists_obj_iff]
    exact Heap.inherits_eq_true_iff
  · rw [has.inheritsFrom_plain made fun o same => object ⟨o, same⟩]
    refine iff_of_false (fun same => ?_) fun found => ?_
    · cases same
    · obtain ⟨o, same, -⟩ := found
      exact object ⟨o, same⟩

/-- Whatever happens, the instances of the emulated function constructor are what they were, as long as it shows the
function prototype. -/
theorem exec_instanceOf (has : HasFunction w p) (made : Host.IsMade (w.plugin p).host w) (execution : Execution w v)
    (kept : v.heap.member? (w.plugin p).roots.function "prototype" =
      w.heap.member? (w.plugin p).roots.function "prototype") (inside : ∀ o, x = .obj o → o < w.heap.size) :
    exec (instanceOf p x (.obj (w.plugin p).roots.function)) v =
      (Host.inheritsFrom w (w.plugin p).host x (.obj (w.plugin p).roots.functionPrototype), v) := by
  obtain ⟨has', roots⟩ := has.later execution kept
  have settings := ((execution.advances has.reachable.sound).settings has.bound).1
  have answer := exec_instanceOf_shown has'.plain (Heap.lookup_of_member? has'.shown) p x
  rwa [roots, settings, made.inheritsFrom_later execution inside] at answer

/-- A question about an outer name leaves the function constructor as it is. -/
theorem asked {name : Value} {a : Except Fault Value} (has : HasFunction w p)
    (run : exec (readOuter p name) w = (a, v)) : Execution w v ∧
    v.heap.member? (w.plugin p).roots.function "prototype" = w.heap.member? (w.plugin p).roots.function "prototype" := by
  have resolves := (readOuter_asking p name w).world has.reachable.sound
  have execution := (readOuter_execution (T := .all) p name w).world
  rw [run] at resolves execution
  exact ⟨execution, Heap.member?_of_get (resolves.old _ has.inside) _⟩

end HasFunction

/-! ## Tags and instances -/

/-- Tags of functions and instances of the emulated function constructor, for a plugin that was made over a host, while
the constructor shows the `prototype` it was made with. The outer bindings give the constructor, if they are no callable
and their `Function` is what it was; and wherever they give it, tags and instances agree on all that is no callable. A
callable has the tag, but is an instance only if it is linked below the emulated function prototype; so plain functions
are none, nor is what hosts have made. -/
theorem function_tag_and_instance {u u' : World} (hosted : Host.IsMade h u)
    (made : exec (make h config outers) u = (.ok p, u')) (execution : Execution u' w)
    (kept : w.heap.member? (u'.plugin p).roots.function "prototype" =
      u'.heap.member? (u'.plugin p).roots.function "prototype") :
    let function := (u'.plugin p).roots.function
    let prototype := (u'.plugin p).roots.functionPrototype
    (∀ o, outers = .obj o → o < u.heap.size → w.isCallable outers = false →
      w.heap.member? o "Function" = u'.heap.member? o "Function" →
      exec (readOuter p (.str "Function")) w = (.ok (.obj function), w)) ∧
    ∀ v, exec (readOuter p (.str "Function")) w = (.ok (.obj function), v) → ∀ x,
      (w.isCallable x = false →
        (typeOf w p x = .ok .function → exec (instanceOf p x (.obj function)) v = (.ok true, v)) ∧
        (x.Below w.heap.size → exec (instanceOf p x (.obj function)) v = (.ok true, v) → typeOf w p x = .ok .function)) ∧
      (w.isCallable x = true →
        typeOf w p x = .ok .function ∧
        (exec (instanceOf p x (.obj function)) v = (.ok true, v) ↔ ∃ o, x = .obj o ∧ prototype ∈ w.heap.ancestors o) ∧
        ((∀ o, x ≠ .obj o) → exec (instanceOf p x (.obj function)) v = (.ok false, v)) ∧
        (∀ k o, x = .obj o → Host.IsMade k w → w.heap.Linked o (.obj (w.host k).functionPrototype) →
          exec (instanceOf p x (.obj function)) v = (.ok false, v)) ∧
        ∀ k o, x = .obj o → Host.MadeBy k o w → exec (instanceOf p x (.obj function)) v = (.ok false, v)) := by
  intro function prototype
  have fresh := HasFunction.of_make hosted.reachable made
  obtain ⟨making, -⟩ := (make_execution (T := .all) h config outers u).of_run made
  obtain ⟨bound, host, bindings, -, -, binds⟩ := make_ok made
  obtain ⟨has, roots⟩ := fresh.later execution kept
  obtain ⟨more, grown⟩ := (execution.advances fresh.reachable.sound).shadows p bound
  refine ⟨fun o object inside plain unchanged => ?_, fun v run x => ?_⟩
  · have holds : w.heap.member? o "Function" = some (.obj function) := unchanged.trans (binds o object inside)
    have stands : (w.plugin p).outers = .obj o := by rw [grown, ← object, ← bindings]; rfl
    rw [object] at plain
    exact readOuter_real stands plain (Heap.search_of_owner? (Heap.owner?_of_member? holds) holds)
  · have based : Host.IsMade (w.plugin p).host w := by
      rw [grown]
      exact host.symm ▸ (hosted.later making).later execution
    obtain ⟨later, shown⟩ := has.asked run
    have answer (inside : ∀ o, x = .obj o → o < w.heap.size) := has.exec_instanceOf based later shown inside
    have instances (inside : ∀ o, x = .obj o → o < w.heap.size) :
        exec (instanceOf p x (.obj function)) v = (.ok true, v) ↔ ∃ o, x = .obj o ∧ prototype ∈ w.heap.ancestors o := by
      have below := has.inheritsFrom_iff based x
      rw [roots] at answer below
      rw [answer inside, Prod.mk.injEq, and_iff_left rfl, below]
    refine ⟨fun plain => ?_, fun callable => ?_⟩
    · rw [typeOf_eq_function_iff plain, roots]
      refine ⟨fun found => (instances ?_).2 found, fun inside => (instances ?_).1⟩
      · rintro o rfl
        rw [Datum.exists_obj_iff] at found
        exact Heap.lt_size_of_mem_ancestors found
      · rintro o rfl
        exact Datum.below_obj.1 inside
    · have inside (o : ObjId) (object : x = .obj o) : o < w.heap.size := by
        rw [object, isCallable_obj] at callable
        obtain ⟨fn, found⟩ := Option.isSome_iff_exists.1 callable
        exact Heap.lt_size_of_hostFn? found
      refine ⟨typeOf_of_callable callable, instances inside, ?_⟩
      rw [show function = (w.plugin p).roots.function from congrArg Roots.function roots.symm, answer inside]
      refine ⟨fun plain => ?_, ?_, ?_⟩
      · rw [has.inheritsFrom_plain based plain]
      · rintro k o rfl isMade linked
        rw [has.inheritsFrom_linked isMade linked]
      · rintro k o rfl madeBy
        obtain ⟨isMade, linked⟩ := madeBy.linked
        rw [has.inheritsFrom_linked isMade linked]

/-- A host and an object of it: what a plugin can be made over. -/
theorem hosted_beginning : Host.IsMade 0 (World.after [.makeHost, .newObject (.obj 1) []]) := by
  have host : exec Host.make World.initial = (.ok 0, World.after [.makeHost]) :=
    Prod.ext (by rw [Host.exec_make]; rfl) rfl
  refine ⟨_, _, .refl, host, ?_⟩
  exact World.after_concat [.makeHost] (.newObject (.obj 1) []) ▸ .single (.effect _)

/-- A plugin that was just made, and the plain function that it made for its function prototype: the tag says that it
is a function, and it is no instance. -/
theorem plain_function_no_instance : ∃ u w, Host.IsMade 0 u ∧ exec (make 0 {} (.obj 11)) u = (.ok 0, w) ∧
    w.isCallable (.obj 11) = false ∧ typeOf w 0 (.fn 0) = .ok .function ∧
    (exec (readOuter 0 (.str "Function")) w).1 = .ok (.obj 14) ∧
    (exec (instanceOf 0 (.fn 0) (.obj 14)) (exec (readOuter 0 (.str "Function")) w).2).1 = .ok false := by
  let u := World.after [.makeHost, .newObject (.obj 1) []]
  let w := (exec (make 0 {} (.obj 11)) u).2
  have facts : (exec (make 0 {} (.obj 11)) u).1.toOption = some 0 ∧ w.isCallable (.obj 11) = false ∧
      (exec (readOuter 0 (.str "Function")) w).1.toOption = some (.obj 14) ∧
      (exec (instanceOf 0 (.fn 0) (.obj 14)) (exec (readOuter 0 (.str "Function")) w).2).1.toOption = some false := by
    decide +kernel
  have hosted : Host.IsMade 0 u := hosted_beginning
  have ended : (exec (make 0 {} (.obj 11)) u).2 = w := rfl
  clear_value w u
  obtain ⟨made, plain, given, none⟩ := facts
  exact ⟨u, w, hosted, Prod.ext (eq_ok_of_toOption made) ended, plain, typeOf_of_callable rfl,
    eq_ok_of_toOption given, eq_ok_of_toOption none⟩

/-- After two constructors were defined: the emulated function constructor is an instance of itself, and the plain
function and the first constructor are none. -/
theorem function_tag_and_instance_family : ∃ u u' w, Host.IsMade 0 u ∧ exec (make 0 {} (.obj 11)) u = (.ok 0, u') ∧
    Execution u' w ∧ w.heap.member? 14 "prototype" = u'.heap.member? 14 "prototype" ∧
    exec (readOuter 0 (.str "Function")) w = (.ok (.obj 14), w) ∧ Host.MadeBy 0 17 w ∧
    typeOf w 0 (.obj 14) = .ok .function ∧ exec (instanceOf 0 (.obj 14) (.obj 14)) w = (.ok true, w) ∧
    typeOf w 0 (.obj 17) = .ok .function ∧ exec (instanceOf 0 (.obj 17) (.obj 14)) w = (.ok false, w) ∧
    typeOf w 0 (.fn 0) = .ok .function ∧ exec (instanceOf 0 (.fn 0) (.obj 14)) w = (.ok false, w) := by
  let u := World.after [.makeHost, .newObject (.obj 1) []]
  let u' := World.after [.makeHost, .newObject (.obj 1) [], .makePlugin 0 {} (.obj 11)]
  let w := World.after Effect.family
  let base : Effect := .defineConstructor 0 { name := .str "Base" } .null .null [] []
  let sub : Effect := .defineConstructor 0 { name := .str "Sub" } .null (.obj 17) [] []
  have facts : (exec (make 0 {} (.obj 11)) u).1.toOption = some 0 ∧ 11 < u.heap.size ∧
      (u'.plugin 0).roots.function = 14 ∧ w.heap.member? 14 "prototype" = u'.heap.member? 14 "prototype" ∧
      w.heap.member? 11 "Function" = u'.heap.member? 11 "Function" ∧ w.isCallable (.obj 11) = false ∧
      w.isCallable (.obj 14) = false ∧ w.isCallable (.obj 17) = true ∧ (typeOf w 0 (.obj 14)).toOption = some .function ∧
      (exec (Host.defineConstructor 0 { name := .str "Base" } .null .null [] []) u').1.toOption = some 17 := by
    decide +kernel
  have made : u' = (exec (make 0 {} (.obj 11)) u).2 := World.after_concat [.makeHost, .newObject (.obj 1) []] _
  have after : w = sub.after (base.after u') := by
    rw [← World.after_concat, ← World.after_concat]
    rfl
  have hosted : Host.IsMade 0 u := hosted_beginning
  clear_value w u' u
  obtain ⟨answer, inside, function, kept, bound, plain, noCallable, callable, tag, defined⟩ := facts
  have ran : exec (make 0 {} (.obj 11)) u = (.ok 0, u') := Prod.ext (eq_ok_of_toOption answer) made.symm
  have execution : Execution u' w := after ▸ Relation.ReflTransGen.tail (.single (.effect base)) (.effect sub)
  obtain ⟨making, -⟩ := (make_execution (T := .all) 0 {} (.obj 11) u).of_run ran
  have first : Host.MadeBy 0 17 (base.after u') :=
    .constructor (hosted.later making) { name := .str "Base" } .null .null [] []
      (Prod.ext (eq_ok_of_toOption defined) rfl)
  have madeBy : Host.MadeBy 0 17 w := after ▸ first.later (.single (.effect sub))
  obtain ⟨gives, agrees⟩ := function_tag_and_instance hosted ran execution (by rw [function]; exact kept)
  have given := gives 11 rfl inside plain bound
  rw [function] at given agrees
  have self := ((agrees w given (.obj 14)).1 noCallable).1 (eq_ok_of_toOption tag)
  obtain ⟨tag₁, -, -, -, ctor⟩ := (agrees w given (.obj 17)).2 callable
  obtain ⟨tag₂, -, fn, -, -⟩ := (agrees w given (.fn 0)).2 rfl
  exact ⟨u, u', w, hosted, ran, execution, kept, given, madeBy, eq_ok_of_toOption tag, self, tag₁, ctor 0 17 rfl madeBy,
    tag₂, fn (by rintro o ⟨⟩)⟩

end Plugin

end Overlay
