import Overlay.Proofs.Definition
import Overlay.Proofs.Emulated

/-!
# Actions that run to the end

The equations of this module run an action from a world in which nothing stops it. The basic actions on open
objects never stop when the name is one; an emulated function can be made of any function under a name that has a
text, and then two objects are made.
-/

namespace Overlay
set_option autoImplicit false

open Act World

/-- The name that a text is. -/
def Name.ofText (s : Text) : Name :=
  ⟨.text s, .str s, rfl⟩

@[simp] theorem Name.of?_str (s : Text) : Name.of? (.str s) = some (Name.ofText s) := rfl

@[simp] theorem Name.key_ofText (s : Text) : (Name.ofText s).key = s := rfl

@[simp] theorem Name.of?_value (n : Name) : Name.of? n.value = some n := by
  unfold Name.of?
  split
  · rename_i k found
    have same : k = n.key := Option.some.inj (found.symm.trans n.key_eq)
    subst same
    rfl
  · rename_i none
    rw [n.key_eq] at none
    cases none

/-- The value has a text inside a sentence, whatever the world. -/
def Writable (v : Value) : Prop :=
  ∀ w : World, ∃ t, w.bare v = .ok t

theorem writable_str (s : Text) : Writable (.str s) :=
  fun _ => ⟨s, rfl⟩

namespace Heap

theorem get_push (h : Heap) (x : Obj) (o : ObjId) : get (h.push x) o = if o = h.size then x else h.get o := by
  simp only [get, Array.getElem?_push]
  split <;> rfl

theorem setBag_push_old {h : Heap} {o : ObjId} (x : Obj) (b : Bag) (old : o < h.size) :
    setBag (h.push x) o b = (h.setBag o b).push x := by
  apply Array.ext_getElem?
  intro i
  simp only [setBag, Array.getElem?_modify, Array.getElem?_push, Array.size_modify]
  split <;> split <;> simp_all

@[simp] theorem setBag_self (h : Heap) (o : ObjId) : h.setBag o (h.get o).bag = h := by
  apply Array.ext_getElem?
  intro i
  simp only [setBag, get, Array.getElem?_modify]
  split
  · rename_i same
    subst same
    cases h[o]? <;> rfl
  · rfl

@[simp] theorem setBag_setBag (h : Heap) (o : ObjId) (b c : Bag) : (h.setBag o b).setBag o c = h.setBag o c := by
  apply Array.ext_getElem?
  intro i
  simp only [setBag, Array.getElem?_modify]
  split
  · cases h[i]? <;> rfl
  · rfl

/-- An open object at the end of the heap changes nothing about which objects are frozen. -/
theorem frozen_push (h : Heap) {x : Obj} (is_open : x.bag.frozen = false) (o : ObjId) :
    (get (h.push x) o).bag.frozen = (h.get o).bag.frozen := by
  rw [get_push]
  split
  · rename_i last
    rw [last, get_of_size_le (Nat.le_refl _), is_open]
  · rfl

/-- Another bag that is frozen if and only if the old one was changes nothing about which objects are frozen. -/
theorem frozen_setBag (h : Heap) {o : ObjId} {b : Bag} (same : b.frozen = (h.get o).bag.frozen) (p : ObjId) :
    ((h.setBag o b).get p).bag.frozen = (h.get p).bag.frozen := by
  by_cases other : p = o
  · subst other
    by_cases inside : p < h.size
    · rw [get_setBag_same b inside]
      exact same
    · have out := Nat.le_of_not_lt inside
      rw [get_of_size_le (by rw [size_setBag]; exact out), get_of_size_le out]
  · rw [get_setBag_other h b other]

end Heap

namespace World

/-- So many open objects and some functions were made, and nothing was frozen; lines are written to the log if
they were before. -/
structure Adds (k : Nat) (w v : World) : Prop where
  size : v.heap.size = w.heap.size + k
  frozen : ∀ o, (v.heap.get o).bag.frozen = (w.heap.get o).bag.frozen
  fns : w.fns.toList <+: v.fns.toList
  logging : v.logging = w.logging

theorem Adds.refl (w : World) : Adds 0 w w :=
  ⟨rfl, fun _ => rfl, List.prefix_rfl, rfl⟩

theorem Adds.trans {j k : Nat} {u v w : World} (near : Adds j u v) (far : Adds k v w) : Adds (j + k) u w := by
  refine ⟨?_, fun o => (far.frozen o).trans (near.frozen o), near.fns.trans far.fns,
    far.logging.trans near.logging⟩
  rw [far.size, near.size, Nat.add_assoc]

theorem Adds.is_open {k : Nat} {w v : World} {o : ObjId} (adds : Adds k w v)
    (is_open : (w.heap.get o).bag.frozen = false) : (v.heap.get o).bag.frozen = false :=
  (adds.frozen o).trans is_open

end World

namespace Act
variable {α : Type} {w : World}

/-- What holds of an action that may stop holds where it ran to the end. -/
theorem Leaves.of_run {L : Regime} {x : Act α} {P : α → World → Prop} {a : α} {v : World} (h : Leaves L x w P)
    (run : exec x w = (.ok a, v)) : L.step w v ∧ P a v := by
  have world := h.world
  have value := h.value a (by rw [run])
  rw [run] at world value
  exact ⟨world, value⟩

/-- What ends a sequence without a fault ends both of its parts without one. -/
theorem exists_of_exec_bind {β : Type} {x : Act α} {f : α → Act β} {v : World} {b : β}
    (run : exec (x >>= f) w = (.ok b, v)) : ∃ a u, exec x w = (.ok a, u) ∧ exec (f a) u = (.ok b, v) := by
  rcases first : exec x w with ⟨_ | a, u⟩
  · rw [exec_bind_error first] at run
    cases run
  · rw [exec_bind_ok first] at run
    exact ⟨a, u, rfl, run⟩

/-- What a question lets end has an answer. -/
theorem exists_of_exec_lift_bind {β : Type} {q : Except Fault α} {f : α → Act β} {v : World} {b : β}
    (run : exec (liftM q >>= f) w = (.ok b, v)) : ∃ a, q = .ok a ∧ exec (f a) w = (.ok b, v) := by
  obtain ⟨a, u, answer, rest⟩ := exists_of_exec_bind run
  rw [exec_lift] at answer
  obtain ⟨rfl, rfl⟩ := Prod.mk.inj answer
  exact ⟨a, rfl, rest⟩

/-! ## The basic actions -/

theorem exec_begetFrom (proto : Value) :
    exec (begetFrom proto) w = (.ok w.heap.size, { w with heap := w.heap.push { proto := proto } }) := rfl

theorem exec_newFn (f : Fn) :
    exec (newFn f) w = (.ok (.fn w.fns.size), { w with fns := w.fns.push f }) := rfl

theorem exec_freeze (o : ObjId) :
    exec (freeze o) w = (.ok (), { w with heap := w.heap.setBag o (w.heap.get o).bag.freeze }) := rfl

theorem exec_putProperty {o : ObjId} {name : Value} {k : Name} (x : Value) (e : Bool)
    (is_open : (w.heap.get o).bag.frozen = false) (named : Name.of? name = some k) :
    exec (putProperty o name x e) w =
      (.ok (), { w with heap := w.heap.setBag o ((w.heap.get o).bag.put k x e) }) := by
  rw [putProperty, exec_get_bind]
  simp only [is_open, Bool.false_eq_true, if_false, Name.ofValue, named]
  rfl

theorem exec_eraseProperty {o : ObjId} {name : Value} {k : Name} (is_open : (w.heap.get o).bag.frozen = false)
    (named : Name.of? name = some k) : exec (eraseProperty o name) w =
      (.ok ((w.heap.get o).bag.owns k.key), { w with heap := w.heap.setBag o ((w.heap.get o).bag.erase k.key) }) := by
  rw [eraseProperty, exec_get_bind]
  simp only [is_open, Bool.false_eq_true, if_false, Name.ofValue, named]
  rfl

theorem begetFrom_adds (proto : Value) : ∃ v, exec (begetFrom proto) w = (.ok w.heap.size, v) ∧ Adds 1 w v :=
  ⟨_, exec_begetFrom proto, Array.size_push _, Heap.frozen_push _ rfl, List.prefix_rfl, rfl⟩

theorem newFn_adds (f : Fn) : ∃ v, exec (newFn f) w = (.ok (.fn w.fns.size), v) ∧ Adds 0 w v := by
  refine ⟨_, exec_newFn f, rfl, fun _ => rfl, ?_, rfl⟩
  rw [Array.toList_push]
  exact List.prefix_append _ _

theorem putHidden_adds {o : ObjId} {s : Text} (x : Value) (is_open : (w.heap.get o).bag.frozen = false) :
    ∃ v, exec (putHidden o (.str s) x) w = (.ok (), v) ∧ Adds 0 w v := by
  let b := (w.heap.get o).bag.put (Name.ofText s) x false
  exact ⟨_, exec_putProperty x false is_open (Name.of?_str s), Heap.size_setBag _ _ _,
    Heap.frozen_setBag w.heap (b := b) rfl, List.prefix_rfl, rfl⟩

/-- A line that can be made is written if lines are written at all. -/
theorem say_adds (line : World → Except Fault LogLine) (able : w.logging = true → ∃ l, line w = .ok l) :
    ∃ v, exec (say line) w = (.ok (), v) ∧ Adds 0 w v ∧ Aside w v := by
  rw [say, exec_get_bind]
  by_cases logs : w.logging = true
  · obtain ⟨l, made⟩ := able logs
    refine ⟨{ w with log := w.log.push l }, ?_, ⟨rfl, fun _ => rfl, List.prefix_rfl, rfl⟩, ⟨rfl, rfl, rfl, rfl, rfl⟩⟩
    rw [if_pos logs, made]
    rfl
  · exact ⟨w, by rw [if_neg logs]; rfl, .refl w, .refl w⟩

end Act

namespace Emulation
variable {w : World}

/-- A header can be rendered for a function that has a text as its source. -/
theorem renderHeader_adds (config : Config) {g : FnId} {source : Text} {name : Value}
    (text : Host.source w (.fn g) = .str source) (writable : Writable name) :
    ∃ r v, exec (renderHeader config (.fn g) name) w = (.ok r, v) ∧ Adds 0 w v := by
  have reads : exec (Host.sourceText (.fn g)) w = (.ok (.str source), w) := by
    rw [Host.sourceText, exec_get_bind, text]
    rfl
  obtain ⟨u, said, adds⟩ : ∃ u, exec (if (Header.findIn? config.receiver (some source)).isNone
      then Act.say fun _ => .ok .noHeader else pure ()) w = (.ok (), u) ∧ Adds 0 w u := by
    split
    · obtain ⟨u, said, adds, -⟩ := say_adds (w := w) (fun _ => .ok .noHeader) fun _ => ⟨_, rfl⟩
      exact ⟨u, said, adds⟩
    · exact ⟨w, rfl, .refl w⟩
  obtain ⟨shown, written⟩ := writable w
  obtain ⟨r, rendered⟩ : ∃ r, Header.renderAs w.isTruthy w.bare config.receiver config.redactedBody (some source)
      name = .ok r := by
    rw [Header.renderAs]
    split
    · exact ⟨_, rfl⟩
    · dsimp only
      split
      · rw [written]
        exact ⟨_, rfl⟩
      · exact ⟨_, rfl⟩
  refine ⟨r, u, ?_, adds⟩
  rw [renderHeader, exec_get_bind, exec_bind_ok reads]
  have asked : Header.sourceOf w.isTruthy (Datum.str source : Value) = .ok (some source) := rfl
  rw [asked, exec_lift_ok_bind]
  have split_ite (x : Act (Header.Rendering Value)) : exec (do
      if (Header.findIn? config.receiver (some source)).isNone then Act.say fun _ => .ok .noHeader
      x) w = exec x u := by
    have whole := exec_bind_ok (f := fun _ => x) said
    rw [← whole]
    split <;> rfl
  rw [split_ite, rendered]
  rfl

/-- An emulated function can be made of any function with a source text, under a name that has a text. -/
theorem emulate_adds (roots : Roots) (config : Config) {g : FnId} {code : Fn} {source : Text} {name : Value}
    (found : w.fns[g]? = some code) (text : code.source = .str source) (writable : Writable name) :
    ∃ v, exec (emulate roots config (.fn g) name) w = (.ok w.heap.size, v) ∧ Adds 2 w v := by
  let o := w.heap.size
  have still_open {k : Nat} {v : World} (adds : Adds k w v) : (v.heap.get o).bag.frozen = false := by
    rw [adds.frozen, Heap.get_of_size_le (Nat.le_refl _)]
  obtain ⟨v₁, run₁, adds₁⟩ := begetFrom_adds (w := w) (.obj roots.functionPrototype)
  obtain ⟨v₂, run₂, step⟩ := putHidden_adds (s := "call") (.fn g) (still_open adds₁)
  have adds₂ := adds₁.trans step
  obtain ⟨v₃, run₃, step⟩ := newFn_adds (w := v₂) (.applier (.fn g))
  have adds₃ := adds₂.trans step
  obtain ⟨v₄, run₄, step⟩ := putHidden_adds (s := "apply") (.fn v₂.fns.size) (still_open adds₃)
  have adds₄ := adds₃.trans step
  obtain ⟨v₅, run₅, step⟩ := newFn_adds (w := v₄) (.binder (.fn g))
  have adds₅ := adds₄.trans step
  obtain ⟨v₆, run₆, step⟩ := putHidden_adds (s := "bind") (.fn v₄.fns.size) (still_open adds₅)
  have adds₆ := adds₅.trans step
  obtain ⟨v₇, run₇, step⟩ := begetFrom_adds (w := v₆) (.obj roots.objectPrototype)
  have adds₇ := adds₆.trans step
  have open₇ : (v₇.heap.get v₆.heap.size).bag.frozen = false := by
    rw [step.frozen, Heap.get_of_size_le (Nat.le_refl _)]
  obtain ⟨v₈, run₈, step⟩ := putHidden_adds (s := "constructor") (.obj o) open₇
  have adds₈ := adds₇.trans step
  obtain ⟨v₉, run₉, step⟩ := putHidden_adds (s := "prototype") (.obj v₆.heap.size) (still_open adds₈)
  have adds₉ := adds₈.trans step
  have still_code {k : Nat} {v : World} (adds : Adds k w v) : v.fns[g]? = some code :=
    getElem?_of_longer adds.fns found
  have arity : Host.arity v₉ (.fn g) = .int code.required := by
    show Datum.int (Host.required v₉ (.fn g)) = _
    rw [Host.required, still_code adds₉]
    rfl
  obtain ⟨v₁₀, run₁₀, step⟩ := putHidden_adds (s := "length") (.int (max ((code.required : Int) - 1) 0))
    (still_open adds₉)
  have adds₁₀ := adds₉.trans step
  have shown : Host.source v₁₀ (.fn g) = .str source := by
    show (v₁₀.fns[g]?.getD default).source = _
    rw [still_code adds₁₀]
    exact text
  obtain ⟨r, v₁₁, run₁₁, step⟩ := renderHeader_adds config shown writable
  have adds₁₁ := adds₁₀.trans step
  obtain ⟨v₁₂, run₁₂, step⟩ := newFn_adds (w := v₁₁) (.printer r.text)
  have adds₁₂ := adds₁₁.trans step
  obtain ⟨v₁₃, run₁₃, step⟩ := putHidden_adds (s := "toString") (.fn v₁₁.fns.size) (still_open adds₁₂)
  have adds₁₃ := adds₁₂.trans step
  obtain ⟨v₁₄, run₁₄, step⟩ := putHidden_adds (s := "name") r.name (still_open adds₁₃)
  have callable : exec (enforceCallable (.fn g) "dis() argument") w = (.ok (), w) := exec_enforceCallable _ rfl
  have front : exec (emulate roots config (.fn g) name) w = exec (do
      if v₁₃.isTruthy r.name then Act.putHidden o (.str "name") r.name
      return o) v₁₃ := by
    rw [emulate, exec_bind_ok callable, exec_bind_ok run₁, exec_bind_ok run₂, exec_bind_ok run₃, exec_bind_ok run₄,
      exec_bind_ok run₅, exec_bind_ok run₆, exec_bind_ok run₇, exec_bind_ok run₈, exec_bind_ok run₉, exec_get_bind,
      arity]
    have length : exec (shownLength (.int code.required)) v₉ =
        (.ok (.int (max ((code.required : Int) - 1) 0)), v₉) := rfl
    rw [exec_bind_ok length, exec_bind_ok run₁₀, exec_bind_ok run₁₁, exec_bind_ok run₁₂, exec_bind_ok run₁₃,
      exec_get_bind]
  rw [front]
  split
  · exact ⟨v₁₄, exec_bind_ok run₁₄, adds₁₃.trans step⟩
  · exact ⟨v₁₃, rfl, adds₁₃⟩

/-- A forwarder can be made for any name that has a text. -/
theorem forwarder_adds (h : HostId) (roots : Roots) (config : Config) {name : Value} (writable : Writable name) :
    ∃ v, exec (forwarder h roots config name) w = (.ok w.heap.size, v) ∧ Adds 2 w v := by
  obtain ⟨v, run, adds⟩ := newFn_adds (w := w) (.forward h name)
  have found : v.fns[w.fns.size]? = some (.forward h name) := by
    have made : v = { w with fns := w.fns.push (.forward h name) } := (Prod.mk.inj (run.symm.trans (exec_newFn _))).2
    rw [made]
    exact Array.getElem?_push_size
  have text : (Fn.forward h name).source = .str "def forward(dis: Any, *args: Any) -> Any:" := rfl
  obtain ⟨u, made, step⟩ := emulate_adds roots config found text writable
  have same : v.heap.size = w.heap.size := adds.size
  refine ⟨u, ?_, adds.trans step⟩
  rw [forwarder, exec_bind_ok run, made, same]

end Emulation

end Overlay
