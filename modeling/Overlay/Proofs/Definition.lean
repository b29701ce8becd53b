import Overlay.Proofs.Growth

/-!
# What definitions leave

A new host function stands at the end of the heap and has drawn the next number. A defined function stands
there with its prototype, both frozen; a defined constructor is `Sealed` in the same way, after its methods
and statics were put. Whatever else a definition makes on the way is frozen as well when it ends.
-/

namespace Overlay
set_option autoImplicit false

namespace Heap

/-- The object is a host function whose prototype is an object, and both are frozen. -/
def Sealed (h : Heap) (f : ObjId) : Prop :=
  (h.get f).bag.frozen = true ∧
    ∃ fn p, h.hostFn? f = some fn ∧ fn.prototype = .obj p ∧ (h.get p).bag.frozen = true

/-- All objects from a position on are frozen. -/
def FrozenFrom (h : Heap) (m : Nat) : Prop :=
  ∀ o, m ≤ o → o < h.size → (h.get o).bag.frozen = true

theorem FrozenFrom.more {h k : Heap} {m : Nat} (frozen : h.FrozenFrom m) (changes : h.Changes k)
    (new : k.FrozenFrom h.size) : k.FrozenFrom m := by
  intro o above inside
  rcases Nat.lt_or_ge o h.size with old | late
  · exact changes.frozen (frozen o above old)
  · exact new o late inside

theorem frozenFrom_of_size_le {h : Heap} {m : Nat} (size : h.size ≤ m) : h.FrozenFrom m :=
  fun _ above inside => absurd inside (Nat.not_lt.2 (Nat.le_trans size above))

end Heap

open Act World

namespace Act
variable {n : Nat} {w : World}

@[simp] theorem exec_drawCategory (w : World) :
    exec drawCategory w = (.ok w.nextCategory, { w with nextCategory := w.nextCategory + 1 }) := rfl

/-- A put on the object that was made last replaces that object's bag. -/
theorem putProperty_last_leaves {h : Heap} {x : Obj} (name value : Value) (enumerable : Bool)
    (last : w.heap = h.push x) (room : n ≤ h.size) :
    Leaves (.growth n) (putProperty h.size name value enumerable) w fun _ v =>
      ∃ k, Name.of? name = some k ∧
        v = { w with heap := h.push { x with bag := x.bag.put k value enumerable } } := by
  refine (putProperty_leaves h.size name value enumerable room).conseq fun _ v _ => ?_
  rintro ⟨k, spelled, -, rfl⟩
  refine ⟨k, spelled, ?_⟩
  rw [last, Heap.get_push_new, Heap.setBag_push_last]

theorem putProperty_size_leaves (o : ObjId) (name value : Value) (enumerable : Bool) (above : n ≤ o) :
    Leaves (.growth n) (putProperty o name value enumerable) w fun _ v => v.heap.size = w.heap.size := by
  refine (putProperty_leaves o name value enumerable above).conseq fun _ v _ => ?_
  rintro ⟨k, -, -, rfl⟩
  exact Heap.size_setBag _ _ _

/-- Freezing an object of the heap makes it frozen. -/
theorem freeze_frozen_leaves {o : ObjId} (above : n ≤ o) (inside : o < w.heap.size) :
    Leaves (.growth n) (freeze o) w fun _ v => (v.heap.get o).bag.frozen = true ∧ v.heap.size = w.heap.size := by
  refine (freeze_leaves o above).conseq fun _ v _ hv => ?_
  subst hv
  refine ⟨?_, Heap.size_setBag _ _ _⟩
  rw [Heap.get_setBag_same _ inside]
  rfl

end Act

namespace Host
variable {n : Nat} {w : World}

/-- A new host function is the last object; it has drawn the next number and is open. -/
theorem newFunction_leaves (impl : Impl) (s : Signature) (proto prototype : Value) (room : n ≤ w.heap.size) :
    Leaves (.growth n) (newFunction impl s proto prototype) w fun f v =>
      f = w.heap.size ∧ ∃ bag arity source, bag.frozen = false ∧
        v = { w with
          heap := w.heap.push ⟨proto, bag, some ⟨impl, w.nextCategory, prototype, arity, source⟩⟩
          nextCategory := w.nextCategory + 1 } := by
  let drawn : World := { w with nextCategory := w.nextCategory + 1 }
  have draws : Grows n w drawn :=
    ⟨.refl _, fun _ _ => rfl, List.prefix_rfl, rfl, rfl,
      fun numbers => numbers.of_same (fun _ => rfl) (Nat.le_succ _)⟩
  cases sourced : s.sourceIn drawn with
  | error e =>
    have run : exec (newFunction impl s proto prototype) w = (.error e, drawn) := by
      rw [newFunction, exec_bind_ok (exec_drawCategory w), exec_get_bind, sourced]
      rfl
    exact .of_error run draws (sourceIn_noReport drawn s e sourced)
  | ok source =>
    let arity := if s.arity.isNull then .int (implArity drawn impl) else s.arity
    let x : Obj := { proto := proto, host := some ⟨impl, w.nextCategory, prototype, arity, source⟩ }
    let made : World := { w with heap := w.heap.push x, nextCategory := w.nextCategory + 1 }
    -- the number is new only together with the object that takes it, so both steps are one
    have makes : Grows n w made :=
      ⟨.single (.make proto [] x.host), fun o below => Heap.get_push_old _ (Nat.lt_of_lt_of_le below room),
        List.prefix_rfl, rfl, rfl, fun numbers => numbers.push fun f same => by cases same; rfl⟩
    have run : exec (newFunction impl s proto prototype) w = exec (do
        Act.putHidden w.heap.size (.str "name") s.name
        Act.putHidden w.heap.size (.str "length") arity
        return w.heap.size) made := by
      rw [newFunction, exec_bind_ok (exec_drawCategory w), exec_get_bind, sourced]
      rfl
    refine .of_exec run makes ?_
    refine .bind (putProperty_last_leaves (.str "name") s.name false rfl room) ?_
    rintro - v - ⟨k, -, rfl⟩
    refine .bind (putProperty_last_leaves (.str "length") arity false rfl room) ?_
    rintro - v - ⟨l, -, rfl⟩
    exact .pure ⟨rfl, _, arity, source, rfl, rfl⟩

/-- A function is sealed by freezing its prototype and then itself; if all others from a position on are frozen,
then all are. -/
theorem seal_leaves {f p : ObjId} {fn : HostFn} {m : Nat} (found : w.heap.hostFn? f = some fn)
    (link : fn.prototype = .obj p) (inside : p < w.heap.size) (above : n ≤ f) (above' : n ≤ p)
    (others : ∀ o, m ≤ o → o < w.heap.size → o ≠ p → o ≠ f → (w.heap.get o).bag.frozen = true) :
    Leaves (.growth n) (do Act.freeze p; Act.freeze f; return f) w fun g v =>
      g = f ∧ v.heap.Sealed f ∧ v.heap.FrozenFrom m := by
  refine .bind (freeze_frozen_leaves above' inside) fun _ v near ⟨frozen, size⟩ => ?_
  have found' := near.trail.hostFn? found
  refine .bind (freeze_frozen_leaves above (Heap.lt_size_of_hostFn? found')) fun _ u far ⟨frozen', size'⟩ => ?_
  refine .pure ⟨rfl, ⟨frozen', fn, p, far.trail.hostFn? found', link, far.trail.frozen frozen⟩, fun o late here => ?_⟩
  rw [size', size] at here
  by_cases prototype : o = p
  · exact prototype ▸ far.trail.frozen frozen
  by_cases function : o = f
  · exact function ▸ frozen'
  · exact far.trail.frozen (near.trail.frozen (others o late here prototype function))

/-- A defined function is sealed when it is there. -/
theorem define_leaves (op fp : ObjId) (impl : Impl) (s : Signature) (room : n ≤ w.heap.size) :
    Leaves (.growth n) (define op fp impl s) w fun f v =>
      n ≤ f ∧ v.heap.Sealed f ∧ v.heap.FrozenFrom w.heap.size := by
  refine .bind (begetFrom_leaves _ room) ?_
  rintro - v - ⟨rfl, rfl⟩
  let h := w.heap.push { proto := .obj op }
  have size : h.size = w.heap.size + 1 := Array.size_push _
  have room' : n ≤ h.size := by omega
  refine .bind (newFunction_leaves impl s (.obj fp) (.obj w.heap.size) room') ?_
  rintro - v - ⟨rfl, bag, arity, source, -, rfl⟩
  have found : Heap.hostFn? (h.push ⟨.obj fp, bag, some ⟨impl, w.nextCategory, .obj w.heap.size, arity, source⟩⟩)
      h.size = some ⟨impl, w.nextCategory, .obj w.heap.size, arity, source⟩ := by
    rw [Heap.hostFn?, Heap.get_push_new]
  refine .bind (putProperty_size_leaves w.heap.size _ _ false room) fun _ v far same => ?_
  have size' : v.heap.size = w.heap.size + 2 := by
    rw [same]
    simp only [Array.size_push]
  have inside : w.heap.size < v.heap.size := by omega
  refine (seal_leaves (far.trail.hostFn? found) rfl inside room' room fun o late here prototype function => ?_).conseq
    fun f u _ post => post.1 ▸ ⟨room', post.2⟩
  -- two objects were made, and they are the ones that are sealed
  have above : w.heap.size < o := Nat.lt_of_le_of_ne late (Ne.symm prototype)
  have above' : h.size < o := Nat.lt_of_le_of_ne (by omega) (Ne.symm function)
  omega

theorem defineFunction_leaves (h : HostId) (impl : Impl) (s : Signature) (room : n ≤ w.heap.size) :
    Leaves (.growth n) (defineFunction h impl s) w fun f v =>
      n ≤ f ∧ v.heap.Sealed f ∧ v.heap.FrozenFrom w.heap.size :=
  .bind_get (define_leaves _ _ impl s room)

/-- What is made for methods is frozen, each as it is made. -/
theorem defineMethods_leaves (h : HostId) {p : ObjId} {m : Nat} (methods : List (Name × Value))
    (room : n ≤ w.heap.size) (above : n ≤ p) (frozen : w.heap.FrozenFrom m) :
    Leaves (.growth n) (defineMethods h p methods) w fun _ v => v.heap.FrozenFrom m := by
  refine .forM (I := fun v => v.heap.FrozenFrom m) frozen fun method _ v far frozen => ?_
  refine .bind (defineFunction_leaves h _ _ (Nat.le_trans room far.size_le)) fun f u near ⟨_, _, new⟩ => ?_
  have frozen' := frozen.more near.trail new
  exact (putProperty_size_leaves p _ _ false above).conseq fun _ t last size =>
    frozen'.more last.trail (Heap.frozenFrom_of_size_le (Nat.le_of_eq size))

/-- A defined constructor is sealed when it is there. -/
theorem defineConstructor_leaves (h : HostId) (s : Signature) (init parent : Value)
    (methods statics : List (Name × Value)) (room : n ≤ w.heap.size) :
    Leaves (.growth n) (defineConstructor h s init parent methods statics) w fun f v =>
      n ≤ f ∧ v.heap.Sealed f ∧ v.heap.FrozenFrom w.heap.size := by
  refine .bind_get (.bind_lift (parentPrototype_noReport w h parent) fun link _ => ?_)
  refine .bind (begetFrom_leaves link room) ?_
  rintro - v - ⟨rfl, rfl⟩
  let k := w.heap.push { proto := link }
  have size : k.size = w.heap.size + 1 := Array.size_push _
  have room' : n ≤ k.size := by omega
  refine .bind (newFunction_leaves (initialiser w init) s (.obj (w.host h).functionPrototype) (.obj w.heap.size)
    room') ?_
  rintro - made - ⟨rfl, bag, arity, source, -, rfl⟩
  let fn : HostFn := ⟨initialiser w init, w.nextCategory, .obj w.heap.size, arity, source⟩
  have found : Heap.hostFn? (k.push ⟨.obj (w.host h).functionPrototype, bag, some fn⟩) k.size = some fn := by
    rw [Heap.hostFn?, Heap.get_push_new]
  -- from here on the heap only changes, so the function stays what it was made
  refine .bind (putProperty_size_leaves w.heap.size _ _ false room) fun _ v₁ near size₁ => ?_
  have size₁ : v₁.heap.size = w.heap.size + 2 := by
    rw [size₁]
    simp only [Array.size_push]
  have frozen₁ : v₁.heap.FrozenFrom (w.heap.size + 2) := Heap.frozenFrom_of_size_le (Nat.le_of_eq size₁)
  refine .bind (defineMethods_leaves h methods (by omega) room frozen₁) fun _ v₂ near₂ frozen₂ => ?_
  refine .bind (.forM (I := fun v => v.heap.FrozenFrom (w.heap.size + 2)) frozen₂ fun m _ v _ frozen => ?_)
    fun _ v₃ near₃ frozen₃ => ?_
  · exact (putProperty_size_leaves k.size _ _ true room').conseq fun _ t last same =>
      frozen.more last.trail (Heap.frozenFrom_of_size_le (Nat.le_of_eq same))
  have far := (near.trans near₂).trans near₃
  have inside : w.heap.size < v₃.heap.size := by
    have grown := far.size_le
    simp only [Array.size_push] at grown
    omega
  refine (seal_leaves (far.trail.hostFn? found) rfl inside room' room fun o late here prototype function => ?_).conseq
    fun f u _ post => post.1 ▸ ⟨room', post.2⟩
  have above : w.heap.size < o := Nat.lt_of_le_of_ne late (Ne.symm prototype)
  have above' : k.size < o := Nat.lt_of_le_of_ne (by omega) (Ne.symm function)
  exact frozen₃ o (by omega) here

end Host

end Overlay
