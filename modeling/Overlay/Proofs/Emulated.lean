import Overlay.Proofs.Growth

/-!
# What emulation leaves

An emulated function is no host function, and its `apply` member is a function that applies the raw callable
(`Emulates`). When it is made, its `call` member is the raw callable and its `bind` member a function that binds it
(`Equipped`). A forwarder is the emulated function of a function that looks a name up once more on the receiver
(`Forwards`). The roots of a plugin are four new objects in the order in which they are linked.
-/

namespace Overlay
set_option autoImplicit false

open Act World

theorem Name.key_of? {v : Value} {n : Name} (named : Name.of? v = some n) : Key.of? v = some n.key := by
  unfold Name.of? at named
  split at named
  · rename_i k found
    cases named
    exact found
  · cases named

namespace Emulation
variable {n : Nat} {w v : World} {o : ObjId} {raw : Value}

/-- The object is an emulated function of a raw callable. -/
structure Emulates (w : World) (o : ObjId) (raw : Value) : Prop where
  inside : o < w.heap.size
  plain : w.heap.hostFn? o = none
  applies : ∃ a, w.heap.member? o "apply" = some (.fn a) ∧ w.fns[a]? = some (.applier raw)

/-- The object is an emulated function that looks `name` up on its receiver. -/
def Forwards (w : World) (o : ObjId) (h : HostId) (name : Value) : Prop :=
  ∃ g, Emulates w o (.fn g) ∧ w.fns[g]? = some (.forward h name)

/-- An emulated function stays one as long as its `apply` member does. -/
theorem Emulates.later (h : Emulates w o raw) (trail : w.heap.Changes v.heap) (fns : w.fns.toList <+: v.fns.toList)
    (same : v.heap.member? o "apply" = w.heap.member? o "apply") : Emulates v o raw := by
  obtain ⟨a, member, code⟩ := h.applies
  refine ⟨Nat.lt_of_lt_of_le h.inside trail.sameShape.size, ?_, a, same.trans member, getElem?_of_longer fns code⟩
  rw [Heap.hostFn?, trail.sameShape.host o h.inside]
  exact h.plain

theorem Forwards.later {h : HostId} {name : Value} (forwards : Forwards w o h name) (trail : w.heap.Changes v.heap)
    (fns : w.fns.toList <+: v.fns.toList) (same : v.heap.member? o "apply" = w.heap.member? o "apply") :
    Forwards v o h name := by
  obtain ⟨g, emulates, code⟩ := forwards
  exact ⟨g, emulates.later trail fns same, getElem?_of_longer fns code⟩

theorem Forwards.grow {h : HostId} {name : Value} (forwards : Forwards w o h name) (grown : Grows n w v)
    (same : v.heap.member? o "apply" = w.heap.member? o "apply") : Forwards v o h name :=
  forwards.later grown.trail grown.fns same

theorem Forwards.plain {h : HostId} {name : Value} (forwards : Forwards w o h name) : w.heap.hostFn? o = none := by
  obtain ⟨_, emulates, _⟩ := forwards
  exact emulates.plain

/-- The object is an emulated function with the members that it was made with to be called by. -/
structure Equipped (w : World) (o : ObjId) (raw : Value) : Prop extends Emulates w o raw where
  calls : w.heap.member? o "call" = some raw
  binds : ∃ b, w.heap.member? o "bind" = some (.fn b) ∧ w.fns[b]? = some (.binder raw)

/-- The names of the members that an emulated function is called by. -/
def callNames : List Text :=
  ["call", "apply", "bind"]

theorem Equipped.later (h : Equipped w o raw) (trail : w.heap.Changes v.heap) (fns : w.fns.toList <+: v.fns.toList)
    (same : ∀ s ∈ callNames, v.heap.member? o (.text s) = w.heap.member? o (.text s)) : Equipped v o raw := by
  obtain ⟨b, member, code⟩ := h.binds
  refine ⟨h.toEmulates.later trail fns (same "apply" (by decide)), ?_, b, ?_, getElem?_of_longer fns code⟩
  · exact (same "call" (by decide)).trans h.calls
  · exact (same "bind" (by decide)).trans member

theorem Equipped.grow (h : Equipped w o raw) (grown : Grows n w v)
    (same : ∀ s ∈ callNames, v.heap.member? o (.text s) = w.heap.member? o (.text s)) : Equipped v o raw :=
  h.later grown.trail grown.fns same

/-- A put member is there afterwards, and members of other names are as they were. -/
theorem putHidden_members_leaves {p : ObjId} (s : Text) (x : Value) (above : n ≤ p) :
    Leaves (.growth n) (Act.putHidden p (.str s) x) w fun _ v =>
      (p < w.heap.size → v.heap.member? p (.text s) = some x) ∧ v.fns = w.fns ∧ v.heap.size = w.heap.size ∧
        ∀ q t, t ≠ s → v.heap.member? q (.text t) = w.heap.member? q (.text t) := by
  refine (putProperty_leaves p (.str s) x false above).conseq fun _ v _ => ?_
  rintro ⟨k, spelled, -, rfl⟩
  have key : Key.text s = k.key := Option.some.inj (Name.key_of? spelled)
  refine ⟨fun inside => ?_, rfl, Heap.size_setBag _ _ _, fun q t other => ?_⟩
  · rw [key]
    exact Heap.member?_put_same k _ _ inside
  · have differs : k.key ≠ Key.text t := fun same => other (Key.text.inj (key.trans same)).symm
    exact Heap.member?_put_other _ _ _ (.inl differs)

/-- An emulated function with its members, in a heap of so many objects. -/
def EquippedIn (size : Nat) (w : World) (o : ObjId) (raw : Value) : Prop :=
  Equipped w o raw ∧ w.heap.size = size

/-- Members of other names may be put. -/
theorem EquippedIn.put_leaves {size : Nat} {p : ObjId} {s : Text} {x : Value} (h : EquippedIn size w o raw)
    (above : n ≤ p) (other : s ∉ callNames) :
    Leaves (.growth n) (Act.putHidden p (.str s) x) w fun _ v => EquippedIn size v o raw := by
  refine (putHidden_members_leaves s x above).conseq fun _ v grown post => ?_
  obtain ⟨-, -, same, others⟩ := post
  refine ⟨h.1.grow grown fun t listed => ?_, same.trans h.2⟩
  exact others o t fun equal => other (equal ▸ listed)

theorem EquippedIn.newFn_leaves {size : Nat} (h : EquippedIn size w o raw) (f : Fn) :
    Leaves (.growth n) (Act.newFn f) w fun _ v => EquippedIn size v o raw := by
  refine (Act.newFn_leaves f).conseq fun _ v grown => ?_
  rintro ⟨-, rfl⟩
  exact ⟨h.1.grow grown fun _ _ => rfl, h.2⟩

theorem EquippedIn.aside_leaves {α : Type} {size : Nat} {x : Act α} (h : EquippedIn size w o raw)
    (follows : Follows .aside x) : Leaves (.growth n) x w fun _ v => EquippedIn size v o raw := by
  refine ((follows w).conseq fun _ v aside _ => ?_).growth
  exact ⟨h.1.grow (n := 0) (.of_aside aside) fun _ _ => by rw [aside.heap], by rw [aside.heap, h.2]⟩

theorem shownLength_follows (arity : Value) : Follows .aside (shownLength arity) := by
  unfold shownLength
  split
  · exact .pure _
  · exact .pure _
  · exact .pure _
  · exact newNan_follows
  · exact .stop rfl

theorem sourceText_follows (f : Value) : Follows .aside (Host.sourceText f) := by
  refine .bind_get fun w => ?_
  split
  · exact .bind (say_follows (fun w => .map (World.describe_noReport w f)) w) fun _ _ _ _ => .pure trivial
  · exact .pure trivial

theorem renderHeader_follows (config : Config) (raw name : Value) :
    Follows .aside (renderHeader config raw name) := by
  refine .look fun w => .bind (sourceText_follows raw) fun text => ?_
  refine .bind (.lift (Header.sourceOf_noReport _ text)) fun source => ?_
  dsimp only
  split
  · exact .bind (say_follows fun _ => .ok _) fun _ =>
      .lift (Header.renderAs_noReport (World.bare_noReport w) _ _ _ _)
  · exact .lift (Header.renderAs_noReport (World.bare_noReport w) _ _ _ _)

/-- The emulated function of a callable is new and equipped to be called, and is linked to the patchable prototype of
functions. Two objects are made, itself first; no other object is changed. -/
theorem emulate_equipped_leaves (roots : Roots) (config : Config) (raw name : Value) (room : n ≤ w.heap.size) :
    Leaves (.growth n) (emulate roots config raw name) w fun o v =>
      o = w.heap.size ∧ EquippedIn (w.heap.size + 2) v o raw ∧ v.heap.Linked o (.obj roots.functionPrototype) := by
  refine .bind (enforceCallable_leaves raw _).growth ?_
  rintro - v - ⟨rfl, -⟩
  refine .bind (begetFrom_leaves _ room) ?_
  rintro - v₀ - ⟨rfl, rfl⟩
  let h : Heap := v.heap.push { proto := .obj roots.functionPrototype }
  have here : h.Linked v.heap.size (.obj roots.functionPrototype) := Heap.linked_push _ _
  have plain : h.hostFn? v.heap.size = none := by rw [Heap.hostFn?, Heap.get_push_new]
  suffices rest : Leaves (.growth n) _ { v with heap := h } fun o u =>
      o = v.heap.size ∧ EquippedIn (v.heap.size + 2) u v.heap.size raw from
    rest.conseq fun o u grown post => by
      obtain ⟨rfl, equipped⟩ := post
      exact ⟨rfl, equipped, grown.trail.linked here⟩
  refine .bind (putHidden_members_leaves "call" raw room) fun _ v₁ grown₁ called => ?_
  have size₁ : v₁.heap.size = v.heap.size + 1 := called.2.2.1.trans (Array.size_push _)
  refine .bind (Act.newFn_leaves (.applier raw)) ?_
  rintro - v₂ grown₂ ⟨rfl, rfl⟩
  have inside₁ : v.heap.size < v₁.heap.size := (grown₁.trail.linked here).1
  refine .bind (putHidden_members_leaves "apply" (.fn v₁.fns.size) room) fun _ v₃ grown₃ post => ?_
  obtain ⟨applied, fns₃, size₃, others₃⟩ := post
  refine .bind (Act.newFn_leaves (.binder raw)) ?_
  rintro - v₄ grown₄ ⟨rfl, rfl⟩
  have inside₃ : v.heap.size < v₃.heap.size := Nat.lt_of_lt_of_le inside₁ grown₃.size_le
  refine .bind ((putHidden_members_leaves "bind" (.fn v₃.fns.size) room).conseq
    (S := fun _ u => EquippedIn (v.heap.size + 1) u v.heap.size raw) fun _ u grown₅ post => ?_) fun _ v₅ _ equipped => ?_
  · obtain ⟨bound, fns₅, size₅, others₅⟩ := post
    have grown := ((grown₁.trans grown₂).trans grown₃).trans (grown₄.trans grown₅)
    have applier : v₃.fns[v₁.fns.size]? = some (.applier raw) := by
      rw [fns₃]
      exact Array.getElem?_push_size
    refine ⟨⟨⟨Nat.lt_of_lt_of_le inside₃ grown₅.size_le, ?_, v₁.fns.size, ?_, ?_⟩, ?_, v₃.fns.size, bound inside₃, ?_⟩, ?_⟩
    · rw [Heap.hostFn?, grown.trail.sameShape.host _ here.1]
      exact plain
    · exact (others₅ _ _ (by decide)).trans (applied inside₁)
    · exact (grown₄.trans grown₅).fns_getElem? applier
    · exact ((others₅ _ _ (by decide)).trans (others₃ _ _ (by decide))).trans (called.1 here.1)
    · rw [fns₅]
      exact Array.getElem?_push_size
    · exact size₅.trans (size₃.trans size₁)
  have room₅ : n ≤ v₅.heap.size := Nat.le_trans room (Nat.le_of_lt equipped.1.inside)
  refine .bind ((begetFrom_leaves _ room₅).conseq
    (S := fun p u => n ≤ p ∧ EquippedIn (v.heap.size + 2) u v.heap.size raw) fun p u grown => ?_) fun p v₆ _ post => ?_
  · rintro ⟨rfl, rfl⟩
    refine ⟨room₅, equipped.1.grow grown fun s _ => ?_, ?_⟩
    · rw [Heap.member?, Heap.get_push_old _ equipped.1.inside, Heap.member?]
    · show (v₅.heap.push _).size = _
      rw [Array.size_push, equipped.2]
  obtain ⟨above, equipped⟩ := post
  refine .bind (equipped.put_leaves above (by decide)) fun _ v₇ _ equipped => ?_
  refine .bind (equipped.put_leaves room (by decide)) fun _ v₈ _ equipped => ?_
  refine .bind_get (.bind (equipped.aside_leaves (shownLength_follows _)) fun _ v₉ _ equipped => ?_)
  refine .bind (equipped.put_leaves room (by decide)) fun _ v₁₀ _ equipped => ?_
  refine .bind (equipped.aside_leaves (renderHeader_follows config raw name)) fun r v₁₁ _ equipped => ?_
  refine .bind (equipped.newFn_leaves _) fun _ v₁₂ _ equipped => ?_
  refine .bind (equipped.put_leaves room (by decide)) fun _ v₁₃ _ equipped => ?_
  refine .bind_get ?_
  dsimp only
  split
  · refine .bind (equipped.put_leaves room (by decide)) fun _ v₁₄ _ equipped => ?_
    exact .pure ⟨rfl, equipped⟩
  · exact .pure ⟨rfl, equipped⟩

theorem emulate_leaves (roots : Roots) (config : Config) (raw name : Value) (room : n ≤ w.heap.size) :
    Leaves (.growth n) (emulate roots config raw name) w fun o v =>
      w.heap.size ≤ o ∧ Emulates v o raw ∧ v.heap.Linked o (.obj roots.functionPrototype) :=
  (emulate_equipped_leaves roots config raw name room).conseq fun _ _ _ made =>
    ⟨Nat.le_of_eq made.1.symm, made.2.1.1.toEmulates, made.2.2⟩

/-- A forwarder is made of two objects, itself first, and is linked to the patchable prototype of functions. -/
theorem forwarder_leaves (h : HostId) (roots : Roots) (config : Config) (name : Value) (room : n ≤ w.heap.size) :
    Leaves (.growth n) (forwarder h roots config name) w fun o v =>
      o = w.heap.size ∧ v.heap.size = w.heap.size + 2 ∧ Forwards v o h name ∧
        v.heap.Linked o (.obj roots.functionPrototype) := by
  refine .bind (newFn_leaves (.forward h name)) ?_
  rintro - v - ⟨rfl, rfl⟩
  refine (emulate_equipped_leaves (w := { w with fns := w.fns.push (.forward h name) }) roots config (.fn w.fns.size)
    name room).conseq fun o u grown ⟨new, equipped, linked⟩ => ?_
  have code : (w.fns.push (.forward h name))[w.fns.size]? = some (.forward h name) := Array.getElem?_push_size
  exact ⟨new, equipped.2, ⟨w.fns.size, equipped.1.toEmulates, grown.fns_getElem? code⟩, linked⟩

/-- The roots stand in the order of their links, the first of them linked to `top`. -/
structure Rooted (h : Heap) (top : ObjId) (r : Roots) : Prop where
  objectPrototype : h.Linked r.objectPrototype (.obj top)
  functionPrototype : h.Linked r.functionPrototype (.obj r.objectPrototype)
  function : h.Linked r.function (.obj r.functionPrototype)
  objectShadow : h.Linked r.objectShadow (.obj r.functionPrototype)
  rising : r.objectPrototype < r.functionPrototype ∧ r.functionPrototype < r.function ∧
    r.function < r.objectShadow

theorem Rooted.change {h k : Heap} {top : ObjId} {r : Roots} (rooted : Rooted h top r) (changes : h.Changes k) :
    Rooted k top r :=
  ⟨changes.linked rooted.objectPrototype, changes.linked rooted.functionPrototype,
    changes.linked rooted.function, changes.linked rooted.objectShadow, rooted.rising⟩

/-- A new object is linked and stands after all others. -/
theorem begetFrom_linked_leaves (proto : Value) (room : n ≤ w.heap.size) :
    Leaves (.growth n) (Act.begetFrom proto) w fun o v => o = w.heap.size ∧ v.heap.Linked o proto := by
  refine (begetFrom_leaves proto room).conseq fun o v _ => ?_
  rintro ⟨rfl, rfl⟩
  exact ⟨rfl, Heap.linked_push _ _⟩

/-- The roots of a new plugin are new objects below the host's object prototype. -/
theorem seedRoots_leaves (h : HostId) (config : Config) (room : n ≤ w.heap.size) :
    Leaves (.growth n) (seedRoots h config) w fun r v =>
      w.heap.size ≤ r.objectPrototype ∧ Rooted v.heap (w.host h).objectPrototype r := by
  refine .bind_get ?_
  refine .bind (begetFrom_linked_leaves _ room) fun op v₁ grown₁ ⟨first, linked₁⟩ => ?_
  have above : n ≤ op := by rw [first]; exact room
  have room₁ := Nat.le_trans above (Nat.le_of_lt linked₁.1)
  refine .bind (putProperty_leaves op _ _ false above) fun _ v₂ grown₂ _ => ?_
  refine .bind (begetFrom_linked_leaves _ (Nat.le_trans room₁ grown₂.size_le)) fun fp v₃ grown₃ ⟨second, linked₃⟩ => ?_
  have rising₁ : op < fp := by rw [second]; exact Nat.lt_of_lt_of_le linked₁.1 grown₂.size_le
  have above₃ : n ≤ fp := Nat.le_trans above (Nat.le_of_lt rising₁)
  refine .bind (begetFrom_linked_leaves _ (Nat.le_trans above₃ (Nat.le_of_lt linked₃.1)))
    fun function v₄ grown₄ ⟨third, linked₄⟩ => ?_
  have rising₂ : fp < function := by rw [third]; exact linked₃.1
  have above₄ : n ≤ function := Nat.le_trans above₃ (Nat.le_of_lt rising₂)
  refine .bind (putProperty_leaves function _ _ false above₄) fun _ v₅ grown₅ _ => ?_
  refine .bind (putProperty_leaves function _ _ false above₄) fun _ v₆ grown₆ _ => ?_
  refine .bind (putProperty_leaves fp _ _ false above₃) fun _ v₇ grown₇ _ => ?_
  refine .bind (newFn_leaves _) fun _ v₈ grown₈ _ => ?_
  refine .bind (putProperty_leaves fp _ _ false above₃) fun _ v₉ grown₉ _ => ?_
  have grown₅₉ := (((grown₅.trans grown₆).trans grown₇).trans grown₈).trans grown₉
  have room₉ : n ≤ v₉.heap.size := Nat.le_trans (Nat.le_trans above₄ (Nat.le_of_lt linked₄.1)) grown₅₉.size_le
  refine .bind (begetFrom_linked_leaves _ room₉) fun shadow v₁₀ grown₁₀ ⟨fourth, linked₁₀⟩ => ?_
  have rising₃ : function < shadow := by rw [fourth]; exact Nat.lt_of_lt_of_le linked₄.1 grown₅₉.size_le
  have above₁₀ : n ≤ shadow := Nat.le_trans above₄ (Nat.le_of_lt rising₃)
  refine .bind (putProperty_leaves shadow _ _ false above₁₀) fun _ v₁₁ grown₁₁ _ => ?_
  -- every later change keeps the links of what was made before
  have from₁₀ := grown₁₁.trail
  have from₄ := grown₅₉.trail.trans (grown₁₀.trail.trans from₁₀)
  have from₃ := grown₄.trail.trans from₄
  have from₁ := grown₂.trail.trans (grown₃.trail.trans from₃)
  exact .pure ⟨Nat.le_of_eq first.symm, from₁.linked linked₁, from₃.linked linked₃, from₄.linked linked₄,
    from₁₀.linked linked₁₀, rising₁, rising₂, rising₃⟩

end Emulation

end Overlay
