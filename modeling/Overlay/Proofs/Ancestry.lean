import Overlay.Proofs.Making
import Overlay.Proofs.Restraint

/-!
# The ancestry of host functions

Where all host functions come with a host or by definition, each of them has a frozen prototype, and what that
prototype descends from is null or another frozen prototype. The `constructor` which the latter owns, if it owns one,
may be the constructor that came with it or a method of that name; in either case it is a host function that was made
earlier and has a smaller number. So super constructors lead back, and they are the same at all times of a run.
-/

namespace Overlay
set_option autoImplicit false

open Act World

namespace Bag

/-- A put adds at most its own name. -/
theorem mem_names_put {b : Bag} {n m : Name} {x : Value} {e : Bool} (listed : m ∈ (b.put n x e).names) :
    m ∈ b.names ∨ m = n := by
  unfold names put insert at listed
  dsimp only at listed
  split at listed
  · refine .inl ?_
    rw [List.map_map] at listed
    obtain ⟨q, among, rfl⟩ := List.mem_map.1 listed
    refine List.mem_map.2 ⟨q, among, ?_⟩
    simp only [Function.comp]
    split <;> rfl
  · rw [List.map_append, List.mem_append] at listed
    rcases listed with before | new
    · exact .inl before
    · exact .inr (by simpa using new)

/-- A put adds at most its own key. -/
theorem owns_put {b : Bag} {n : Name} {k : Key} {x : Value} {e : Bool} (owned : (b.put n x e).owns k = true) :
    b.owns k = true ∨ k = n.key := by
  by_cases same : n.key = k
  · exact .inr same.symm
  · rw [owns_eq, find?_put_other b x e same, ← owns_eq] at owned
    exact .inl owned

end Bag

namespace Heap

/-- The `constructor` that the object owns, if it owns one, is a host function, and its names have texts. -/
structure IsHead (h : Heap) (q : ObjId) : Prop where
  constructor : ∀ x, h.member? q "constructor" = some x → ∃ c fn, x = .obj c ∧ h.hostFn? c = some fn
  names : ∀ n ∈ (h.get q).bag.names, Writable n.value

/-- The `constructor` that the object owns, if it owns one, is a host function older than position `o` and with a
number below `category`. -/
def Elder (h : Heap) (o : ObjId) (category : Nat) (q : ObjId) : Prop :=
  ∀ x, h.member? q "constructor" = some x →
    ∃ c fn, x = .obj c ∧ h.hostFn? c = some fn ∧ fn.category < category ∧ c < o

/-- A host function and its prototype are frozen; the function owns its name, its length and statics; the prototype
descends from null or from a frozen object whose constructor is older. -/
structure Descended (statics : Key → Prop) (h : Heap) (o : ObjId) (fn : HostFn) (p : ObjId) : Prop where
  link : fn.prototype = .obj p
  frozen : (h.get o).bag.frozen = true
  own : ∀ k, h.owns o k = true → k = "name" ∨ k = "length" ∨ statics k
  sealed : (h.get p).bag.frozen = true
  head : h.IsHead p
  above : (h.get p).proto = .null ∨
    ∃ q, (h.get p).proto = .obj q ∧ (h.get q).bag.frozen = true ∧ h.Elder o fn.category q

variable {h k : Heap} {statics : Key → Prop}

theorem IsHead.change {q : ObjId} (head : h.IsHead q) (changes : h.Changes k) (same : k.get q = h.get q) :
    k.IsHead q := by
  refine ⟨fun x found => ?_, fun n listed => ?_⟩
  · rw [member?_of_get same] at found
    obtain ⟨c, fn, rfl, host⟩ := head.constructor x found
    exact ⟨c, fn, rfl, changes.hostFn? host⟩
  · rw [same] at listed
    exact head.names n listed

theorem Elder.change {o q : ObjId} {category : Nat} (elder : h.Elder o category q) (changes : h.Changes k)
    (same : k.get q = h.get q) : k.Elder o category q := by
  intro x found
  rw [member?_of_get same] at found
  obtain ⟨c, fn, rfl, host, smaller, older⟩ := elder x found
  exact ⟨c, fn, rfl, changes.hostFn? host, smaller, older⟩

/-- What is frozen does not change, so a host function keeps its ancestry. -/
theorem Descended.change {o p : ObjId} {fn : HostFn} (descended : Descended statics h o fn p)
    (changes : h.Changes k) : Descended statics k o fn p := by
  have same {a : ObjId} (frozen : (h.get a).bag.frozen = true) : k.get a = h.get a := changes.keeps a frozen
  refine ⟨descended.link, changes.frozen descended.frozen, fun key owned => ?_, changes.frozen descended.sealed,
    descended.head.change changes (same descended.sealed), ?_⟩
  · rw [owns, same descended.frozen] at owned
    exact descended.own key owned
  · rw [same descended.sealed]
    rcases descended.above with top | ⟨q, linked, frozen, elder⟩
    · exact .inl top
    · exact .inr ⟨q, linked, changes.frozen frozen, elder.change changes (same frozen)⟩

end Heap

/-- A host's object prototype may be built on; its two constructors, if they are functions, have its two prototypes,
and the constructor of objects is that of the functions' prototype. -/
structure Host.Heads (h : Heap) (x : Host) : Prop where
  head : h.IsHead x.objectPrototype
  object : ∀ fn, h.hostFn? x.object = some fn → fn.prototype = .obj x.objectPrototype
  function : ∀ fn, h.hostFn? x.function = some fn → fn.prototype = .obj x.functionPrototype ∧
    (h.get x.functionPrototype).proto = .obj x.objectPrototype ∧
    h.member? x.objectPrototype "constructor" = some (.obj x.object)

theorem Host.Heads.change {h k : Heap} {x : Host} (heads : x.Heads h) (founded : x.Founded h)
    (changes : h.Changes k) : x.Heads k := by
  have same {o : ObjId} (root : o ∈ x.roots) : k.get o = h.get o := changes.keeps o (founded.frozen o root)
  have host {o : ObjId} (root : o ∈ x.roots) : k.hostFn? o = h.hostFn? o := by
    rw [Heap.hostFn?, same root, Heap.hostFn?]
  refine ⟨heads.head.change changes (same (by simp [roots])), fun fn found => ?_, fun fn found => ?_⟩
  · rw [host (by simp [roots])] at found
    exact heads.object fn found
  · rw [host (by simp [roots])] at found
    rw [same (by simp [roots]), Heap.member?_of_get (same (by simp [roots]))]
    exact heads.function fn found

namespace World

/-- From a position on, host functions have their ancestry. -/
def DescendedFrom (statics : Key → Prop) (n : ObjId) (w : World) : Prop :=
  ∀ o fn, n ≤ o → w.heap.hostFn? o = some fn → ∃ p, Heap.Descended statics w.heap o fn p

/-- All host functions have their ancestry, and all hosts may be built on. -/
structure Ancestral (statics : Key → Prop) (w : World) : Prop where
  functions : DescendedFrom statics 0 w
  hosts : ∀ h, (w.host h).Heads w.heap

variable {statics : Key → Prop} {w v : World} {n : ObjId}

/-- Old host functions keep their ancestry, so only new ones have to be looked at. -/
theorem DescendedFrom.later (descended : DescendedFrom statics n w) (changes : w.heap.Changes v.heap)
    (new : ∀ o fn, w.heap.size ≤ o → v.heap.hostFn? o = some fn → ∃ p, Heap.Descended statics v.heap o fn p) :
    DescendedFrom statics n v := by
  intro o fn above found
  rcases Nat.lt_or_ge o w.heap.size with before | late
  · have found' : w.heap.hostFn? o = some fn := by
      rw [Heap.hostFn?, ← changes.sameShape.host o before]
      exact found
    obtain ⟨p, descended⟩ := descended o fn above found'
    exact ⟨p, descended.change changes⟩
  · exact new o fn late found

/-- Nothing is asked of what is not there. -/
theorem descendedFrom_of_size_le (out : w.heap.size ≤ n) : DescendedFrom statics n w :=
  fun _ _ above found => absurd (Heap.lt_size_of_hostFn? found) (Nat.not_lt.2 (Nat.le_trans out above))

/-- A frozen object that may be built on has a constructor older than all that is made later. -/
theorem Numbered.elder {q o : ObjId} {category : Nat} (numbers : w.Numbered) (head : w.heap.IsHead q)
    (later : w.heap.size ≤ o) (greater : w.nextCategory ≤ category) : w.heap.Elder o category q := by
  intro x found
  obtain ⟨c, fn, rfl, host⟩ := head.constructor x found
  exact ⟨c, fn, rfl, host, Nat.lt_of_lt_of_le (numbers.below host) greater,
    Nat.lt_of_lt_of_le (Heap.lt_size_of_hostFn? host) later⟩

/-- A world that has advanced without a new host function or a new host is ancestral if it was. -/
theorem Ancestral.advance (ancestral : w.Ancestral statics) (sound : w.Sound) (changes : w.heap.Changes v.heap)
    (functions : ∀ o, v.heap.hostFn? o = w.heap.hostFn? o)
    (hosts : ∀ h, ∃ h', (v.host h).roots = (w.host h').roots) : v.Ancestral statics := by
  refine ⟨?_, fun h => ?_⟩
  · refine ancestral.functions.later changes fun o fn late found => ?_
    rw [functions] at found
    exact absurd (Heap.lt_size_of_hostFn? found) (Nat.not_lt.2 late)
  · obtain ⟨h', same⟩ := hosts h
    have heads := (ancestral.hosts h').change (sound.hosts h') changes
    simp only [Host.roots, List.cons.injEq, and_true] at same
    obtain ⟨op, fp, object, function⟩ := same
    refine ⟨op ▸ heads.head, ?_, ?_⟩
    · rw [op, object]
      exact heads.object
    · rw [op, fp, object, function]
      exact heads.function

end World

/-- No host function and no host is made. -/
def Regime.plain : Regime where
  step w v := (∀ o, v.heap.hostFn? o = w.heap.hostFn? o) ∧ v.hosts = w.hosts
  fault _ _ := True
  refl _ := ⟨fun _ => rfl, rfl⟩
  trans near far := ⟨fun o => (far.1 o).trans (near.1 o), far.2.trans near.2⟩
  back _ _ := trivial
  ordinary _ _ _ := trivial

/-! ## What makes no host function -/

namespace Act
variable {α : Type} {w : World}

theorem Follows.plain {x : Act α} (h : Follows .aside x) : Follows .plain x :=
  h.mono (fun _ _ aside => ⟨fun _ => by rw [aside.heap], aside.hosts⟩) fun _ _ _ => trivial

theorem lift_plain (q : Except Fault α) : Follows .plain (liftM q) := by
  intro w
  cases q with
  | error e => exact .of_error rfl (Regime.refl _ w) trivial
  | ok a => exact .of_ok rfl (Regime.refl _ w) trivial

theorem say_plain (line : World → Except Fault LogLine) : Follows .plain (say line) := by
  refine .bind_get fun w => ?_
  split
  · cases line w with
    | error e => exact .of_error rfl (Regime.refl _ w) trivial
    | ok l => exact .of_ok rfl ⟨fun _ => rfl, rfl⟩ trivial
  · exact .pure trivial

theorem alloc_plain (proto : Value) (b : Bag) : Follows .plain (alloc { proto := proto, bag := b }) := by
  intro w
  refine .of_ok rfl ⟨fun o => ?_, rfl⟩ trivial
  rw [Heap.hostFn?, Heap.get_push, Heap.hostFn?]
  split
  · rename_i last
    rw [last, Heap.get_of_size_le (Nat.le_refl _)]
  · rfl

theorem begetFrom_plain (proto : Value) : Follows .plain (begetFrom proto) :=
  alloc_plain proto {}

theorem newFn_plain (f : Fn) : Follows .plain (newFn f) :=
  fun _ => .of_ok rfl ⟨fun _ => rfl, rfl⟩ trivial

theorem putProperty_plain (o : ObjId) (name x : Value) (e : Bool) : Follows .plain (putProperty o name x e) := by
  intro w
  refine (putProperty_rule o name x e fun b _ => ?_).conseq fun _ _ _ _ => trivial
  exact ⟨fun p => (Heap.get_setBag_shape w.heap o p b).2, rfl⟩

theorem putHidden_plain (o : ObjId) (name x : Value) : Follows .plain (putHidden o name x) :=
  putProperty_plain o name x false

theorem eraseProperty_plain (o : ObjId) (name : Value) : Follows .plain (eraseProperty o name) := by
  intro w
  exact eraseProperty_rule o name fun b _ => ⟨fun p => (Heap.get_setBag_shape w.heap o p b).2, rfl⟩

theorem freeze_plain (o : ObjId) : Follows .plain (freeze o) :=
  fun w => .of_ok rfl ⟨fun p => (Heap.get_setBag_shape w.heap o p _).2, rfl⟩ trivial

theorem enforceCallable_plain (v : Value) (what : Text) : Follows .plain (enforceCallable v what) := by
  have aside : Follows .aside (enforceCallable v what) := fun w =>
    (enforceCallable_leaves v what).conseq fun _ _ _ _ => trivial
  exact aside.plain

end Act

theorem Host.put_plain (v name x : Value) : Follows .plain (Host.put v name x) := by
  refine .look fun w => .bind (lift_plain _) fun _ => ?_
  split
  · exact .bind (putProperty_plain _ name x true) fun _ => .pure _
  · exact .bind (lift_plain _) fun _ => .stop rfl

namespace Emulation

theorem emulate_plain (roots : Roots) (config : Config) (raw name : Value) :
    Follows .plain (emulate roots config raw name) := by
  refine .bind (enforceCallable_plain raw _) fun _ => .bind (begetFrom_plain _) fun result => ?_
  refine .bind (putHidden_plain _ _ _) fun _ => .bind (newFn_plain _) fun _ => .bind (putHidden_plain _ _ _) fun _ => ?_
  refine .bind (newFn_plain _) fun _ => .bind (putHidden_plain _ _ _) fun _ => .bind (begetFrom_plain _) fun _ => ?_
  refine .bind (putHidden_plain _ _ _) fun _ => .bind (putHidden_plain _ _ _) fun _ => .look fun w => ?_
  refine .bind (shownLength_follows _).plain fun _ => .bind (putHidden_plain _ _ _) fun _ => ?_
  refine .bind (renderHeader_follows config raw name).plain fun r => .bind (newFn_plain _) fun _ => ?_
  refine .bind (putHidden_plain _ _ _) fun _ => .look fun w => ?_
  dsimp only
  split
  · exact .bind (putHidden_plain _ _ _) fun _ => .pure _
  · exact .pure _

theorem forwarder_plain (h : HostId) (roots : Roots) (config : Config) (name : Value) :
    Follows .plain (forwarder h roots config name) :=
  .bind (newFn_plain _) fun _ => emulate_plain roots config _ name

theorem seedRoots_plain (h : HostId) (config : Config) : Follows .plain (seedRoots h config) := by
  refine .look fun w => .bind (begetFrom_plain _) fun _ => .bind (putHidden_plain _ _ _) fun _ => ?_
  refine .bind (begetFrom_plain _) fun _ => .bind (begetFrom_plain _) fun _ => .bind (putHidden_plain _ _ _) fun _ => ?_
  refine .bind (putHidden_plain _ _ _) fun _ => .bind (putHidden_plain _ _ _) fun _ => .bind (newFn_plain _) fun _ => ?_
  refine .bind (putHidden_plain _ _ _) fun _ => .bind (begetFrom_plain _) fun _ => .bind (putHidden_plain _ _ _) fun _ => ?_
  exact .pure _

end Emulation

namespace Plugin

theorem register_plain (p : PluginId) (c : Category) (s : Shadow) : Follows .plain (register p c s) := by
  refine .bind_get fun w => ?_
  split
  · exact .of_ok rfl ⟨fun _ => rfl, rfl⟩ trivial
  · exact .of_error rfl (Regime.refl _ w) trivial

theorem enter_plain (w : World) (p : PluginId) (f parent : Value) : Follows .plain (enter w p f parent) := by
  unfold enter
  split
  · exact .bind (register_plain p _ _) fun _ => say_plain _
  · exact .pure _

theorem addForwarders_plain (x : Plugin) (prototype : ObjId) (names : List Name) :
    Follows .plain (addForwarders x prototype names) :=
  .forM fun _ => .bind (Emulation.forwarder_plain _ _ _ _) fun _ => putHidden_plain _ _ _

theorem build_plain (p : PluginId) (f : Value) : Follows .plain (build p f) := by
  intro w
  rcases build_cases w p f with ⟨e, -, run⟩ | ⟨parent, q, -, -, run⟩
  · exact .of_error run (Regime.refl _ w) trivial
  · refine .of_exec run ⟨hostFn?_laid w p f q, rfl⟩ (Follows.bind (lift_plain _) (fun methods => ?_) _)
    exact .bind (addForwarders_plain _ _ _) fun _ => enter_plain w p f parent

theorem shadowOf_plain (p : PluginId) (f : Value) : Follows .plain (shadowOf p f) := by
  refine .bind (enforceCallable_plain f _) fun _ => .look fun w => .bind (lift_plain _) fun l => ?_
  refine .bind (.forM (build_plain p)) fun _ => .look fun v => ?_
  split
  · exact .pure _
  · exact .stop rfl

theorem make_plain (h : HostId) (config : Config) (outers : Value) : Follows .plain (make h config outers) := by
  refine .bind (warn_follows config).plain fun _ => .bind (Emulation.seedRoots_plain h config) fun roots => ?_
  refine .look fun w => .bind (Host.put_plain _ _ _) fun _ => .bind (say_plain _) fun _ => ?_
  exact .bind_get fun v => .of_ok rfl ⟨fun _ => rfl, rfl⟩ trivial

end Plugin

end Overlay
