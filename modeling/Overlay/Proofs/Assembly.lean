import Mathlib.Data.List.Forall2
import Overlay.Proofs.Completion
import Overlay.Proofs.Shadows

/-!
# Assembling a shadow

A shadow that `shadow_of` has to make is made of two objects at the end of the heap, itself and its pseudo-prototype,
and of two more for each forwarder. What these objects hold when nothing stops the work is known to the last member:
`shadowBag` and `prototypeBag` are their bags, and `Forwarders` says what stands behind the names. The run of
`Plugin.build` is cut here once and for all. It stops at a question about the super constructor, or it goes on from a
world in which both objects stand (`laid`, `build_cases`), adds the forwarders (`Assembled`) and enters the shadow in
the table (`enter`). What else is said of `Plugin.build` follows from these parts.
-/

namespace Overlay
set_option autoImplicit false

open Act World Emulation

/-- A loop ends if each round does, and keeps what each round keeps. -/
theorem Act.exec_forM_ends {α : Type} {w : World} (items : List α) (round : α → Act Unit) (I : World → Prop)
    (start : I w) (ends : ∀ a ∈ items, ∀ u, I u → ∃ v, exec (round a) u = (.ok (), v) ∧ I v) :
    ∃ v, exec (items.forM round) w = (.ok (), v) ∧ I v := by
  induction items generalizing w with
  | nil => exact ⟨w, rfl, start⟩
  | cons a rest ih =>
    obtain ⟨u, first, kept⟩ := ends a List.mem_cons_self w start
    obtain ⟨v, further, kept'⟩ := ih kept fun b listed => ends b (List.mem_cons_of_mem a listed)
    exact ⟨v, (exec_bind_ok first).trans further, kept'⟩

namespace World

/-- The text of a value does not depend on the log. -/
theorem describe_log (w : World) (log : Array LogLine) (x : Value) :
    w.describe x = { w with log := log }.describe x := by
  have within (fuel : Nat) : w.describeWithin fuel = { w with log := log }.describeWithin fuel := by
    induction fuel using Nat.strongRecOn with
    | ind fuel ih =>
      funext inside x
      cases fuel with
      | zero => rfl
      | succ fuel =>
        have items := ih fuel (Nat.lt_succ_self fuel)
        cases x with
        | list mark l => simp only [describeWithin, items]
        | record entries => simp only [describeWithin, items]
        | ref r =>
          cases r with
          | object o =>
            rcases fuel with _ | _ | fuel
            · rfl
            · rfl
            · simp only [describeWithin, ih fuel (by omega)]
              rfl
          | plugin p =>
            cases met : inside.plugins.contains p with
            | true => simp only [describeWithin, met]
            | false =>
              rcases fuel with _ | _ | fuel <;> simp only [describeWithin, met]
              rw [ih fuel (by omega)]
              rfl
          | _ => rfl
        | _ => rfl
  rw [describe, describe, within]

end World

namespace Plugin

/-- What a value owns. -/
def ownBag (w : World) : Value → Bag
  | .obj o => (w.heap.get o).bag
  | _ => {}

/-- A bag with the named members of another one put into it. -/
def copied (source : Bag) (names : List Name) (b : Bag) : Bag :=
  names.foldl (fun b n => b.put n (source.get n.key) (source.isEnumerable n.key)) b

/-- A bag with a forwarder for each name put into it; the forwarders stand two apart, from a position on. -/
def forwarded : ObjId → List Name → Bag → Bag
  | _, [], b => b
  | first, n :: rest, b => forwarded (first + 2) rest (b.put n (.obj first) false)

/-- Where the forwarders for some names stand that are made from a position on. -/
def places : ObjId → List Name → List ObjId
  | _, [] => []
  | first, _ :: rest => first :: places (first + 2) rest

/-- The objects are forwarders of a plugin, each for the name at its place, and no two of them are the same. -/
structure Forwarders (w : World) (x : Plugin) (names : List Name) (ids : List ObjId) : Prop where
  forward : List.Forall₂ (fun m o => Forwards w o x.host m.value ∧
    w.heap.Linked o (.obj x.roots.functionPrototype)) names ids
  rising : ids.Pairwise (· < ·)

/-- A bag with objects put into it, each under the name at its place. -/
def holding (b : Bag) (names : List Name) (ids : List ObjId) : Bag :=
  (names.zip ids).foldl (fun b m => b.put m.1 (.obj m.2) false) b

/-- An object holds, under a key, a forwarder that looks up a name of this key. -/
def HoldsForwarder (w : World) (h : HostId) (p : ObjId) (k : Key) : Prop :=
  ∃ f name, w.heap.member? p k = some (.obj f) ∧ f ≠ p ∧ Key.of? name = some k ∧ Forwards w f h name

end Plugin

/-! ## The names that a shadow is made with -/

namespace Host
variable {w : World} {f : Value}

/-- The names of the members that a shadow takes over. -/
def members (w : World) (config : Config) (f : Value) : List Name :=
  (Plugin.ownBag w f).names.filter fun n => !config.isCoercionMember n.key

/-- The property is a method that a pseudo-prototype gets a forwarder for. -/
def isForwarded (w : World) (config : Config) (q : Property) : Bool :=
  !(q.name.key == "constructor") && (!config.isCoercionMember q.name.key && w.isCallable q.value)

/-- The names of the methods that a pseudo-prototype gets forwarders for. -/
def methods (w : World) (config : Config) (f : Value) : List Name :=
  ((Plugin.ownBag w (prototypeMember w f)).props.filter (isForwarded w config)).map (·.name)

theorem isMethod_eq (w : World) (config : Config) (q : Property) :
    isMethod w (excludeCoercion config) q = .ok (isForwarded w config q) := by
  rw [isMethod, isForwarded]
  by_cases own : q.name.key == "constructor"
  · rw [own]
    rfl
  · rw [if_neg own, Bool.eq_false_iff.2 own]
    rfl

theorem ownNames_eq (w : World) (config : Config) (f : Value) :
    ownNames w f (excludeCoercion config) = .ok (members w config f) := by
  unfold ownNames members
  split
  · exact filterM_ok (fun _ => rfl) _
  · next plain =>
    unfold Plugin.ownBag
    split
    · next o => exact absurd rfl (plain o)
    · rfl

/-- The names of the methods, when there is an answer. -/
theorem methodNames_answer {config : Config} {names : List Name}
    (answer : methodNames w f (excludeCoercion config) = .ok names) : names = methods w config f := by
  unfold methodNames at answer
  split at answer
  · rename_i none
    cases answer
    rw [methods, none]
    rfl
  · rename_i o member
    rw [filterM_ok (isMethod_eq w config)] at answer
    cases answer
    rw [methods, member]
    rfl
  · cases answer

end Host

namespace Plugin
variable {n : Nat} {w v u : World} {p : PluginId} {f parent : Value} {q : ObjId}

/-! ## Forwarders -/

theorem forwarded_eq_holding (first : ObjId) (names : List Name) (b : Bag) :
    forwarded first names b = holding b names (places first names) := by
  induction names generalizing first b with
  | nil => rfl
  | cons m rest ih => exact ih (first + 2) (b.put m (.obj first) false)

theorem le_of_mem_places {first o : ObjId} {names : List Name} (listed : o ∈ places first names) : first ≤ o := by
  induction names generalizing first with
  | nil => cases listed
  | cons m rest ih =>
    rcases List.mem_cons.1 listed with rfl | later
    · exact Nat.le_refl _
    · exact Nat.le_trans (Nat.le_add_right first 2) (ih later)

/-- A forwarder stays one while objects are made and some other object is written to. -/
theorem Forwards.kept {h : HostId} {name : Value} {o q : ObjId} (forwards : Forwards w o h name) (grown : Grows n w v)
    (others : ∀ a, a < w.heap.size → a ≠ q → v.heap.get a = w.heap.get a) (apart : o ≠ q) : Forwards v o h name := by
  obtain ⟨g, emulates, code⟩ := id forwards
  exact forwards.grow grown (Heap.member?_of_get (others o emulates.inside apart) _)

/-- One round: a forwarder is made at the end of the heap and put under its name, and no other object changes. -/
theorem addForwarder_leaves (x : Plugin) (m : Name) (above : n ≤ q) (room : n ≤ w.heap.size) (inside : q < w.heap.size) :
    Leaves (.growth n) (do
        let f ← Emulation.forwarder x.host x.roots x.config m.value
        Act.putHidden q m.value (.obj f)) w fun _ u =>
      u.heap.size = w.heap.size + 2 ∧ Forwards u w.heap.size x.host m.value ∧
        u.heap.Linked w.heap.size (.obj x.roots.functionPrototype) ∧
        u.heap.get q = { w.heap.get q with bag := (w.heap.get q).bag.put m (.obj w.heap.size) false } ∧
        ∀ a, a < w.heap.size → a ≠ q → u.heap.get a = w.heap.get a := by
  refine .bind ((forwarder_leaves _ _ _ m.value (Nat.le_refl _)).fewer room) fun o u _ made => ?_
  obtain ⟨grown, rfl, size, forwards, linked⟩ := made
  refine (putProperty_leaves q m.value (.obj _) false above).conseq fun _ t far => ?_
  rintro ⟨k, spelled, -, rfl⟩
  obtain rfl : m = k := Option.some.inj ((Name.of?_value m).symm.trans spelled)
  refine ⟨(Heap.size_setBag _ _ _).trans size, ?_, far.trail.linked linked, ?_, fun a old other => ?_⟩
  · exact Forwards.kept forwards far (fun a _ other => Heap.get_setBag_other _ _ other) (Nat.ne_of_gt inside)
  · rw [Heap.get_setBag_same _ (Nat.lt_of_lt_of_le inside grown.size_le), grown.old q inside]
  · rw [Heap.get_setBag_other _ _ other, grown.old a old]

/-- Forwarders are added to an object in the order of the names, two objects for each at the end of the heap, and no
other object changes. -/
theorem addForwarders_leaves (x : Plugin) (names : List Name) (above : n ≤ q) (room : n ≤ w.heap.size)
    (inside : q < w.heap.size) :
    Leaves (.growth n) (addForwarders x q names) w fun _ v =>
      v.heap.size = w.heap.size + 2 * names.length ∧ Forwarders v x names (places w.heap.size names) ∧
        v.heap.get q = { w.heap.get q with bag := forwarded w.heap.size names (w.heap.get q).bag } ∧
        ∀ a, a < w.heap.size → a ≠ q → v.heap.get a = w.heap.get a := by
  induction names generalizing w with
  | nil => exact .pure ⟨rfl, ⟨.nil, .nil⟩, rfl, fun _ _ _ => rfl⟩
  | cons m rest ih =>
    refine .bind (addForwarder_leaves x m above room inside) fun _ u grown made => ?_
    obtain ⟨size, forwards, linked, bag, others⟩ := made
    refine (ih (Nat.le_trans room grown.size_le) (Nat.lt_of_lt_of_le inside grown.size_le)).conseq fun _ v further post => ?_
    obtain ⟨size', ⟨forward, rising⟩, held, others'⟩ := post
    rw [size] at forward rising held
    refine ⟨?_, ⟨.cons ⟨?_, further.trail.linked linked⟩ forward, .cons ?_ rising⟩, ?_, fun a old other => ?_⟩
    · rw [size', size, List.length_cons]
      omega
    · exact Forwards.kept forwards further others' (Nat.ne_of_gt inside)
    · intro o listed
      exact Nat.lt_of_lt_of_le (Nat.lt_add_of_pos_right (by decide)) (le_of_mem_places listed)
    · rw [held, bag]
      rfl
    · rw [others' a (Nat.lt_of_lt_of_le old grown.size_le) other, others a old other]

/-- Forwarders can be added to an open object for names that have texts. -/
theorem addForwarders_ends (x : Plugin) {names : List Name} (is_open : (w.heap.get q).bag.frozen = false)
    (writable : ∀ m ∈ names, Writable m.value) :
    ∃ v, exec (addForwarders x q names) w = (.ok (), v) ∧ v.logging = w.logging := by
  obtain ⟨v, run, -, logging⟩ := exec_forM_ends (w := w) names
    (fun m => do
      let f ← Emulation.forwarder x.host x.roots x.config m.value
      Act.putHidden q m.value (.obj f))
    (fun u => (u.heap.get q).bag.frozen = false ∧ u.logging = w.logging) ⟨is_open, rfl⟩
    fun m listed u ⟨still, logging⟩ => by
      obtain ⟨t, made, adds⟩ := forwarder_adds (w := u) x.host x.roots x.config (writable m listed)
      have open' := adds.is_open still
      refine ⟨_, (exec_bind_ok made).trans (exec_putProperty _ false open' (Name.of?_value m)), ?_, ?_⟩
      · exact (Heap.frozen_setBag t.heap (b := (t.heap.get q).bag.put m _ false) rfl q).trans open'
      · exact adds.logging.trans logging
  exact ⟨v, run, logging⟩

theorem find?_holding_other {k : Key} {names : List Name} {ids : List ObjId} {b : Bag}
    (others : ∀ m ∈ names, m.key ≠ k) : (holding b names ids).find? k = b.find? k := by
  induction names generalizing ids b with
  | nil => rfl
  | cons m rest ih =>
    cases ids with
    | nil => rfl
    | cons o ids =>
      rw [holding, List.zip_cons_cons, List.foldl_cons]
      refine (ih fun m' listed => others m' (List.mem_cons_of_mem m listed)).trans ?_
      exact Bag.find?_put_other b _ _ (others m List.mem_cons_self)

/-- Under the key of each name there is an object that was put there for a name of this key. -/
theorem find?_holding {R : Name → ObjId → Prop} {names : List Name} {ids : List ObjId} {m : Name} (b : Bag)
    (related : List.Forall₂ R names ids) (listed : m ∈ names) :
    ∃ m' o, o ∈ ids ∧ R m' o ∧ m'.key = m.key ∧
      ((holding b names ids).find? m.key).map (·.value) = some (.obj o) := by
  induction related generalizing b m with
  | nil => cases listed
  | @cons m₀ o₀ names ids here further ih =>
    by_cases again : ∃ m' ∈ names, m'.key = m.key
    · -- a later name of the same key is put over what was put before
      obtain ⟨m', later, same⟩ := again
      obtain ⟨m'', o, among, related, key, found⟩ := ih (b.put m₀ (.obj o₀) false) later
      rw [same] at key found
      exact ⟨m'', o, List.mem_cons_of_mem o₀ among, related, key, found⟩
    · have others (m' : Name) (later : m' ∈ names) : m'.key ≠ m.key := fun same => again ⟨m', later, same⟩
      obtain rfl : m = m₀ := (List.mem_cons.1 listed).resolve_right fun later => others m later rfl
      refine ⟨m, o₀, List.mem_cons_self, here, rfl, ?_⟩
      rw [holding, List.zip_cons_cons, List.foldl_cons]
      exact (congrArg (Option.map _) (find?_holding_other others)).trans (Bag.find?_put_same b m _ false)

/-- An object with forwarders put into it, which stand after it, holds one for each name. -/
theorem Forwarders.holds {x : Plugin} {names : List Name} {ids : List ObjId} {m : Name} {b : Bag}
    (forwarders : Forwarders w x names ids) (bag : (w.heap.get q).bag = holding b names ids)
    (after : ∀ o ∈ ids, q < o) (listed : m ∈ names) : HoldsForwarder w x.host q m.key := by
  obtain ⟨m', o, among, ⟨forwards, -⟩, key, found⟩ := find?_holding b forwarders.forward listed
  refine ⟨o, m'.value, ?_, Nat.ne_of_gt (after o among), key ▸ m'.key_eq, forwards⟩
  rw [Heap.member?, bag]
  exact found

theorem Forwarders.of_same {x : Plugin} {names : List Name} {ids : List ObjId} (forwarders : Forwarders w x names ids)
    (heap : v.heap = w.heap) (fns : v.fns = w.fns) : Forwarders v x names ids := by
  refine ⟨forwarders.forward.imp fun m o made => ⟨?_, by rw [heap]; exact made.2⟩, forwarders.rising⟩
  obtain ⟨g, emulates, code⟩ := made.1
  refine ⟨g, ⟨heap ▸ emulates.inside, heap ▸ emulates.plain, ?_⟩, fns ▸ code⟩
  rw [heap, fns]
  exact emulates.applies

/-! ## The two objects -/

theorem find?_copied_other {source b : Bag} {names : List Name} {k : Key} (others : ∀ n ∈ names, n.key ≠ k) :
    (copied source names b).find? k = b.find? k := by
  induction names generalizing b with
  | nil => rfl
  | cons n rest ih =>
    rw [copied, List.foldl_cons]
    refine (ih fun m listed => others m (List.mem_cons_of_mem n listed)).trans ?_
    exact Bag.find?_put_other b _ _ (others n List.mem_cons_self)

theorem exec_copyMembers {o shadow : ObjId} (names : List Name) (apart : o ≠ shadow) (inside : shadow < w.heap.size)
    (is_open : (w.heap.get shadow).bag.frozen = false) :
    exec (copyMembers (.obj o) shadow names) w = (.ok (),
      { w with heap := w.heap.setBag shadow (copied (w.heap.get o).bag names (w.heap.get shadow).bag) }) := by
  induction names generalizing w with
  | nil =>
    rw [copied, List.foldl_nil, Heap.setBag_self]
    rfl
  | cons n rest ih =>
    let source := (w.heap.get o).bag
    let b := (w.heap.get shadow).bag.put n (source.get n.key) (source.isEnumerable n.key)
    let v : World := { w with heap := w.heap.setBag shadow b }
    have put : exec (Act.putProperty shadow n.value (source.get n.key) (source.isEnumerable n.key)) w = (.ok (), v) :=
      exec_putProperty _ _ is_open (Name.of?_value n)
    have same : v.heap.get o = w.heap.get o := Heap.get_setBag_other _ _ apart
    have new : v.heap.get shadow = { w.heap.get shadow with bag := b } := Heap.get_setBag_same _ inside
    have round : exec (copyMembers (.obj o) shadow (n :: rest)) w = exec (copyMembers (.obj o) shadow rest) v := by
      rw [copyMembers, List.forM_eq_forM, List.forM_cons]
      exact exec_bind_ok ((exec_get_bind _ w).trans put)
    rw [round, ih (by rw [Heap.size_setBag]; exact inside) (by rw [new]; exact is_open), same, new]
    simp only [v, Heap.setBag_setBag, copied, List.foldl_cons, b, source]

/-- The shadow on which the pseudo-prototype of a callable with this super constructor depends. -/
def parentShadow (w : World) (p : PluginId) (parent : Value) : ObjId :=
  (shadow? w p parent).elim (w.plugin p).roots.objectShadow (·.object)

/-- The bag of a new shadow whose pseudo-prototype stands at a position. -/
def shadowBag (w : World) (config : Config) (f : Value) (prototype : ObjId) : Bag :=
  copied (ownBag w f) (Host.members w config f)
    (({} : Bag).put (Name.ofText "prototype") (.obj prototype) false)

/-- The bag of a new pseudo-prototype whose forwarders stand from a position on. -/
def prototypeBag (w : World) (config : Config) (f : Value) (first : ObjId) : Bag :=
  forwarded first (Host.methods w config f) (({} : Bag).put (Name.ofText "constructor") f false)

/-- A heap with the two objects of a shadow at its end, which hold what ties them together. -/
def laidOut (h : Heap) (link link' f : Value) : Heap :=
  (h.push ⟨link, ({} : Bag).put (Name.ofText "prototype") (.obj (h.size + 1)) false, none⟩).push
    ⟨link', ({} : Bag).put (Name.ofText "constructor") f false, none⟩

/-- The two objects of a shadow are made with the members that tie them together. -/
theorem exec_layout {α : Type} (link link' : Value) (f : Value) (rest : ObjId → ObjId → Act α) :
    exec (do
      let shadow ← Act.begetFrom link
      let prototype ← Act.begetFrom link'
      Act.putHidden shadow (.str "prototype") (.obj prototype)
      Act.putHidden prototype (.str "constructor") f
      rest shadow prototype) w = exec (rest w.heap.size (w.heap.size + 1))
        { w with heap := laidOut w.heap link link' f } := by
  let a := w.heap.size
  let v₁ : World := { w with heap := w.heap.push { proto := link } }
  let v₂ : World := { v₁ with heap := v₁.heap.push { proto := link' } }
  let x : Obj := { proto := link, bag := ({} : Bag).put (Name.ofText "prototype") (.obj (a + 1)) false }
  let y : Obj := { proto := link', bag := ({} : Bag).put (Name.ofText "constructor") f false }
  have size₁ : v₁.heap.size = a + 1 := Array.size_push _
  have made₁ : exec (Act.begetFrom link) w = (.ok a, v₁) := exec_begetFrom link
  have made₂ : exec (Act.begetFrom link') v₁ = (.ok (a + 1), v₂) := by
    rw [exec_begetFrom, size₁]
  have first : v₂.heap.get a = { proto := link } := by
    rw [Heap.get_push_old _ (by rw [size₁]; exact Nat.lt_succ_self a), Heap.get_push_new]
  have put₁ : exec (Act.putHidden a (.str "prototype") (.obj (a + 1))) v₂ =
      (.ok (), { w with heap := (w.heap.push x).push { proto := link' } }) := by
    refine (exec_putProperty (.obj (a + 1)) false (by rw [first]) (Name.of?_str _)).trans ?_
    rw [first, Heap.setBag_push_old _ _ (by rw [size₁]; exact Nat.lt_succ_self a), Heap.setBag_push_last]
  have second : Heap.get ((w.heap.push x).push { proto := link' }) (a + 1) = { proto := link' } := by
    have last := Heap.get_push_new (w.heap.push x) { proto := link' }
    rwa [Array.size_push] at last
  have put₂ : exec (Act.putHidden (a + 1) (.str "constructor") f)
      { w with heap := (w.heap.push x).push { proto := link' } } =
        (.ok (), { w with heap := (w.heap.push x).push y }) := by
    refine (exec_putProperty f false (by rw [second]) (Name.of?_str _)).trans ?_
    have last := Heap.setBag_push_last (w.heap.push x) { proto := link' }
      (({} : Bag).put (Name.ofText "constructor") f false)
    rw [Array.size_push] at last
    rw [second, last]
  rw [exec_bind_ok made₁, exec_bind_ok made₂, exec_bind_ok put₁, exec_bind_ok put₂]
  rfl

theorem size_laidOut (h : Heap) (link link' f : Value) : (laidOut h link link' f).size = h.size + 2 := by
  rw [laidOut, Array.size_push, Array.size_push]

theorem get_laidOut (h : Heap) (link link' f : Value) (o : ObjId) : (laidOut h link link' f).get o =
    if o = h.size + 1 then ⟨link', ({} : Bag).put (Name.ofText "constructor") f false, none⟩
    else if o = h.size then ⟨link, ({} : Bag).put (Name.ofText "prototype") (.obj (h.size + 1)) false, none⟩
    else h.get o := by
  rw [laidOut, Heap.get_push, Heap.get_push, Array.size_push]

theorem size_laidOut_setBag (h : Heap) (link link' f : Value) (b : Bag) :
    ((laidOut h link link' f).setBag h.size b).size = h.size + 2 := by
  rw [Heap.size_setBag, size_laidOut]

/-- The two objects of a shadow, when the first of them has got its members. -/
theorem get_laidOut_setBag (h : Heap) (link link' f : Value) (b : Bag) :
    ((laidOut h link link' f).setBag h.size b).get h.size = ⟨link, b, none⟩ ∧
      ((laidOut h link link' f).setBag h.size b).get (h.size + 1) =
        ⟨link', ({} : Bag).put (Name.ofText "constructor") f false, none⟩ := by
  constructor
  · rw [Heap.get_setBag_same _ (by rw [size_laidOut]; exact Nat.lt_add_of_pos_right (by decide)), get_laidOut,
      if_neg (Nat.ne_of_lt (Nat.lt_succ_self _)), if_pos rfl]
  · rw [Heap.get_setBag_other _ _ (Nat.succ_ne_self _), get_laidOut, if_pos rfl]

/-- What a value owns can be copied to its new shadow. -/
theorem exec_copyMembers_laidOut (config : Config) (link link' f : Value) :
    exec (copyMembers f w.heap.size (Host.members w config f)) { w with heap := laidOut w.heap link link' f } =
      (.ok (),
        { w with heap := (laidOut w.heap link link' f).setBag w.heap.size (shadowBag w config f (w.heap.size + 1)) }) := by
  let v : World := { w with heap := laidOut w.heap link link' f }
  have first : v.heap.get w.heap.size =
      ⟨link, ({} : Bag).put (Name.ofText "prototype") (.obj (w.heap.size + 1)) false, none⟩ := by
    rw [get_laidOut, if_neg (Nat.ne_of_lt (Nat.lt_succ_self _)), if_pos rfl]
  by_cases there : ∃ o, f = .obj o ∧ o < w.heap.size
  · obtain ⟨o, rfl, inside⟩ := there
    have same : v.heap.get o = w.heap.get o := by
      rw [get_laidOut, if_neg (Nat.ne_of_lt (Nat.lt_succ_of_lt inside)), if_neg (Nat.ne_of_lt inside)]
    refine (exec_copyMembers (w := v) _ (Nat.ne_of_lt inside) ?_ (by rw [first]; rfl)).trans ?_
    · rw [size_laidOut]
      exact Nat.lt_add_of_pos_right (by decide)
    · rw [same, first]
      rfl
  · have nothing : ownBag w f = {} := by
      unfold ownBag
      split
      · next o => rw [Heap.get_of_size_le (Nat.le_of_not_lt fun inside => there ⟨o, rfl, inside⟩)]
      · rfl
    have names : Host.members w config f = [] := by
      rw [Host.members, nothing]
      rfl
    have bag : shadowBag w config f (w.heap.size + 1) = (v.heap.get w.heap.size).bag := by
      rw [first, shadowBag, names]
      rfl
    rw [bag, Heap.setBag_self, names]
    rfl

theorem copyMembers_leaves (f : Value) {shadow : ObjId} (names : List Name) (above : n ≤ shadow) :
    Leaves (.growth n) (copyMembers f shadow names) w fun _ _ => True := by
  refine .forM (I := fun _ => True) trivial fun m _ v _ _ => ?_
  split
  · exact .bind_get ((putProperty_leaves shadow _ _ _ above).conseq fun _ _ _ _ => trivial)
  · exact .pure trivial

/-- The world with the two objects of a new shadow at the end of its heap, the members copied. -/
def laid (w : World) (p : PluginId) (f : Value) (q : ObjId) : World :=
  { w with
    heap := (laidOut w.heap (.obj (w.plugin p).roots.functionPrototype) (.obj q) f).setBag w.heap.size
      (shadowBag w (w.plugin p).config f (w.heap.size + 1)) }

theorem size_laid (w : World) (p : PluginId) (f : Value) (q : ObjId) : (laid w p f q).heap.size = w.heap.size + 2 :=
  size_laidOut_setBag _ _ _ _ _

theorem get_laid (w : World) (p : PluginId) (f : Value) (q : ObjId) :
    (laid w p f q).heap.get w.heap.size =
        ⟨.obj (w.plugin p).roots.functionPrototype, shadowBag w (w.plugin p).config f (w.heap.size + 1), none⟩ ∧
      (laid w p f q).heap.get (w.heap.size + 1) =
        ⟨.obj q, ({} : Bag).put (Name.ofText "constructor") f false, none⟩ :=
  get_laidOut_setBag _ _ _ _ _

/-- The making of the two objects: they are tied together, and what the callable owns is copied. -/
def layOut (w : World) (p : PluginId) (f : Value) (q : ObjId) : Act Unit := do
  let shadow ← Act.begetFrom (.obj (w.plugin p).roots.functionPrototype)
  let prototype ← Act.begetFrom (.obj q)
  Act.putHidden shadow (.str "prototype") (.obj prototype)
  Act.putHidden prototype (.str "constructor") f
  copyMembers f shadow (Host.members w (w.plugin p).config f)

theorem exec_layOut (w : World) (p : PluginId) (f : Value) (q : ObjId) :
    exec (layOut w p f q) w = (.ok (), laid w p f q) := by
  rw [layOut, exec_layout, exec_copyMembers_laidOut]
  rfl

theorem grows_laid (w : World) (p : PluginId) (f : Value) (q : ObjId) : Grows w.heap.size w (laid w p f q) := by
  have making : Leaves (.growth w.heap.size) (layOut w p f q) w fun _ _ => True := by
    refine .bind (begetFrom_linked_leaves _ (Nat.le_refl _)) fun shadow v₁ _ ⟨first, linked₁⟩ => ?_
    have above : w.heap.size ≤ shadow := Nat.le_of_eq first.symm
    have room : w.heap.size ≤ v₁.heap.size := Nat.le_trans above (Nat.le_of_lt linked₁.1)
    refine .bind (begetFrom_linked_leaves _ room) fun prototype v₂ _ ⟨second, _⟩ => ?_
    have above' : w.heap.size ≤ prototype := Nat.le_trans room (Nat.le_of_eq second.symm)
    refine .bind (putProperty_leaves shadow _ _ false above) fun _ v₃ _ _ => ?_
    refine .bind (putProperty_leaves prototype _ _ false above') fun _ v₄ _ _ => ?_
    exact copyMembers_leaves f _ above
  exact (making.of_run (exec_layOut w p f q)).1

/-- Neither object of a new shadow is a host function. -/
theorem hostFn?_laid (w : World) (p : PluginId) (f : Value) (q o : ObjId) :
    (laid w p f q).heap.hostFn? o = w.heap.hostFn? o := by
  have new (a : ObjId) (after : w.heap.size ≤ a) : w.heap.hostFn? a = none := by
    rw [Heap.hostFn?, Heap.get_of_size_le after]
  show Heap.hostFn? (Heap.setBag _ _ _) o = _
  rw [Heap.hostFn?, (Heap.get_setBag_shape _ _ _ _).2, get_laidOut]
  split
  · next last => rw [last, new _ (Nat.le_succ _)]
  · split
    · next first => rw [first, new _ (Nat.le_refl _)]
    · rfl

/-! ## The run of `build` -/

/-- The world in which a shadow is entered in the table of a plugin, after all others. -/
def registered (w : World) (p : PluginId) (c : Category) (s : Shadow) : World :=
  { w with
    plugins := w.plugins.modify p fun x => { x with shadows := ⟨(w.plugin p).shadows.entries ++ [(c, s)]⟩ } }

theorem exec_register {c : Category} {s : Shadow} (free : (w.plugin p).shadows.find? c = none) :
    exec (register p c s) w = (.ok (), registered w p c s) := by
  have inserted : (w.plugin p).shadows.insert? c s = some ⟨(w.plugin p).shadows.entries ++ [(c, s)]⟩ := by
    rw [Registry.insert?, Registry.contains_eq, free]
    rfl
  rw [register, exec_get_bind, inserted]
  rfl

theorem plugin_registered {c : Category} {s : Shadow} (bound : p < w.plugins.size) :
    (registered w p c s).plugin p = (w.plugin p).extend [(c, s)] := by
  rw [World.plugin, registered, Array.getElem?_modify, if_pos rfl, Array.getElem?_eq_getElem bound]
  simp only [Plugin.extend, World.plugin, Array.getElem?_eq_getElem bound]
  rfl

/-- Whether its line can be written or not, a word to the log changes nothing but the log. It stops just if there is a
log and the line cannot be written. -/
theorem say_ends (line : World → Except Fault LogLine) : ∃ r log, exec (say line) w = (r, { w with log := log }) ∧
    (r = .ok () ↔ (w.logging = true → Answered (line w))) ∧ ∀ e, r = .error e → line w = .error e := by
  rw [say, exec_get_bind]
  by_cases logs : w.logging = true
  · rw [if_pos logs]
    cases made : line w with
    | error e =>
      refine ⟨.error e, w.log, rfl, iff_of_false (by rintro ⟨⟩) fun able => ?_, fun e' same => ?_⟩
      · exact Answered.not_error e (able logs)
      · rw [Except.error.inj same]
    | ok l => exact ⟨.ok (), w.log.push l, rfl, iff_of_true rfl fun _ => .ok l, by rintro e ⟨⟩⟩
  · rw [if_neg logs]
    exact ⟨.ok (), w.log, rfl, iff_of_true rfl fun on => absurd on logs, by rintro e ⟨⟩⟩

/-- What is left to do when the objects of a shadow are there: the shadow is entered in the table under its category, and
a line on it is written to the log. -/
def enter (w : World) (p : PluginId) (f parent : Value) : Act Unit :=
  match Host.category? w f with
  | some c => do
    register p c ⟨w.heap.size, w.heap.size + 1⟩
    Act.say fun v => return .newShadow (← v.describe f) c.describe (← v.describe parent)
  | none => pure ()

/-- Where it is known what the pseudo-prototype descends from, the run goes on from a world with both objects. -/
theorem exec_build (above : Host.superConstructor w (w.plugin p).host f = .ok parent)
    (link : parentPrototype w (w.plugin p).roots (parentShadow w p parent) = .ok q) :
    exec (build p f) w = exec (do
      addForwarders (w.plugin p) (w.heap.size + 1)
        (← Host.methodNames w f (Host.excludeCoercion (w.plugin p).config))
      enter w p f parent) (laid w p f q) := by
  have linked : parentPrototype w (w.plugin p).roots
      ((shadow? w p parent).elim (w.plugin p).roots.objectShadow (·.object)) = .ok q := link
  rw [build, exec_get_bind]
  dsimp only
  rw [above, exec_lift_ok_bind, linked, exec_lift_ok_bind, exec_layout, Host.ownNames_eq, exec_lift_ok_bind,
    exec_bind_ok (exec_copyMembers_laidOut _ _ _ _)]
  unfold enter
  cases Host.category? w f <;> rfl

/-- Making a shadow stops at a question, in the world where it began, or goes on from a world with both objects. -/
theorem build_cases (w : World) (p : PluginId) (f : Value) :
    (∃ e, e.isReport = false ∧ exec (build p f) w = (.error e, w)) ∨
    ∃ parent q, Host.superConstructor w (w.plugin p).host f = .ok parent ∧
      parentPrototype w (w.plugin p).roots (parentShadow w p parent) = .ok q ∧
      exec (build p f) w = exec (do
        addForwarders (w.plugin p) (w.heap.size + 1)
          (← Host.methodNames w f (Host.excludeCoercion (w.plugin p).config))
        enter w p f parent) (laid w p f q) := by
  have ordinary := Host.superConstructor_noReport w (w.plugin p).host f
  cases above : Host.superConstructor w (w.plugin p).host f with
  | error e =>
    refine .inl ⟨e, ordinary e above, ?_⟩
    rw [build, exec_get_bind]
    dsimp only
    rw [above]
    rfl
  | ok parent =>
    have ordinary' := parentPrototype_noReport w (w.plugin p).roots (parentShadow w p parent)
    cases link : parentPrototype w (w.plugin p).roots (parentShadow w p parent) with
    | ok q => exact .inr ⟨parent, q, rfl, link, exec_build above link⟩
    | error e =>
      refine .inl ⟨e, ordinary' e link, ?_⟩
      have linked : parentPrototype w (w.plugin p).roots
          ((shadow? w p parent).elim (w.plugin p).roots.objectShadow (·.object)) = .error e := link
      rw [build, exec_get_bind]
      dsimp only
      rw [above, exec_lift_ok_bind, linked]
      rfl

/-- The objects of a new shadow of the callable are there, and the table does not know of it yet. -/
structure Assembled (p : PluginId) (f : Value) (q : ObjId) (w u : World) : Prop where
  grown : Grows w.heap.size w u
  size : u.heap.size = w.heap.size + 2 + 2 * (Host.methods w (w.plugin p).config f).length
  shadow : u.heap.get w.heap.size =
    ⟨.obj (w.plugin p).roots.functionPrototype, shadowBag w (w.plugin p).config f (w.heap.size + 1), none⟩
  prototype : u.heap.get (w.heap.size + 1) =
    ⟨.obj q, prototypeBag w (w.plugin p).config f (w.heap.size + 2), none⟩
  forwarders : Forwarders u (w.plugin p) (Host.methods w (w.plugin p).config f)
    (places (w.heap.size + 2) (Host.methods w (w.plugin p).config f))

/-- The forwarders are the last that a new shadow needs. -/
theorem addForwarders_assembles (w : World) (p : PluginId) (f : Value) (q : ObjId) :
    Leaves (.growth w.heap.size)
      (addForwarders (w.plugin p) (w.heap.size + 1) (Host.methods w (w.plugin p).config f)) (laid w p f q)
      fun _ u => Assembled p f q w u := by
  have size := size_laid w p f q
  obtain ⟨shadow, prototype⟩ := get_laid w p f q
  have laying := grows_laid w p f q
  have inside : w.heap.size + 1 < (laid w p f q).heap.size := by
    rw [size]
    exact Nat.lt_succ_self _
  refine (addForwarders_leaves _ _ (Nat.le_succ _) laying.size_le inside).conseq fun _ u further post => ?_
  obtain ⟨size', forwarders, held, others⟩ := post
  rw [size] at size' forwarders held
  refine ⟨laying.trans further, size', ?_, ?_, forwarders⟩
  · rw [others _ (Nat.lt_of_succ_lt inside) (Nat.ne_of_lt (Nat.lt_succ_self _)), shadow]
  · rw [held, prototype]
    rfl

end Plugin

end Overlay
