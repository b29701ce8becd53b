import Mathlib.Data.List.Nodup
import Overlay.Proofs.Building
import Overlay.Proofs.Evaluation

/-!
# Heaps are well formed

In a run whose effects are given values of their worlds, and null or an object wherever an object or a host function is
made with a link or a prototype, every link leads to an object made strictly earlier. Links never change, so the walk
along them ends and is the same for ever, and with it the tag that a plugin sees. The names of an object are distinct
in any run. Scripts make such runs: what they give to the makers of objects can be read off the heap afterwards, since
a link and a prototype stay what they were when the object was made.
-/

namespace Overlay
set_option autoImplicit false

open Act World

/-! ## Names -/

namespace Bag
variable {b : Bag}

/-- The keys of the names, in order. -/
def keys (b : Bag) : List Key :=
  b.props.map (·.name.key)

/-- The keys of the names that enumerations leave out. -/
def hidden (b : Bag) : List Key :=
  (b.props.filter fun p => !p.enumerable).map (·.name.key)

theorem nodup_insert {props : List Property} (q : Property) (distinct : (props.map (·.name.key)).Nodup) :
    ((insert props q).map (·.name.key)).Nodup := by
  unfold insert
  split
  · -- a property that is replaced keeps its name
    have same : (props.map fun r => if r.name.key == q.name.key then { q with name := r.name } else r).map (·.name.key) =
        props.map (·.name.key) := by
      rw [List.map_map]
      apply List.map_congr_left
      intro r _
      simp only [Function.comp]
      split <;> rfl
    rw [same]
    exact distinct
  · rename_i absent
    rw [List.map_append]
    refine distinct.append (List.nodup_singleton _) ?_
    intro k old new
    obtain ⟨r, here, rfl⟩ := List.mem_map.1 old
    have equal : r.name.key = q.name.key := by simpa using new
    exact absent (List.any_eq_true.2 ⟨r, here, by simp [equal]⟩)

theorem nodup_ofMembers (members : List (Name × Value)) : (Bag.ofMembers members).keys.Nodup := by
  have fold (props : List Property) (distinct : (props.map (·.name.key)).Nodup) :
      ((members.foldl (fun props m => insert props ⟨m.1, m.2, true⟩) props).map (·.name.key)).Nodup := by
    induction members generalizing props with
    | nil => exact distinct
    | cons m rest ih => exact ih _ (nodup_insert _ distinct)
  exact fold [] List.nodup_nil

theorem nodup_erase (k : Key) (distinct : b.keys.Nodup) : (b.erase k).keys.Nodup :=
  distinct.sublist (List.filter_sublist.map _)

/-- Where keys are distinct, a property is the one that its key finds. -/
theorem find?_of_mem (distinct : b.keys.Nodup) {p : Property} (listed : p ∈ b.props) : b.find? p.name.key = some p := by
  cases found : b.find? p.name.key with
  | none =>
    have other := List.find?_eq_none.1 found p listed
    simp at other
  | some q =>
    have here := List.mem_of_find?_eq_some found
    have key : q.name.key = p.name.key := by simpa using List.find?_some found
    rw [List.inj_on_of_nodup_map distinct here listed key]

/-- The hidden names are own names: those that enumerations leave out. -/
theorem mem_hidden_iff (distinct : b.keys.Nodup) {k : Key} :
    k ∈ b.hidden ↔ b.owns k = true ∧ b.isEnumerable k = false := by
  constructor
  · intro listed
    obtain ⟨p, kept, rfl⟩ := List.mem_map.1 listed
    obtain ⟨here, unseen⟩ := List.mem_filter.1 kept
    have found := find?_of_mem distinct here
    rw [owns_eq, isEnumerable, found]
    simpa using unseen
  · rintro ⟨owned, unseen⟩
    rw [owns_eq] at owned
    obtain ⟨p, found⟩ := Option.isSome_iff_exists.1 owned
    rw [isEnumerable, found] at unseen
    have key : p.name.key = k := by simpa using List.find?_some found
    rw [← key]
    refine List.mem_map.2 ⟨p, List.mem_filter.2 ⟨List.mem_of_find?_eq_some found, ?_⟩, rfl⟩
    simpa using unseen

end Bag

namespace Heap
variable {h k : Heap} {o p : ObjId}

/-- No object has two properties of one name. -/
def Distinct (h : Heap) : Prop :=
  ∀ o, (h.get o).bag.keys.Nodup

theorem Distinct.setBag {b : Bag} (distinct : h.Distinct) (new : b.keys.Nodup) : (h.setBag o b).Distinct := by
  intro p
  by_cases same : p = o
  · subst same
    by_cases inside : p < h.size
    · rw [get_setBag_same b inside]
      exact new
    · rw [get_of_size_le (by rw [size_setBag]; exact Nat.le_of_not_lt inside)]
      exact List.nodup_nil
  · rw [get_setBag_other h b same]
    exact distinct p

theorem Change.distinct (change : Change h k) (distinct : h.Distinct) : k.Distinct := by
  cases change with
  | make proto members host =>
    intro o
    rw [get_push]
    split
    · exact Bag.nodup_ofMembers members
    · exact distinct o
  | put o name value enumerable _ => exact distinct.setBag (Bag.nodup_insert _ (distinct o))
  | erase o k _ => exact distinct.setBag (Bag.nodup_erase k (distinct o))
  | freeze o => exact distinct.setBag (distinct o)

theorem Changes.distinct (changes : Changes h k) (distinct : h.Distinct) : k.Distinct := by
  induction changes with
  | refl => exact distinct
  | tail _ change ih => exact change.distinct ih

/-! ## Walks -/

/-- The walk along the links from an object passes the objects of the list and ends at null. -/
inductive Walk (h : Heap) : ObjId → List ObjId → Prop
  | last {o : ObjId} (link : (h.get o).proto = .null) : Walk h o []
  | next {o p : ObjId} {l : List ObjId} (link : (h.get o).proto = .obj p) (rest : Walk h p l) : Walk h o (p :: l)

/-- What is to hold of the object at a position. Its link is null or leads to an object made strictly earlier, so the
walk along the links ends, and whatever is asked on the way has an answer. Its names are distinct, and the hidden ones
are own names. -/
structure WellFormed (h : Heap) (o : ObjId) : Prop where
  link : (h.get o).proto = .null ∨ ∃ q, (h.get o).proto = .obj q ∧ q < o
  walk : h.Walk o (h.ancestors o)
  chain : h.atEnd o (h.ancestors o) = .ok (h.ancestors o)
  has : ∀ k, h.has o k = .ok ((h.path o).any (h.owns · k))
  lookup : ∀ k, h.lookup o k = .ok ((h.owner? o k).elim .undefined fun q => (h.get q).bag.get k)
  enumerable : h.enumerableKeys o = .ok (enumerableFrom [] ((h.path o).map fun q => (h.get q).bag))
  inherits : ∀ p, h.inherits o p = .ok ((h.ancestors o).contains p)
  names : (h.get o).bag.keys.Nodup
  hidden : ∀ k, k ∈ (h.get o).bag.hidden ↔ (h.get o).bag.owns k = true ∧ (h.get o).bag.isEnumerable k = false

/-- On a whole path every question that walks has the answer that the path gives. -/
theorem wellFormed_of_walk (link : (h.get o).proto = .null ∨ ∃ q, (h.get o).proto = .obj q ∧ q < o)
    (walk : h.Walk o (h.ancestors o)) (whole : h.isWhole o = true) (distinct : h.Distinct) : h.WellFormed o := by
  have ends {α : Type} (a : α) : h.atEnd o a = .ok a := by rw [atEnd, if_pos whole]
  have searched (k : Key) : h.search o k = .ok ((h.owner? o k).map fun q => (h.get q).bag.get k) := by
    rw [search]
    cases h.owner? o k with
    | none => exact ends none
    | some q => rfl
  refine ⟨link, walk, ends _, fun k => ?_, fun k => ?_, ends _, fun p => ?_, distinct o, fun k => Bag.mem_hidden_iff (distinct o)⟩
  · rw [Heap.has, searched, owner?, ← List.isSome_find?]
    cases (h.path o).find? (h.owns · k) <;> rfl
  · rw [Heap.lookup, searched]
    cases h.owner? o k <;> rfl
  · rw [Heap.inherits]
    cases (h.ancestors o).contains p with
    | true => rfl
    | false => exact ends false

end Heap

theorem Reachable.distinct {w : World} (reachable : Reachable w) : w.heap.Distinct := by
  have start : World.initial.heap.Distinct := fun o => by
    match o with
    | 0 => exact List.nodup_nil
    | o + 1 => exact List.nodup_nil
  exact (Execution.advances World.initial_sound reachable).trail.distinct start

namespace World
variable {w v : World}

theorem Intact.link (intact : w.Intact True) (o : ObjId) :
    (w.heap.get o).proto = .null ∨ ∃ q, (w.heap.get o).proto = .obj q ∧ q < o := by
  have fits := intact.objects o
  rcases fits.linked trivial with null | ⟨q, link⟩
  · exact .inl null
  · refine .inr ⟨q, link, ?_⟩
    have below := fits.link
    rw [link] at below
    exact Datum.below_obj.1 below

/-- The walk from an object ends, by induction on its position. -/
theorem Intact.walk (intact : w.Intact True) (o : ObjId) :
    w.heap.Walk o (w.heap.ancestors o) ∧ w.heap.isWhole o = true := by
  induction o using Nat.strongRecOn with
  | ind o ih =>
    rw [Heap.ancestors, Heap.isWhole]
    rcases intact.link o with null | ⟨q, link, back⟩
    · rw [null]
      exact ⟨.last null, rfl⟩
    · obtain ⟨rest, whole⟩ := ih q back
      rw [link]
      simp only [if_pos back]
      exact ⟨.next link rest, whole⟩

end World

/-! ## Tags -/

namespace Plugin
variable {w v : World} {p : PluginId}

theorem typeTag_congr {x : Value} (same : v.isCallable x = w.isCallable x) : v.typeTag x = w.typeTag x := by
  unfold World.typeTag
  split <;> first | rfl | rw [same]

/-- A plugin sees a callable as a function. -/
theorem typeOf_of_callable {f : Value} (callable : w.isCallable f = true) : typeOf w p f = .ok .function := by
  have tag : w.typeTag f = .function := by
    have word := World.tagWord_eq_function w f
    rw [callable, World.tagWord] at word
    revert word
    cases w.typeTag f <;> decide
  unfold typeOf
  rw [tag]

/-- A plugin sees an object that is linked to its patchable prototype of functions as a function. -/
theorem typeOf_of_linked {o : ObjId} (linked : w.heap.Linked o (.obj (w.plugin p).roots.functionPrototype))
    (above : (w.plugin p).roots.functionPrototype < o) : typeOf w p (.obj o) = .ok .function := by
  cases callable : w.isCallable (.obj o) with
  | true => exact typeOf_of_callable callable
  | false =>
    have tag : w.typeTag (.obj o) = .object := by
      change (if w.isCallable (.obj o) then TypeTag.function else .object) = .object
      rw [callable]
      rfl
    have inherits : w.heap.inherits o (w.plugin p).roots.functionPrototype = .ok true := by
      rw [Heap.inherits, Heap.ancestors_of_linked linked above, Heap.path]
      simp
    unfold typeOf
    rw [tag]
    simp only [inherits]
    rfl

/-- The tag that a plugin sees depends on nothing that changes. -/
theorem typeOf_later (bound : p < w.plugins.size) (advances : Advances w v) {x : Value}
    (below : x.Below w.heap.size) : typeOf v p x = typeOf w p x := by
  have shape := advances.trail.sameShape
  have roots : (v.plugin p).roots = (w.plugin p).roots := by
    obtain ⟨more, same⟩ := advances.shadows p bound
    rw [same, Plugin.extend]
  have callable : v.isCallable x = w.isCallable x := by
    unfold World.isCallable World.hostFn?
    split
    · rfl
    · split
      · rename_i o _
        rw [Heap.hostFn?, shape.host o (Datum.below_obj.1 below), Heap.hostFn?]
      · rfl
  unfold typeOf
  rw [typeTag_congr callable, roots]
  split
  · rename_i o _
    obtain ⟨path, whole⟩ := shape.path (Datum.below_obj.1 below)
    rw [Heap.inherits, Heap.inherits, path, Heap.atEnd, Heap.atEnd, whole]
  · rfl

/-- Where every walk ends, every value has a tag. -/
theorem typeOf_ends (intact : w.Intact True) (x : Value) : ∃ tag, typeOf w p x = .ok tag := by
  unfold typeOf
  split
  · rename_i o _
    rw [Heap.inherits, Heap.atEnd, if_pos (intact.walk o).2]
    split
    · exact ⟨_, rfl⟩
    · exact ⟨_, rfl⟩
  · exact ⟨_, rfl⟩

end Plugin

/-! ## What the makers of objects were given -/

/-- The effect is given values of its world, and null or an object wherever it makes an object or a host function with a
link or a prototype. -/
def Effect.Lawful (w : World) (d : Effect) : Prop :=
  d.Given True w

/-- Whatever objects and host functions were given as links and prototypes is null or an object. -/
def Heap.LinksGiven (h : Heap) : Prop :=
  ∀ o, IsLink (h.get o).proto ∧ ∀ f, h.hostFn? o = some f → IsLink f.prototype

instance (v : Value) : Decidable (IsLink v) :=
  match v with
  | .null => .isTrue (.inl rfl)
  | .obj o => .isTrue (.inr ⟨o, rfl⟩)
  | .undefined | .bool _ | .int _ | .float _ | .nan _ | .str _ | .list _ _ | .record _ | .fn _ | .ref (.table _)
  | .ref (.host _) | .ref (.plugin _) => .isFalse (by simp [IsLink])

/-- What the heap shows of its objects tells whether they were given links. -/
theorem Heap.linksGiven_iff {h : Heap} : h.LinksGiven ↔
    ∀ x ∈ h.toList, IsLink x.proto ∧ (x.host.all fun f => decide (IsLink f.prototype)) = true := by
  constructor
  · intro given x listed
    obtain ⟨o, here⟩ := List.mem_iff_getElem?.1 listed
    have same : h.get o = x := by
      rw [Heap.get, ← Array.getElem?_toList, here]
      rfl
    obtain ⟨link, prototype⟩ := given o
    rw [Heap.hostFn?] at prototype
    rw [same] at link prototype
    refine ⟨link, ?_⟩
    cases host : x.host with
    | none => rfl
    | some f => exact decide_eq_true (prototype f host)
  · intro shown o
    rcases Nat.lt_or_ge o h.size with inside | out
    · have listed : h.get o ∈ h.toList := by
        rw [Heap.get, Array.getElem?_eq_getElem inside]
        exact Array.getElem_mem_toList inside
      obtain ⟨link, prototype⟩ := shown _ listed
      refine ⟨link, fun f host => ?_⟩
      rw [Heap.hostFn?] at host
      rw [host] at prototype
      exact of_decide_eq_true prototype
    · rw [Heap.hostFn?, Heap.get_of_size_le out]
      exact ⟨.inl rfl, by rintro f ⟨⟩⟩

instance (h : Heap) : Decidable h.LinksGiven :=
  decidable_of_iff _ Heap.linksGiven_iff.symm

/-- An effect whose makers were given links and prototypes that the heap shows to be lawful is lawful, or changes no more
than a lawful one. -/
theorem Effect.exists_lawful {w v : World} {d : Effect} (given : d.Given False w)
    (later : (d.after w).heap.Changes v.heap)
    (links : v.heap.LinksGiven) : ∃ d' : Effect, d'.Lawful w ∧ d'.after w = d.after w := by
  have shape := later.sameShape
  cases d with
  | newObject proto members =>
    refine ⟨.newObject proto members, ⟨given.1, given.2.1, fun _ => ?_⟩, rfl⟩
    have made : (Effect.after w (.newObject proto members)).heap = w.heap.push ⟨proto, .ofMembers members, none⟩ := rfl
    rw [made] at shape
    have link : (v.heap.get w.heap.size).proto = proto := by
      rw [shape.proto w.heap.size (by simp), Heap.get_push_new]
    rw [← link]
    exact (links w.heap.size).1
  | newFunction impl s proto prototype =>
    obtain ⟨code, signed, below, below', -⟩ := given
    cases sourced : s.sourceIn (Host.drawn w) with
    | error e =>
      refine ⟨.newFunction impl s .null .null, ⟨code, signed, Datum.below_null, Datum.below_null,
        fun _ => ⟨.inl rfl, .inl rfl⟩⟩, ?_⟩
      rw [Effect.after, Effect.after, Host.exec_newFunction_error impl _ _ sourced,
        Host.exec_newFunction_error impl _ _ sourced]
    | ok source =>
      refine ⟨.newFunction impl s proto prototype, ⟨code, signed, below, below', fun _ => ?_⟩, rfl⟩
      have made : (Effect.after w (.newFunction impl s proto prototype)).heap =
          w.heap.push (Host.newObject w impl s proto prototype source) := by
        rw [Effect.after, Host.exec_newFunction impl proto prototype sourced]
      rw [made] at shape
      have link : (v.heap.get w.heap.size).proto = proto := by
        rw [shape.proto w.heap.size (by simp), Heap.get_push_new]
        rfl
      have host := shape.host w.heap.size (by simp)
      rw [Heap.get_push_new] at host
      refine ⟨?_, (links w.heap.size).2 _ host⟩
      rw [← link]
      exact (links w.heap.size).1
  | newFn f => exact ⟨.newFn f, given, rfl⟩
  | put o name value e => exact ⟨.put o name value e, given, rfl⟩
  | erase o name => exact ⟨.erase o name, given, rfl⟩
  | freeze o => exact ⟨.freeze o, given, rfl⟩
  | defineFunction h impl s => exact ⟨.defineFunction h impl s, given, rfl⟩
  | defineConstructor h s init parent methods statics =>
    exact ⟨.defineConstructor h s init parent methods statics, given, rfl⟩
  | makeHost => exact ⟨.makeHost, given, rfl⟩
  | registerPrimitive h kind ctor => exact ⟨.registerPrimitive h kind ctor, given, rfl⟩
  | makePlugin h config outers => exact ⟨.makePlugin h config outers, given, rfl⟩
  | shadowOf p f => exact ⟨.shadowOf p f, given, rfl⟩
  | emulate p raw name => exact ⟨.emulate p raw name, given, rfl⟩
  | forwarder p name => exact ⟨.forwarder p name, given, rfl⟩

/-- A run whose effects are given values of their worlds is lawful if the heap it leads to shows that the makers of objects
and host functions were given null or objects. The induction is from the end, where the heap is. -/
theorem ExecutionUnder.lawful {w v : World} (execution : ExecutionUnder (fun u d => d.Given False u) w v)
    (sound : w.Sound)
    (links : v.heap.LinksGiven) : ExecutionUnder Effect.Lawful w v := by
  induction execution using Relation.ReflTransGen.head_induction_on with
  | refl => exact .refl
  | head step rest ih =>
    have first := Transition.advances sound step.transition
    have later := Execution.advances first.sound (ExecutionUnder.execution rest)
    cases step with
    | aside h => exact .head (.aside h) (ih first.sound)
    | effect d given =>
      obtain ⟨d', lawful, same⟩ := d.exists_lawful given later.trail links
      exact .head (same ▸ .effect d' lawful) (ih first.sound)

/-- Where a run of lawful effects has led, every object is well formed. -/
theorem ReachableUnder.wellFormed {w : World} (reachable : ReachableUnder Effect.Lawful w) (o : ObjId) :
    w.heap.WellFormed o := by
  have intact : w.Intact True := ReachableUnder.intact reachable
  obtain ⟨walk, whole⟩ := intact.walk o
  exact Heap.wellFormed_of_walk (intact.link o) walk whole reachable.reachable.distinct

namespace Plugin
variable {w v : World} {p : PluginId}

/-- What `emulate` answers is linked to the patchable prototype of functions. -/
theorem emulate_linked {raw name x : Value} (ran : exec (emulate p raw name) w = (.ok x, v)) :
    ∃ o, x = .obj o ∧ w.heap.size ≤ o ∧ v.heap.Linked o (.obj (w.plugin p).roots.functionPrototype) := by
  have leaves : Leaves (.growth w.heap.size) (emulate p raw name) w fun x v => ∃ o, x = .obj o ∧ w.heap.size ≤ o ∧
      v.heap.Linked o (.obj (w.plugin p).roots.functionPrototype) := by
    refine .bind_get (.bind (Emulation.emulate_leaves _ _ raw name (Nat.le_refl _)) fun o u _ made => .pure ?_)
    exact ⟨o, rfl, made.1, made.2.2⟩
  have made := leaves.value x (by rw [ran])
  rw [ran] at made
  exact made

end Plugin

namespace Script

/-- The heap stays well formed. Wherever a run has led whose effects are given values of their worlds, and null or an
object for every link and prototype, each object is well formed: its link is null or leads to an object made strictly
earlier, the walk along the links ends and every question that walks is answered, its names are distinct and its hidden
names are own names. Later in the run all links and walks are the same. So a plugin sees each value of the world with
one tag at all times, and sees callables, its shadows and what it emulates as functions for ever.

Scripts whose data refer to no object make such runs, between their steps and in the middle of them. In all of them
links lead to earlier objects; what a script gave to the makers of objects and host functions is what the heap shows
of them, for links and prototypes never change. -/
theorem heap_stays_well_formed :
    (∀ w, ReachableUnder Effect.Lawful w → (∀ o, w.heap.WellFormed o) ∧ ∀ v, ExecutionUnder Effect.Lawful w v →
      (∀ o, o < w.heap.size →
        (v.heap.get o).proto = (w.heap.get o).proto ∧ v.heap.ancestors o = w.heap.ancestors o) ∧
      ∀ p, p < w.plugins.size →
        (∀ x, x.Below w.heap.size → ∃ tag, Plugin.typeOf w p x = .ok tag ∧ Plugin.typeOf v p x = .ok tag) ∧
        (∀ f, w.isCallable f = true → Plugin.typeOf v p f = .ok .function) ∧
        (∀ e ∈ (w.plugin p).shadows.entries, Plugin.typeOf v p (.obj e.2.object) = .ok .function) ∧
        ∀ u raw name x, exec (Plugin.emulate p raw name) u = (.ok x, w) → Plugin.typeOf v p x = .ok .function) ∧
    ∀ settings logging w, start settings logging = .ok w → ∀ depth steps, (∀ s ∈ steps, s.Plain) →
      (∀ v ∈ worlds depth w steps, (∀ o q, (v.heap.get o).proto = .obj q → q < o) ∧
        (v.heap.LinksGiven → ReachableUnder Effect.Lawful v)) ∧
      (worlds depth w steps).Pairwise fun u v => v.heap.LinksGiven → ExecutionUnder Effect.Lawful u v := by
  refine ⟨fun w reachable => ⟨reachable.wellFormed, fun v execution => ?_⟩,
    fun settings logging w started depth steps plain => ?_⟩
  · have sound := reachable.reachable.sound
    have intact : w.Intact True := ReachableUnder.intact reachable
    have advances := Execution.advances sound (ExecutionUnder.execution execution)
    have shape := advances.trail.sameShape
    refine ⟨fun o inside => ⟨shape.proto o inside, (shape.path inside).1⟩, fun p bound => ?_⟩
    have still {x : Value} (below : x.Below w.heap.size) : Plugin.typeOf v p x = Plugin.typeOf w p x :=
      Plugin.typeOf_later bound advances below
    refine ⟨fun x below => ?_, fun f callable => ?_, fun e registered => ?_, fun u raw name x ran => ?_⟩
    · obtain ⟨tag, seen⟩ := Plugin.typeOf_ends (p := p) intact x
      exact ⟨tag, seen, (still below).trans seen⟩
    · rw [still (intact.callable callable)]
      exact Plugin.typeOf_of_callable callable
    · obtain ⟨linked, above⟩ := (sound.plugins p bound).shadows e registered
      rw [still (Datum.below_obj.2 linked.1)]
      exact Plugin.typeOf_of_linked linked above
    · obtain ⟨o, rfl, -, linked⟩ := Plugin.emulate_linked ran
      have grown := (Plugin.emulate_leaves (w := u) p raw name).world
      rw [ran] at grown
      rw [← Grows.plugin grown p] at linked
      have above : (w.plugin p).roots.functionPrototype < o := by
        rcases intact.link o with null | ⟨q, link, back⟩
        · rw [linked.2] at null
          cases null
        · rw [linked.2] at link
          cases link
          exact back
      rw [still (Datum.below_obj.2 linked.1)]
      exact Plugin.typeOf_of_linked linked above
  · have first := start_handled started
    obtain ⟨pairwise, reached⟩ := worlds_handled depth first.sane plain
    refine ⟨fun v here => ⟨fun o q link => ?_, fun given => ?_⟩, ?_⟩
    · have below := ((reached v here).sane.intact.objects o).link
      rw [link] at below
      exact Datum.below_obj.1 below
    · exact (first.trans (reached v here)).execution.lawful World.initial_sound given
    · refine pairwise.imp_of_mem fun {u v} here _ handled given => ?_
      have sound : u.Sound :=
        (start_reachable started).execution (ExecutionUnder.execution (reached u here).execution) |>.sound
      exact handled.execution.lawful sound given

/-- Two raw objects, one linked to the other, a raw host function with the second as its prototype, and an emulated
function. -/
def rawSteps : List Step :=
  [.named "a" (.new (.datum .null) [] []), .named "b" (.new (.var "a") [] []),
    .named "f" (.hostFunction (.str "f") (.var "len") (.var "a") (.var "b") .null .null),
    .named "d" (.compute (.plugin "v" .emulate) [.var "len"])]

theorem heap_stays_well_formed_raw : ∃ w v, start {} false = .ok w ∧ v ∈ worlds stackDepth w rawSteps ∧
    v.heap.LinksGiven ∧ w.heap.size < v.heap.size ∧ (∀ o, v.heap.WellFormed o) ∧
    ∀ x, x.Below w.heap.size → ∃ tag, Plugin.typeOf w 0 x = .ok tag ∧ Plugin.typeOf v 0 x = .ok tag := by
  have checked : (start {} false).toOption.any (fun w => decide (w.plugins.size = 1) &&
      (worlds stackDepth w rawSteps).all (fun v => decide v.heap.LinksGiven) &&
      ((worlds stackDepth w rawSteps).getLast?.any fun v => decide (w.heap.size < v.heap.size))) = true := by
    decide +kernel
  rcases started : start {} false with _ | w
  · rw [started] at checked
    cases checked
  · rw [started] at checked
    simp only [Except.toOption, Option.any_some, Bool.and_eq_true, decide_eq_true_eq, List.all_eq_true] at checked
    obtain ⟨⟨one, given⟩, grown⟩ := checked
    cases last : (worlds stackDepth w rawSteps).getLast? with
    | none =>
      rw [last] at grown
      cases grown
    | some v =>
      rw [last] at grown
      have larger : w.heap.size < v.heap.size := of_decide_eq_true grown
      have here : v ∈ worlds stackDepth w rawSteps := List.mem_of_getLast? last
      have plain : ∀ s ∈ rawSteps, s.Plain := by
        simp [rawSteps, Step.Plain, Expr.Plain, PlainArgs, PlainMembers]
      obtain ⟨lawful, scripts⟩ := heap_stays_well_formed
      obtain ⟨reached, executions⟩ := scripts {} false w started stackDepth rawSteps plain
      have first : w ∈ worlds stackDepth w rawSteps := List.mem_cons_self
      obtain ⟨-, later⟩ := lawful w ((reached w first).2 (given w first))
      have execution : ExecutionUnder Effect.Lawful w v := by
        rcases List.mem_cons.1 here with same | after
        · rw [same] at larger
          exact absurd larger (Nat.lt_irrefl _)
        · exact (List.pairwise_cons.1 executions).1 v after (given v here)
      obtain ⟨formed, -⟩ := lawful v ((reached v here).2 (given v here))
      exact ⟨w, v, rfl, here, given v here, larger, formed, ((later v execution).2 0 (one ▸ Nat.zero_lt_one)).1⟩

end Script

end Overlay
