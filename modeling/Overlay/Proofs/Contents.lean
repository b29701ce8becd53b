import Overlay.Proofs.Raising
import Overlay.Proofs.Mirror
import Overlay.Proofs.Views

/-!
# What a new shadow holds

The shadow of a callable is made of two ordered bags. Members are copied over a bag that already holds `prototype`, so
this name comes first and the other names follow in the order of the callable; a callable that owns a `prototype` of its
own has it copied over the pseudo-prototype. Forwarders are put after `constructor`, which is no name of theirs, in the
order of the methods. Making shadows changes nothing that the callable owns, so all this can be read off the world in
which the shadow was asked for.
-/

namespace Overlay
set_option autoImplicit false

open Act World Emulation

/-! ## Bags -/

namespace Bag
variable {b : Bag} {n : Name} {x : Value} {e : Bool}

theorem owns_put_other (b : Bag) {k : Key} (x : Value) (e : Bool) (other : n.key ≠ k) :
    (b.put n x e).owns k = b.owns k := by
  rw [owns_eq, find?_put_other b x e other, ← owns_eq]

/-- A name that is there keeps its place; another one is put at the end. -/
theorem names_put (b : Bag) (n : Name) (x : Value) (e : Bool) :
    (b.put n x e).names = if b.owns n.key then b.names else b.names ++ [n] := by
  unfold put names insert owns
  split
  · rw [List.map_map]
    apply List.map_congr_left
    intro q _
    simp only [Function.comp]
    split <;> rfl
  · rw [List.map_append]
    rfl

theorem props_put_new (absent : b.owns n.key = false) : (b.put n x e).props = b.props ++ [⟨n, x, e⟩] := by
  unfold owns at absent
  unfold put insert
  simp [absent]

theorem keys_eq (b : Bag) : b.keys = b.names.map (·.key) := by
  simp [keys, names]

theorem mem_names_iff {k : Key} : k ∈ b.names.map (·.key) ↔ b.owns k = true := by
  simp [names, owns]

end Bag

namespace Plugin
variable {source b : Bag} {names : List Name} {n : Name}

/-- The names of a bag after members were copied to it: those that were not there follow in their order. -/
theorem names_copied (distinct : (names.map (·.key)).Nodup) :
    (copied source names b).names = b.names ++ names.filter fun n => !b.owns n.key := by
  induction names generalizing b with
  | nil => simp [copied]
  | cons n rest ih =>
    obtain ⟨new, distinct'⟩ := List.nodup_cons.1 distinct
    have others : rest.filter (fun m => !(b.put n (source.get n.key) (source.isEnumerable n.key)).owns m.key) =
        rest.filter fun m => !b.owns m.key := by
      apply List.filter_congr
      intro m listed
      have differs : n.key ≠ m.key := fun same => new (List.mem_map.2 ⟨m, listed, same.symm⟩)
      rw [Bag.owns_put_other b _ _ differs]
    rw [copied, List.foldl_cons]
    refine (ih distinct').trans ?_
    rw [others, Bag.names_put]
    cases there : b.owns n.key <;> simp [there]

/-- A member that was copied has the value and the visibility that it has in the source. -/
theorem find?_copied (distinct : (names.map (·.key)).Nodup) (listed : n ∈ names) :
    ∃ q, (copied source names b).find? n.key = some q ∧ q.value = source.get n.key ∧
      q.enumerable = source.isEnumerable n.key := by
  induction names generalizing b with
  | nil => cases listed
  | cons m rest ih =>
    obtain ⟨new, distinct'⟩ := List.nodup_cons.1 distinct
    rw [copied, List.foldl_cons]
    rcases List.mem_cons.1 listed with rfl | later
    · obtain ⟨q, found, value, seen⟩ :=
        Bag.find?_insert_same b.props ⟨n, source.get n.key, source.isEnumerable n.key⟩
      refine ⟨q, ?_, value, seen⟩
      refine (find?_copied_other fun m listed same => new (List.mem_map.2 ⟨m, listed, same⟩)).trans ?_
      exact found
    · exact ih distinct' later

/-- New names are put at the end, in their order. -/
theorem props_holding {ids : List ObjId} (distinct : (names.map (·.key)).Nodup)
    (new : ∀ n ∈ names, b.owns n.key = false) :
    (holding b names ids).props = b.props ++ List.zipWith (fun n o => ⟨n, .obj o, false⟩) names ids := by
  induction names generalizing b ids with
  | nil => simp [holding]
  | cons n rest ih =>
    cases ids with
    | nil => simp [holding]
    | cons o ids =>
      obtain ⟨apart, distinct'⟩ := List.nodup_cons.1 distinct
      have first := new n List.mem_cons_self
      rw [holding, List.zip_cons_cons, List.foldl_cons]
      refine (ih distinct' fun m listed => ?_).trans ?_
      · have differs : n.key ≠ m.key := fun same => apart (List.mem_map.2 ⟨m, listed, same.symm⟩)
        rw [Bag.owns_put_other b _ _ differs]
        exact new m (List.mem_cons_of_mem n listed)
      · rw [Bag.props_put_new first]
        simp

theorem frozen_holding (b : Bag) (names : List Name) (ids : List ObjId) : (holding b names ids).frozen = b.frozen := by
  unfold holding
  generalize names.zip ids = pairs
  induction pairs generalizing b with
  | nil => rfl
  | cons m rest ih => exact ih _

end Plugin

/-! ## What making shadows leaves -/

namespace World
variable {strict : Prop} {w u : World} {p : PluginId} {x f : Value}

theorem Resolves.ownBag (resolves : Resolves p w.heap.size w u) (below : x.Below w.heap.size) :
    Plugin.ownBag u x = Plugin.ownBag w x := by
  unfold Plugin.ownBag
  split
  · rw [resolves.old _ (Datum.below_obj.1 below)]
  · rfl

theorem SameLinks.prototypeMember (same : SameLinks w.heap.size w u) (below : f.Below w.heap.size) :
    Host.prototypeMember u f = Host.prototypeMember w f := by
  rw [Host.prototypeMember, same.hostFn? below, Host.prototypeMember]

theorem Resolves.members (resolves : Resolves p w.heap.size w u) (below : f.Below w.heap.size) (config : Config) :
    Host.members u config f = Host.members w config f := by
  rw [Host.members, resolves.ownBag below, Host.members]

/-- The same methods get forwarders before and after shadows are made. -/
theorem Resolves.methods (resolves : Resolves p w.heap.size w u) (intact : w.Intact strict)
    (below : f.Below w.heap.size) (config : Config) : Host.methods u config f = Host.methods w config f := by
  have member := intact.prototypeMember f
  rw [Host.methods, resolves.sameLinks.prototypeMember below, resolves.ownBag member, Host.methods]
  congr 1
  apply List.filter_congr
  intro q listed
  have value : q.value.Below w.heap.size := by
    unfold Plugin.ownBag at listed
    split at listed
    · exact ((intact.objects _).bag q listed).2
    · cases listed
  rw [Host.isForwarded, resolves.sameLinks.isCallable value, Host.isForwarded]

/-- Direct and super constructors are the same before and after shadows are made. -/
theorem Resolves.directConstructor (resolves : Resolves p w.heap.size w u) (intact : w.Intact strict)
    (below : x.Below w.heap.size) (h : HostId) : Host.directConstructor u h x = Host.directConstructor w h x := by
  rw [Host.directConstructor, Host.directConstructor, resolves.sameLinks.prototypeOf intact h below]
  cases answer : Host.prototypeOf w h x with
  | error e => rfl
  | ok proto =>
    have inside := intact.prototypeOf h _ proto answer
    show Host.ownConstructor u.heap proto = Host.ownConstructor w.heap proto
    unfold Host.ownConstructor
    split
    · rfl
    · rw [Heap.owns, resolves.old _ (Datum.below_obj.1 inside), Heap.owns]
    · rfl

theorem Resolves.superConstructor (resolves : Resolves p w.heap.size w u) (intact : w.Intact strict)
    (below : f.Below w.heap.size) (h : HostId) : Host.superConstructor u h f = Host.superConstructor w h f := by
  have same := resolves.sameLinks
  have direct := resolves.directConstructor intact (intact.prototypeMember f) h
  rw [Host.superConstructor, Host.superConstructor, same.prototypeMember below]
  split
  · rfl
  · rw [direct]
    cases answer : Host.directConstructor w h (Host.prototypeMember w f) with
    | error e => rfl
    | ok ctor =>
      have callable := same.isCallable (intact.directConstructor h _ ctor answer)
      dsimp only [Bind.bind, Except.bind]
      rw [callable]

theorem Resolves.lookup {n : Nat} {o : ObjId} (resolves : Resolves p n w u) (inside : o < n) (k : Key) :
    u.heap.lookup o k = w.heap.lookup o k :=
  Heap.lookup_congr (fun a on => resolves.old a (Nat.lt_of_le_of_lt (Heap.le_of_mem_path on) inside)) k

end World

/-! ## Members and methods -/

namespace Host
variable {w : World} {f : Value} {config : Config}

theorem nodup_ownBag (distinct : w.heap.Distinct) (x : Value) : (Plugin.ownBag w x).keys.Nodup := by
  unfold Plugin.ownBag
  split
  · exact distinct _
  · exact List.nodup_nil

theorem nodup_members (distinct : w.heap.Distinct) : ((members w config f).map (·.key)).Nodup := by
  have own := nodup_ownBag distinct f
  rw [Bag.keys_eq] at own
  exact own.sublist (List.filter_sublist.map _)

theorem nodup_methods (distinct : w.heap.Distinct) : ((methods w config f).map (·.key)).Nodup := by
  rw [methods, List.map_map]
  exact (nodup_ownBag distinct _).sublist (List.filter_sublist.map _)

/-- No forwarder is made for `constructor`. -/
theorem ne_constructor_of_mem_methods {n : Name} (listed : n ∈ methods w config f) : n.key ≠ "constructor" := by
  obtain ⟨q, kept, rfl⟩ := List.mem_map.1 listed
  have forwarded := (List.mem_filter.1 kept).2
  rw [isForwarded, Bool.and_eq_true] at forwarded
  simpa using forwarded.1

/-- The callable owns a `prototype` that its shadow takes over. -/
def ownsPrototype (w : World) (config : Config) (f : Value) : Bool :=
  (Plugin.ownBag w f).owns "prototype" && !config.isCoercionMember "prototype"

theorem ownsPrototype_iff : ownsPrototype w config f = true ↔ ∃ n ∈ members w config f, n.key = "prototype" := by
  rw [ownsPrototype, Bool.and_eq_true, Bag.owns, List.any_eq_true]
  constructor
  · rintro ⟨⟨q, owned, key⟩, proper⟩
    have key : q.name.key = "prototype" := by simpa using key
    refine ⟨q.name, List.mem_filter.2 ⟨List.mem_map.2 ⟨q, owned, rfl⟩, ?_⟩, key⟩
    rw [key]
    exact proper
  · rintro ⟨n, listed, key⟩
    obtain ⟨own, proper⟩ := List.mem_filter.1 listed
    obtain ⟨q, owned, rfl⟩ := List.mem_map.1 own
    rw [key] at proper
    exact ⟨⟨q, owned, by simpa using key⟩, proper⟩

end Host

namespace Plugin
variable {w v u : World} {p : PluginId} {f parent x : Value} {config : Config} {t : ObjId}

/-- The object below which a pseudo-prototype is made where the shadow of the super constructor shows some value as its
`prototype`: this value, or the patchable prototype of objects if it is no object. -/
def base (roots : Roots) : Value → ObjId
  | .obj o => o
  | _ => roots.objectPrototype

theorem parentPrototype_answer {roots : Roots} {s q : ObjId} (answer : parentPrototype w roots s = .ok q) :
    ∃ x, w.heap.lookup s "prototype" = .ok x ∧ base roots x = q := by
  unfold parentPrototype at answer
  cases shown : w.heap.lookup s "prototype" with
  | error e =>
    rw [shown] at answer
    cases answer
  | ok x =>
    rw [shown] at answer
    refine ⟨x, rfl, ?_⟩
    cases x with
    | ref r => cases r <;> exact Except.ok.inj answer
    | _ => exact Except.ok.inj answer

/-- The names of a new shadow. -/
theorem names_shadowBag (distinct : w.heap.Distinct) (config : Config) (f : Value) (t : ObjId) :
    (shadowBag w config f t).names = Name.ofText "prototype" ::
      (ownBag w f).names.filter fun n => !config.isCoercionMember n.key && n.key != "prototype" := by
  have own (k : Key) : (({} : Bag).put (Name.ofText "prototype") (.obj t) false).owns k = (k == "prototype") := by
    show (Key.text "prototype" == k || false) = (k == "prototype")
    rw [Bool.or_false, BEq.comm]
  rw [shadowBag, names_copied (Host.nodup_members distinct), Host.members, List.filter_filter]
  simp only [own]
  refine congrArg (Name.ofText "prototype" :: ·) (List.filter_congr fun n _ => ?_)
  rw [Bool.and_comm]
  rfl

theorem find?_shadowBag (distinct : w.heap.Distinct) {n : Name} (listed : n ∈ Host.members w config f) (t : ObjId) :
    ∃ q, (shadowBag w config f t).find? n.key = some q ∧ q.value = (ownBag w f).get n.key ∧
      q.enumerable = (ownBag w f).isEnumerable n.key :=
  find?_copied (Host.nodup_members distinct) listed

/-- What a new shadow shows as its `prototype`. -/
theorem find?_shadowBag_prototype (distinct : w.heap.Distinct) (config : Config) (f : Value) (t : ObjId) :
    (Host.ownsPrototype w config f = true → ∃ q, (shadowBag w config f t).find? "prototype" = some q ∧
      q.value = (ownBag w f).get "prototype") ∧
    (Host.ownsPrototype w config f = false →
      (shadowBag w config f t).find? "prototype" = some ⟨Name.ofText "prototype", .obj t, false⟩) := by
  constructor
  · intro owned
    obtain ⟨n, listed, key⟩ := Host.ownsPrototype_iff.1 owned
    obtain ⟨q, found, value, -⟩ := find?_shadowBag distinct listed t
    rw [key] at found value
    exact ⟨q, found, value⟩
  · intro lacking
    refine (find?_copied_other fun n listed key => ?_).trans rfl
    rw [Host.ownsPrototype_iff.2 ⟨n, listed, key⟩] at lacking
    cases lacking

/-! ## The shadow that is asked for -/

/-- A shadow that is there is read for its `prototype`. -/
theorem exec_pseudoPrototype_known {s : Shadow} (found : shadow? v p f = some s)
    (shown : v.heap.lookup s.object "prototype" = .ok x) : exec (pseudoPrototype p f) v = (.ok x, v) := by
  obtain ⟨c, category, -⟩ := Option.bind_eq_some_iff.1 found
  have callable : v.isCallable f = true := isCallable_iff.2 ⟨c, category⟩
  unfold pseudoPrototype
  rw [exec_get_bind, if_pos callable, exec_bind_ok (exec_shadowOf_known found), exec_get_bind, shown]
  rfl

/-- What is there right after the shadow of a callable was asked for, told by the world in which it was asked for. -/
structure NewShadow (p : PluginId) (f : Value) (w v : World) (s : Shadow) : Prop where
  entry : shadow? v p f = some s
  new : w.heap.size ≤ s.object ∧ w.heap.size ≤ s.prototype
  inside : s.prototype < v.heap.size
  object : v.heap.get s.object =
    ⟨.obj (w.plugin p).roots.functionPrototype, shadowBag w (w.plugin p).config f s.prototype, none⟩
  prototype : ∃ parent x ids, Host.superConstructor w (w.plugin p).host f = .ok parent ∧
    (parent ≠ .null → exec (pseudoPrototype p parent) v = (.ok x, v)) ∧
    (parent = .null → v.heap.lookup (w.plugin p).roots.objectShadow "prototype" = .ok x) ∧
    Forwarders v (w.plugin p) (Host.methods w (w.plugin p).config f) ids ∧ (∀ o ∈ ids, w.heap.size ≤ o) ∧
    v.heap.get s.prototype = ⟨.obj (base (w.plugin p).roots x),
      holding (({} : Bag).put (Name.ofText "constructor") f false) (Host.methods w (w.plugin p).config f) ids, none⟩

/-- A shadow that is asked for where there is none is a new one, if no fault stops it. -/
theorem shadowOf_new {strict : Prop} {s : ObjId} (intact : w.Intact strict) (sound : w.Sound)
    (bound : p < w.plugins.size) (callable : w.isCallable f = true) (absent : shadow? w p f = none)
    (run : exec (shadowOf p f) w = (.ok s, v)) : ∃ t, NewShadow p f w v ⟨s, t⟩ := by
  obtain ⟨-, ⟨s, found, rfl⟩, made⟩ := (shadowOf_leaves (p := p) (f := f) sound (Nat.le_refl w.heap.size)).of_run run
  obtain ⟨u, resolves, built, ready⟩ := made absent
  have entry := built.shadow?_eq (by rw [resolves.plugins]; exact bound)
  obtain rfl : s = _ := Option.some.inj (found.symm.trans entry)
  have below := intact.callable callable
  obtain ⟨more, extended⟩ := resolves.advances.shadows p bound
  have settings : (u.plugin p).config = (w.plugin p).config ∧ (u.plugin p).roots = (w.plugin p).roots ∧
      (u.plugin p).host = (w.plugin p).host := by
    rw [extended]
    exact ⟨rfl, rfl, rfl⟩
  obtain ⟨config, roots, host⟩ := settings
  have later : w.heap.size ≤ u.heap.size := resolves.advances.trail.sameShape.size
  obtain ⟨forward, rising⟩ := built.forwarders
  obtain ⟨parent, q, above, link, prototype⟩ := built.prototype
  rw [host, resolves.superConstructor intact below] at above
  obtain ⟨x, shown, rfl⟩ := parentPrototype_answer link
  have sound' := resolves.advances.sound
  obtain ⟨linked, -⟩ := (sound'.plugins p (by rw [resolves.plugins]; exact bound)).linked_parentShadow parent
  rw [← built.resolves.lookup linked.1] at shown
  have inside : u.heap.size + 1 < v.heap.size := by
    rw [built.size]
    omega
  refine ⟨u.heap.size + 1, entry, ⟨later, Nat.le_succ_of_le later⟩, inside, ?_, parent, x,
    places (u.heap.size + 2) (Host.methods w (w.plugin p).config f), above, ?_, ?_, ?_, ?_, ?_⟩
  · rw [built.shadow, roots, config, shadowBag, resolves.ownBag below, resolves.members below]
    rfl
  · intro ancestor
    obtain ⟨t, found⟩ := Option.isSome_iff_exists.1 (ready parent above ancestor)
    rw [parentShadow, found] at shown
    exact exec_pseudoPrototype_known (shadow?_advance built.resolves.advances found) shown
  · rintro rfl
    rw [← roots]
    exact shown
  · rw [config, resolves.methods intact below, host, roots] at forward
    rw [config, resolves.methods intact below] at rising
    exact ⟨forward, rising⟩
  · intro o listed
    exact Nat.le_trans later (Nat.le_trans (Nat.le_add_right _ 2) (le_of_mem_places listed))
  · rw [prototype, prototypeBag, forwarded_eq_holding, config, resolves.methods intact below, roots]

namespace NewShadow
variable {s : Shadow}

theorem is_open (made : NewShadow p f w v s) : (v.heap.get s.prototype).bag.frozen = false := by
  obtain ⟨_, _, _, -, -, -, -, -, prototype⟩ := made.prototype
  rw [prototype]
  exact frozen_holding _ _ _

/-- What a new pseudo-prototype owns, in order. -/
theorem props_prototype (made : NewShadow p f w v s) (distinct : w.heap.Distinct) : ∃ ids,
    Forwarders v (w.plugin p) (Host.methods w (w.plugin p).config f) ids ∧ (∀ o ∈ ids, w.heap.size ≤ o) ∧
    (v.heap.get s.prototype).bag.props = ⟨Name.ofText "constructor", f, false⟩ ::
      List.zipWith (fun n o => ⟨n, .obj o, false⟩) (Host.methods w (w.plugin p).config f) ids := by
  obtain ⟨_, _, ids, -, -, -, forwarders, newer, prototype⟩ := made.prototype
  refine ⟨ids, forwarders, newer, ?_⟩
  rw [prototype]
  refine (props_holding (Host.nodup_methods distinct) fun n listed => ?_).trans rfl
  have other := Host.ne_constructor_of_mem_methods listed
  rw [Bag.owns_put_other _ _ _ other.symm]
  rfl

theorem find?_constructor (made : NewShadow p f w v s) (distinct : w.heap.Distinct) :
    (v.heap.get s.prototype).bag.find? "constructor" = some ⟨Name.ofText "constructor", f, false⟩ := by
  obtain ⟨_, -, -, props⟩ := made.props_prototype distinct
  rw [Bag.find?, props]
  rfl

/-- What the plugin shows as the prototype of the callable. -/
theorem exec_pseudoPrototype (made : NewShadow p f w v s) (distinct : w.heap.Distinct) :
    exec (pseudoPrototype p f) v = (.ok (if Host.ownsPrototype w (w.plugin p).config f
      then (ownBag w f).get "prototype" else .obj s.prototype), v) := by
  obtain ⟨own, lacking⟩ := find?_shadowBag_prototype distinct (w.plugin p).config f s.prototype
  refine exec_pseudoPrototype_known made.entry (Heap.lookup_of_member? ?_)
  rw [Heap.member?, made.object]
  split
  · rename_i owned
    obtain ⟨q, found, value⟩ := own owned
    show ((shadowBag w _ f _).find? _).map _ = _
    rw [found, ← value]
    rfl
  · rename_i lacks
    show ((shadowBag w _ f _).find? _).map _ = _
    rw [lacking (by simpa using lacks)]
    rfl

end NewShadow

/-- Where all host functions come with a host or by definition, nothing but the log stops a shadow from being given. -/
theorem shadowOf_given {strict : Prop} (reachable : ReachableUnder (fun _ d => d.Within (.definitions fun _ => True)) w)
    (intact : w.Intact strict) (bound : p < w.plugins.size) (callable : w.isCallable f = true) (legible : w.Legible) :
    ∃ s v, exec (shadowOf p f) w = (.ok s, v) := by
  have ancestral := reachable.ancestral fun _ _ within => within
  obtain ⟨_, s, v, -, -, run, -⟩ :=
    shadowOf_legible reachable.reachable.sound ancestral intact bound callable legible
  exact ⟨s.object, v, run⟩

/-- The shape of a new pseudo-prototype. Right after the shadow of a callable was asked for where there was none, its
pseudo-prototype is a new open object that owns a hidden `constructor`, the callable. It is linked to what the plugin
shows as the prototype of the super constructor, or else to the `prototype` of the object shadow, and to the patchable
prototype of objects where that is no object. The plugin shows it as the prototype of the callable, unless the callable
owns a member `prototype` that is not left out in copying: then it shows the value of this member. Where all host
functions come with a host or by definition, and their texts can be written if there is a log, the shadow is given. -/
theorem new_pseudoPrototype (reachable : ReachableUnder (fun u d => d.Given False u) w) (bound : p < w.plugins.size)
    (callable : w.isCallable f = true) (absent : shadow? w p f = none) :
    (∀ s v, exec (shadowOf p f) w = (.ok s, v) → ∃ t parent x, shadow? v p f = some ⟨s, t⟩ ∧ w.heap.size ≤ t ∧
      (v.heap.get t).bag.frozen = false ∧
      (v.heap.get t).bag.find? "constructor" = some ⟨Name.ofText "constructor", f, false⟩ ∧
      Host.superConstructor w (w.plugin p).host f = .ok parent ∧
      (parent ≠ .null → exec (pseudoPrototype p parent) v = (.ok x, v)) ∧
      (parent = .null → v.heap.lookup (w.plugin p).roots.objectShadow "prototype" = .ok x) ∧
      v.heap.Linked t (.obj (base (w.plugin p).roots x)) ∧
      exec (pseudoPrototype p f) v = (.ok (if Host.ownsPrototype w (w.plugin p).config f
        then (ownBag w f).get "prototype" else .obj t), v)) ∧
    (ReachableUnder (fun _ d => d.Within (.definitions fun _ => True)) w → w.Legible →
      ∃ s v, exec (shadowOf p f) w = (.ok s, v)) := by
  have distinct := reachable.reachable.distinct
  refine ⟨fun s v run => ?_, fun defined legible => shadowOf_given defined reachable.intact bound callable legible⟩
  obtain ⟨t, made⟩ := shadowOf_new reachable.intact reachable.reachable.sound bound callable absent run
  obtain ⟨parent, x, _, above, shown, rooted, -, -, prototype⟩ := made.prototype
  exact ⟨t, parent, x, made.entry, made.new.2, made.is_open, made.find?_constructor distinct, above, shown, rooted,
    ⟨made.inside, by rw [prototype]⟩, made.exec_pseudoPrototype distinct⟩

/-- The effects that make a family and, below its first constructor, one with a method and with two statics, the second of
which is called `prototype`. -/
def pointFamily : List Effect :=
  Effect.family ++ [.defineConstructor 0 { name := .str "Point" } .null (.obj 17) [(Name.ofText "norm", .fn 0)]
    [(Name.ofText "dimensions", .int 2), (Name.ofText "prototype", .int 42)]]

theorem pointFamily_given :
    ReachableUnder (fun u d => d.Given False u ∧ d.Within (.definitions fun _ => True)) (World.after pointFamily) := by
  refine ReachableUnder.loosen (reachableUnder_of_allowed ((Effect.family_lawful fun _ => True).append
    ⟨⟨⟨⟨Datum.below_str, Datum.below_null, Datum.below_null⟩, Datum.below_null, Datum.below_obj.2 ?_, ?_, ?_⟩,
      ?_, fun _ _ => trivial⟩, trivial⟩)) fun u d allowed => ⟨allowed.1.given, allowed.2⟩
  · decide +kernel
  · intro m listed
    cases List.mem_singleton.1 listed
    exact ⟨Datum.below_str, Datum.below_fn⟩
  · intro m listed
    simp only [List.mem_cons, List.not_mem_nil, or_false] at listed
    rcases listed with rfl | rfl
    · exact ⟨Datum.below_str, Datum.below_int⟩
    · exact ⟨Datum.below_str, Datum.below_int⟩
  · intro m listed
    cases List.mem_singleton.1 listed
    exact writable_str _

/-- The constructor of the family with statics has no shadow yet. -/
theorem pointFamily_ready : 0 < (World.after pointFamily).plugins.size ∧ (World.after pointFamily).Legible ∧
    (World.after pointFamily).isCallable (.obj 21) = true ∧ shadow? (World.after pointFamily) 0 (.obj 21) = none := by
  have facts : 0 < (World.after pointFamily).plugins.size ∧ (World.after pointFamily).logging = false ∧
      (World.after pointFamily).isCallable (.obj 21) = true ∧
      (shadow? (World.after pointFamily) 0 (.obj 21)).isNone = true := by
    decide +kernel
  obtain ⟨bound, silent, callable, lacking⟩ := facts
  refine ⟨bound, fun logs => ?_, callable, Option.isNone_iff_eq_none.1 lacking⟩
  rw [silent] at logs
  cases logs

/-- A constructor with a static called `prototype`: its pseudo-prototype is linked as it should be, but is not what the
plugin shows. -/
theorem new_pseudoPrototype_point : ∃ w s v t x, ReachableUnder (fun u d => d.Given False u) w ∧ 0 < w.plugins.size ∧
    w.isCallable (.obj 21) = true ∧ shadow? w 0 (.obj 21) = none ∧ exec (shadowOf 0 (.obj 21)) w = (.ok s, v) ∧
    shadow? v 0 (.obj 21) = some ⟨s, t⟩ ∧ Host.superConstructor w (w.plugin 0).host (.obj 21) = .ok (.obj 17) ∧
    exec (pseudoPrototype 0 (.obj 17)) v = (.ok x, v) ∧ v.heap.Linked t (.obj (base (w.plugin 0).roots x)) ∧
    exec (pseudoPrototype 0 (.obj 21)) v = (.ok (.int 42), v) := by
  let w := World.after pointFamily
  have reachable : ReachableUnder (fun u d => d.Given False u ∧ d.Within (.definitions fun _ => True)) w :=
    pointFamily_given
  have ready : 0 < w.plugins.size ∧ w.Legible ∧ w.isCallable (.obj 21) = true ∧ shadow? w 0 (.obj 21) = none :=
    pointFamily_ready
  have facts : (Host.superConstructor w (w.plugin 0).host (.obj 21)).toOption = some (.obj 17) ∧
      Host.ownsPrototype w (w.plugin 0).config (.obj 21) = true ∧ (ownBag w (.obj 21)).get "prototype" = .int 42 := by
    decide +kernel
  clear_value w
  obtain ⟨bound, legible, callable, absent⟩ := ready
  obtain ⟨super, owns, own⟩ := facts
  have given := reachable.loosen fun _ _ allowed => allowed.1
  obtain ⟨shape, ends⟩ := new_pseudoPrototype given bound callable absent
  obtain ⟨s, v, run⟩ := ends (reachable.loosen fun _ _ allowed => allowed.2) legible
  obtain ⟨t, parent, x, entry, -, -, -, above, shown, -, linked, pseudo⟩ := shape s v run
  obtain rfl : parent = .obj 17 := Except.ok.inj (above.symm.trans (eq_ok_of_toOption super))
  rw [if_pos owns, own] at pseudo
  exact ⟨w, s, v, t, x, given, bound, callable, absent, run, entry, above, shown (by rintro ⟨⟩), linked, pseudo⟩

/-- The contents of a new shadow. Right after the shadow of a callable was asked for where there was none, its names are
`prototype` and then the names that the callable owns, in order, without coercion members and without a second
`prototype`. Each member that was taken over has the value and the visibility that it has on the callable, and the
`prototype` is the hidden pseudo-prototype if none was taken over. The pseudo-prototype owns the hidden `constructor` and
then a hidden forwarder for each method of the callable, in order: each of them is new, no two are the same, and each
looks up the name that it stands under. Where all host functions come with a host or by definition, and their texts can
be written if there is a log, the shadow is given. -/
theorem new_shadow_contents (reachable : ReachableUnder (fun u d => d.Given False u) w) (bound : p < w.plugins.size)
    (callable : w.isCallable f = true) (absent : shadow? w p f = none) :
    (∀ s v, exec (shadowOf p f) w = (.ok s, v) → ∃ t ids, shadow? v p f = some ⟨s, t⟩ ∧
      (v.heap.get s).bag.names = Name.ofText "prototype" :: ((ownBag w f).names.filter fun n =>
        !(w.plugin p).config.isCoercionMember n.key && n.key != "prototype") ∧
      (∀ n ∈ (ownBag w f).names, (w.plugin p).config.isCoercionMember n.key = false →
        ∃ q, (v.heap.get s).bag.find? n.key = some q ∧ q.value = (ownBag w f).get n.key ∧
          q.enumerable = (ownBag w f).isEnumerable n.key) ∧
      (Host.ownsPrototype w (w.plugin p).config f = false →
        (v.heap.get s).bag.find? "prototype" = some ⟨Name.ofText "prototype", .obj t, false⟩) ∧
      (v.heap.get t).bag.props = ⟨Name.ofText "constructor", f, false⟩ ::
        List.zipWith (fun n o => ⟨n, .obj o, false⟩) (Host.methods w (w.plugin p).config f) ids ∧
      List.Forall₂ (fun n o => Forwards v o (w.plugin p).host n.value ∧
        v.heap.Linked o (.obj (w.plugin p).roots.functionPrototype)) (Host.methods w (w.plugin p).config f) ids ∧
      (∀ o ∈ ids, w.heap.size ≤ o) ∧ ids.Nodup) ∧
    (ReachableUnder (fun _ d => d.Within (.definitions fun _ => True)) w → w.Legible →
      ∃ s v, exec (shadowOf p f) w = (.ok s, v)) := by
  have distinct := reachable.reachable.distinct
  refine ⟨fun s v run => ?_, fun defined legible => shadowOf_given defined reachable.intact bound callable legible⟩
  obtain ⟨t, made⟩ := shadowOf_new reachable.intact reachable.reachable.sound bound callable absent run
  obtain ⟨ids, forwarders, newer, props⟩ := made.props_prototype distinct
  refine ⟨t, ids, made.entry, ?_, fun n listed proper => ?_, fun lacking => ?_, props, forwarders.forward,
    newer, forwarders.rising.imp fun less => Nat.ne_of_lt less⟩
  · rw [made.object]
    exact names_shadowBag distinct _ f t
  · rw [made.object]
    exact find?_shadowBag distinct (List.mem_filter.2 ⟨listed, by rw [proper]; rfl⟩) t
  · rw [made.object]
    exact (find?_shadowBag_prototype distinct _ f t).2 lacking

/-- A constructor with a method and with a static called `prototype`. -/
theorem new_shadow_contents_point : ∃ w s v t n o, ReachableUnder (fun u d => d.Given False u) w ∧ 0 < w.plugins.size ∧
    w.isCallable (.obj 21) = true ∧ shadow? w 0 (.obj 21) = none ∧ exec (shadowOf 0 (.obj 21)) w = (.ok s, v) ∧
    shadow? v 0 (.obj 21) = some ⟨s, t⟩ ∧
    (v.heap.get s).bag.names.map (·.key) =
      [.text "prototype", .text "name", .text "length", .text "dimensions"] ∧
    (v.heap.get t).bag.props = [⟨Name.ofText "constructor", .obj 21, false⟩, ⟨n, .obj o, false⟩] ∧
    n.key = "norm" ∧ Forwards v o (w.plugin 0).host n.value ∧ w.heap.size ≤ o := by
  let w := World.after pointFamily
  have reachable : ReachableUnder (fun u d => d.Given False u ∧ d.Within (.definitions fun _ => True)) w :=
    pointFamily_given
  have ready : 0 < w.plugins.size ∧ w.Legible ∧ w.isCallable (.obj 21) = true ∧ shadow? w 0 (.obj 21) = none :=
    pointFamily_ready
  have facts : ((ownBag w (.obj 21)).names.filter fun n =>
        !(w.plugin 0).config.isCoercionMember n.key && n.key != Key.text "prototype").map (·.key) =
          [.text "name", .text "length", .text "dimensions"] ∧
      (Host.methods w (w.plugin 0).config (.obj 21)).map (·.key) = [.text "norm"] := by
    decide +kernel
  clear_value w
  obtain ⟨bound, legible, callable, absent⟩ := ready
  obtain ⟨members, methods⟩ := facts
  have given := reachable.loosen fun _ _ allowed => allowed.1
  obtain ⟨contents, ends⟩ := new_shadow_contents given bound callable absent
  obtain ⟨s, v, run⟩ := ends (reachable.loosen fun _ _ allowed => allowed.2) legible
  obtain ⟨t, ids, entry, names, -, -, props, forward, newer, -⟩ := contents s v run
  obtain ⟨n, only, key⟩ := List.map_eq_singleton_iff.1 methods
  rw [only] at props forward
  obtain ⟨o, rest, forwards, nothing, rfl⟩ := List.forall₂_cons_left_iff.1 forward
  obtain rfl := List.forall₂_nil_left_iff.1 nothing
  refine ⟨w, s, v, t, n, o, given, bound, callable, absent, run, entry, ?_, props, key, forwards.1, newer o (by simp)⟩
  rw [names, List.map_cons, members]
  rfl

end Plugin

end Overlay
