import Mathlib.Data.List.Nodup
import Overlay.Proofs.Registration

/-!
# Pseudo-prototypes mirror the ancestry

While nobody touches the `prototype` of a shadow, and no callable owns a member of that name, the pseudo-prototype of
a callable is linked to that of its super constructor; where there is no super constructor, to the plugin's patchable
prototype of objects. So the strict ancestors of a pseudo-prototype are the pseudo-prototypes of the callable's line,
the farthest of which descends from the patchable prototype, and nothing about the order in which shadows were made
shows in it.
-/

namespace Overlay
set_option autoImplicit false

open Act World

/-- The objects that stand for callables in a plugin. -/
def Plugin.shadowObjects (x : Plugin) : List ObjId :=
  [x.roots.function, x.roots.objectShadow] ++ x.shadows.entries.map (·.2.object)

/-- The effect does not put or erase the `prototype` of a shadow. -/
def Effect.SparesPrototypes (w : World) : Effect → Prop
  | .put o name _ _ | .erase o name =>
    Key.of? name = some (.text "prototype") → ∀ p, p < w.plugins.size → o ∉ (w.plugin p).shadowObjects
  | _ => True

theorem Plugin.Ordered.lt_size {h : Heap} {x : Plugin} (ordered : x.Ordered h) {o : ObjId}
    (shadow : o ∈ x.shadowObjects) : o < h.size := by
  refine ordered.inside o (mem_owned.2 ?_)
  simp only [shadowObjects, List.mem_append, List.mem_cons, List.not_mem_nil, or_false, List.mem_map] at shadow
  rcases shadow with (rfl | rfl) | ⟨e, registered, rfl⟩
  · exact .inl (.inr (.inr (.inl rfl)))
  · exact .inl (.inr (.inr (.inr rfl)))
  · exact .inr ⟨e, registered, .inl rfl⟩

/-- An effect that spares the prototypes of shadows leaves them as they are. -/
theorem Effect.member?_prototype {w : World} (sound : w.Sound) {d : Effect} (spares : d.SparesPrototypes w) {p : PluginId}
    (bound : p < w.plugins.size) {o : ObjId} (shadow : o ∈ (w.plugin p).shadowObjects) :
    (d.after w).heap.member? o "prototype" = w.heap.member? o "prototype" := by
  have inside := (sound.plugins p bound).lt_size shadow
  have room : w.heap.size ≤ w.heap.size := Nat.le_refl _
  have old {v : World} (grown : Grows w.heap.size w v) : v.heap.member? o "prototype" = w.heap.member? o "prototype" :=
    Heap.member?_of_get (grown.old o inside) _
  cases d with
  | newFn f => exact old (newFn_leaves f).world
  | newObject proto members => exact old (alloc_leaves proto members room).world
  | put q name value enumerable =>
    show (exec (putProperty q name value enumerable) w).2.heap.member? o _ = _
    rcases putProperty_cases q name value enumerable with stopped | ⟨k, named, -, put⟩
    · rw [stopped]
    · rw [put]
      refine Heap.member?_setBag _ fun same => Bag.find?_put_other _ _ _ fun key => ?_
      exact spares (key ▸ Name.key_of? named) p bound (same ▸ shadow)
  | erase q name =>
    show (exec (eraseProperty q name) w).2.heap.member? o _ = _
    rcases eraseProperty_cases q name with stopped | ⟨k, named, -, erased⟩
    · rw [stopped]
    · rw [erased]
      refine Heap.member?_setBag _ fun same => Bag.find?_erase_other _ fun key => ?_
      exact spares (key ▸ Name.key_of? named) p bound (same ▸ shadow)
  | freeze q => exact Heap.member?_setBag _ fun _ => rfl
  | newFunction impl s proto prototype => exact old (Host.newFunction_leaves impl s proto prototype room).world
  | defineFunction h impl s => exact old (Host.defineFunction_leaves h impl s room).world
  | defineConstructor h s init parent methods statics =>
    exact old (Host.defineConstructor_leaves h s init parent methods statics room).world
  | makeHost =>
    show (exec Host.make w).2.heap.member? o _ = _
    rw [Host.exec_make]
    exact Heap.member?_of_get (@Host.get_extended_old w _ (w.nextCategory + 5) o inside) _
  | registerPrimitive h kind ctor => rfl
  | makePlugin h config outers =>
    obtain ⟨u, -, members, stopped | ⟨r, -, -, made⟩⟩ := Plugin.make_cases (w := w) h config outers
    · show (exec (Plugin.make h config outers) w).2.heap.member? o _ = _
      rw [stopped]
      exact members o inside
    · show (exec (Plugin.make h config outers) w).2.heap.member? o _ = _
      rw [made]
      exact members o inside
  | shadowOf q f =>
    exact Heap.member?_of_get (((Plugin.shadowOf_leaves sound room).world sound).old o inside) _
  | emulate q raw name => exact old (Plugin.emulate_leaves q raw name).world
  | forwarder q name => exact old (Plugin.forwarder_leaves q name).world

namespace Plugin
variable {w v u : World} {statics : Key → Prop} {p : PluginId} {f g parent : Value} {c : Category} {s t : Shadow}
  {l : List Value}

/-- The pseudo-prototype in an entry of a plugin's table is linked as its callable stands in the ancestry: to the
pseudo-prototype of the super constructor, or else to the patchable prototype of objects. Only for the host's object
constructor it is the patchable prototype itself. -/
structure MirrorAt (w : World) (p : PluginId) (c : Category) (s : Shadow) : Prop where
  member : w.heap.member? s.object "prototype" = some (.obj s.prototype)
  above : (w.plugin p).roots.objectPrototype ≤ s.prototype
  link : ∃ g parent, Host.category? w g = some c ∧ Host.superConstructor w (w.plugin p).host g = .ok parent ∧
    ((∃ t, shadow? w p parent = some t ∧ w.heap.Linked s.prototype (.obj t.prototype) ∧ t.prototype < s.prototype) ∨
      parent = .null ∧ (s.prototype = (w.plugin p).roots.objectPrototype ∧ g = .obj (w.hostOf p).object ∧
          (w.plugin p).host < w.hosts.size ∨
        w.heap.Linked s.prototype (.obj (w.plugin p).roots.objectPrototype) ∧
          (w.plugin p).roots.objectPrototype < s.prototype))

/-- The table of a plugin mirrors the ancestry of callables. -/
structure Mirrors (w : World) (p : PluginId) : Prop where
  root : w.heap.member? (w.plugin p).roots.objectShadow "prototype" = some (.obj (w.plugin p).roots.objectPrototype)
  distinct : ((w.plugin p).shadows.entries.map (·.2.prototype)).Nodup
  entries : ∀ e ∈ (w.plugin p).shadows.entries, MirrorAt w p e.1 e.2

theorem MirrorAt.later (mirror : MirrorAt w p c s) (ancestral : w.Ancestral statics) (advances : Advances w v)
    (bound : p < w.plugins.size)
    (same : v.heap.member? s.object "prototype" = w.heap.member? s.object "prototype") : MirrorAt v p c s := by
  obtain ⟨more, extended⟩ := advances.shadows p bound
  have roots : (v.plugin p).roots = (w.plugin p).roots := by rw [extended]; rfl
  have host : (v.plugin p).host = (w.plugin p).host := by rw [extended]; rfl
  obtain ⟨g, parent, category, super, link⟩ := mirror.link
  refine ⟨same.trans mirror.member, by rw [roots]; exact mirror.above, g, parent, advances.category? category, ?_, ?_⟩
  · rw [ancestral.superConstructor_eq (isCallable_iff.2 ⟨c, category⟩) advances.trail (w.plugin p).host]
    exact super
  · rw [roots, host]
    rcases link with ⟨t, found, linked, back⟩ | ⟨none_above, ⟨itself, object, there⟩ | ⟨linked, back⟩⟩
    · exact .inl ⟨t, shadow?_advance advances found, advances.trail.linked linked, back⟩
    · have objects : (v.hostOf p).object = (w.hostOf p).object := by
        have kept := advances.roots there
        simp only [Host.roots, List.cons.injEq] at kept
        rw [World.hostOf, host]
        exact kept.2.2.1
      have more_hosts : w.hosts.size ≤ v.hosts.size := by
        have longer := advances.hosts.length_le
        simpa using longer
      exact .inr ⟨none_above, .inl ⟨itself, by rw [objects]; exact object, Nat.lt_of_lt_of_le there more_hosts⟩⟩
    · exact .inr ⟨none_above, .inr ⟨advances.trail.linked linked, back⟩⟩

theorem Mirrors.later (mirrors : Mirrors w p) (ancestral : w.Ancestral statics) (advances : Advances w v)
    (bound : p < w.plugins.size) (same : v.plugin p = w.plugin p)
    (members : ∀ o ∈ (w.plugin p).shadowObjects, v.heap.member? o "prototype" = w.heap.member? o "prototype") :
    Mirrors v p := by
  refine ⟨?_, by rw [same]; exact mirrors.distinct, fun e registered => ?_⟩
  · rw [same, members _ (by simp [shadowObjects])]
    exact mirrors.root
  · rw [same] at registered
    refine (mirrors.entries e registered).later ancestral advances bound (members _ ?_)
    exact List.mem_append_right _ (List.mem_map.2 ⟨e, registered, rfl⟩)

/-- What a plugin shows of a shadow that mirrors. -/
theorem Mirrors.found (mirrors : Mirrors w p) (found : shadow? w p f = some s) :
    ∃ c, Host.category? w f = some c ∧ (c, s) ∈ (w.plugin p).shadows.entries ∧ MirrorAt w p c s := by
  obtain ⟨c, category, here⟩ := Option.bind_eq_some_iff.1 found
  have registered := Registry.mem_of_find? here
  exact ⟨c, category, registered, mirrors.entries _ registered⟩

/-- A callable that owns no `prototype` has none copied to its shadow. -/
theorem member_not_prototype (ancestral : w.Ancestral (· ≠ "prototype")) (config : Config)
    (callable : w.isCallable f = true) : ∀ n ∈ Host.members w config f, n.key ≠ "prototype" := by
  intro n listed
  obtain ⟨q, owned, rfl⟩ := List.mem_map.1 (List.mem_filter.1 listed).1
  obtain ⟨c, category⟩ := isCallable_iff.1 callable
  rcases Host.category?_cases category with ⟨i, rfl, -⟩ | ⟨o, fn, rfl, found, -⟩
  · cases owned
  · obtain ⟨p, descended⟩ := ancestral.functions o fn (Nat.zero_le o) found
    have owns : w.heap.owns o q.name.key = true := List.any_eq_true.2 ⟨q, owned, by simp⟩
    rcases descended.own _ owns with name | length | other
    · rw [name]
      decide
    · rw [length]
      decide
    · exact other

/-- A shadow that is made mirrors, if its plugin's shadows did. -/
theorem Made.mirrorAt (made : Made p f w v) (sound : w.Sound) (ancestral : w.Ancestral (· ≠ "prototype"))
    (bound : p < w.plugins.size) (mirrors : Mirrors w p) :
    ∃ c, Host.category? w f = some c ∧ MirrorAt v p c ⟨w.heap.size, w.heap.size + 1⟩ := by
  have advances := made.resolves.advances
  obtain ⟨c, category, extended⟩ := made.entry
  have callable : w.isCallable f = true := isCallable_iff.2 ⟨c, category⟩
  have roots : (v.plugin p).roots = (w.plugin p).roots := by rw [extended]; rfl
  obtain ⟨parent, q, above, link, pseudo⟩ := made.prototype
  have ordered := sound.plugins p bound
  have inside : (w.plugin p).roots.objectPrototype < w.heap.size := ordered.inside _ (by simp [Plugin.owned])
  have linked : v.heap.Linked (w.heap.size + 1) (.obj q) := by
    refine ⟨?_, by rw [pseudo]⟩
    rw [made.size]
    exact Nat.lt_of_lt_of_le (Nat.lt_succ_self _) (Nat.le_add_right _ _)
  refine ⟨c, category, ?_, ?_, f, parent, advances.category? category, ?_, ?_⟩
  · rw [Heap.member?, made.shadow]
    show ((shadowBag w _ f _).find? _).map _ = _
    rw [shadowBag, find?_copied_other (member_not_prototype ancestral _ callable)]
    exact Bag.find?_put_same {} (Name.ofText "prototype") _ false
  · rw [roots]
    exact Nat.le_of_lt (Nat.lt_succ_of_lt inside)
  · rw [ancestral.superConstructor_eq callable advances.trail (w.plugin p).host]
    exact above
  · by_cases top : parent = .null
    · -- the object shadow is asked for its prototype, which is the patchable one
      subst top
      have answer : parentPrototype w (w.plugin p).roots (w.plugin p).roots.objectShadow =
          .ok (w.plugin p).roots.objectPrototype := by
        rw [parentPrototype, Heap.lookup_of_member? mirrors.root]
        rfl
      obtain rfl : q = (w.plugin p).roots.objectPrototype := Except.ok.inj (link.symm.trans answer)
      rw [roots]
      exact .inr ⟨rfl, .inr ⟨linked, Nat.lt_succ_of_lt inside⟩⟩
    · obtain ⟨t, found⟩ := Option.isSome_iff_exists.1 (made.ready parent above top)
      obtain ⟨d, -, registered, mirror⟩ := mirrors.found found
      have answer : parentPrototype w (w.plugin p).roots (parentShadow w p parent) = .ok t.prototype := by
        rw [parentShadow, found, Option.elim_some, parentPrototype, Heap.lookup_of_member? mirror.member]
        rfl
      obtain rfl : q = t.prototype := Except.ok.inj (link.symm.trans answer)
      have before : t.prototype < w.heap.size := ordered.inside _ (mem_owned.2 (.inr ⟨_, registered, .inr rfl⟩))
      exact .inl ⟨t, shadow?_advance advances found, linked, Nat.lt_succ_of_lt before⟩

theorem Made.mirrors (made : Made p f w v) (sound : w.Sound) (ancestral : w.Ancestral (· ≠ "prototype"))
    (bound : p < w.plugins.size) (mirrors : Mirrors w p) : Mirrors v p := by
  have advances := made.resolves.advances
  have ordered := sound.plugins p bound
  obtain ⟨c, category, new⟩ := made.mirrorAt sound ancestral bound mirrors
  obtain ⟨d, category', extended⟩ := made.entry
  obtain rfl : d = c := Option.some.inj (category'.symm.trans category)
  have same {o : ObjId} (shadow : o ∈ (w.plugin p).shadowObjects) :
      v.heap.member? o "prototype" = w.heap.member? o "prototype" :=
    Heap.member?_of_get (made.resolves.old o (ordered.lt_size shadow)) _
  have entries : (v.plugin p).shadows.entries =
      (w.plugin p).shadows.entries ++ [(d, ⟨w.heap.size, w.heap.size + 1⟩)] := by rw [extended]; rfl
  have roots : (v.plugin p).roots = (w.plugin p).roots := by rw [extended]; rfl
  refine ⟨?_, ?_, fun e registered => ?_⟩
  · rw [roots, same (by simp [shadowObjects])]
    exact mirrors.root
  · rw [entries, List.map_append, List.nodup_append]
    refine ⟨mirrors.distinct, by simp, fun o before o' last equal => ?_⟩
    obtain ⟨e, registered, rfl⟩ := List.mem_map.1 before
    have fresh : o' = w.heap.size + 1 := by simpa using last
    have inside := ordered.inside _ (mem_owned.2 (.inr ⟨e, registered, .inr rfl⟩))
    exact Nat.ne_of_lt (Nat.lt_succ_of_lt inside) (equal.trans fresh)
  · rw [entries, List.mem_append] at registered
    rcases registered with before | last
    · refine (mirrors.entries e before).later ancestral advances bound (same ?_)
      exact List.mem_append_right _ (List.mem_map.2 ⟨e, before, rfl⟩)
    · obtain rfl := List.mem_singleton.1 last
      exact new

theorem Raised.mirrors (raised : Raised p l w v) (sound : w.Sound) (ancestral : w.Ancestral (· ≠ "prototype"))
    (bound : p < w.plugins.size) (mirrors : Mirrors w p) : Mirrors v p := by
  induction raised with
  | nil _ => exact mirrors
  | cons made _ ih =>
    have resolves := made.resolves
    exact ih resolves.advances.sound (made.ancestral sound ancestral) (resolves.plugins ▸ bound)
      (made.mirrors sound ancestral bound mirrors)

/-- The table that a plugin comes with mirrors. -/
theorem Begun.mirrors (begun : Begun w p) (ancestral : w.Ancestral statics) (sound : w.Sound)
    (bound : p < w.plugins.size) : Mirrors w p := by
  obtain ⟨table, seeded⟩ := begun
  obtain ⟨object, function⟩ := superConstructor_roots ancestral sound (w.plugin p).host (w.plugin p).host
  obtain ⟨top, -, -, rooted⟩ := (sound.plugins p bound).rooted
  have there {o : ObjId} (root : o = (w.hostOf p).object) (callable : w.isCallable (.obj o) = true) :
      (w.plugin p).host < w.hosts.size := by
    refine Nat.lt_of_not_le fun out => ?_
    have none_there : w.hostOf p = default := by
      rw [World.hostOf, World.host, Array.getElem?_eq_none out]
      rfl
    rcases (sound.hosts (w.plugin p).host).constructors with apart | plain
    · change (w.hostOf p).object ≠ (w.hostOf p).function at apart
      rw [none_there] at apart
      exact apart rfl
    · rw [root, World.isCallable, World.hostFn?] at callable
      · change w.heap.hostFn? (w.hostOf p).object = none at plain
        rw [plain] at callable
        cases callable
      · rintro _ ⟨⟩
  refine ⟨seeded.objectShadow, ?_, fun e registered => ?_⟩
  · rw [table]
    cases first : Host.category? w (.obj (w.hostOf p).object) with
    | none => cases second : Host.category? w (.obj (w.hostOf p).function) <;> simp [seededShadows, first, second]
    | some c =>
      cases second : Host.category? w (.obj (w.hostOf p).function) with
      | none => simp [seededShadows, first, second]
      | some d => simp [seededShadows, first, second, Nat.ne_of_lt rooted.rising.1]
  · rw [table] at registered
    obtain ⟨x, here, entry⟩ := List.mem_filterMap.1 registered
    obtain ⟨c, category, rfl⟩ := Option.map_eq_some_iff.1 entry
    have callable : w.isCallable (.obj x.1) = true := isCallable_iff.2 ⟨c, category⟩
    simp only [List.mem_cons, List.not_mem_nil, or_false] at here
    rcases here with rfl | rfl
    · exact ⟨seeded.objectShadow, Nat.le_refl _, _, .null, category, object callable,
        .inr ⟨rfl, .inl ⟨rfl, rfl, there rfl callable⟩⟩⟩
    · have above := function callable
      obtain ⟨d, category'⟩ := isCallable_iff.1 (superConstructor_callable above (by rintro ⟨⟩))
      refine ⟨seeded.function, Nat.le_of_lt rooted.rising.1, _, _, category, above,
        .inl ⟨⟨(w.plugin p).roots.objectShadow, (w.plugin p).roots.objectPrototype⟩, ?_, rooted.functionPrototype,
          rooted.rising.1⟩⟩
      have first : Host.category? w (.obj (w.hostOf p).object) = some d := category'
      rw [shadow?, category', table]
      simp [Registry.find?, seededShadows, first]

end Plugin

/-- An effect that spares the prototypes of shadows leaves tables that mirror. -/
theorem Effect.mirrors {w : World} (sound : w.Sound) (ancestral : w.Ancestral (· ≠ "prototype")) {d : Effect}
    (spares : d.SparesPrototypes w) (later : (d.after w).Ancestral (· ≠ "prototype"))
    (mirrors : ∀ p, p < w.plugins.size → Plugin.Mirrors w p) {p : PluginId} (bound : p < (d.after w).plugins.size) :
    Plugin.Mirrors (d.after w) p := by
  have advances := d.advances sound
  rcases d.table_cases sound ancestral bound with ⟨before, same | ⟨done, raised⟩⟩ | begun
  · exact (mirrors p before).later ancestral advances before same fun o shadow =>
      d.member?_prototype sound spares before shadow
  · exact raised.mirrors sound ancestral before (mirrors p before)
  · exact begun.mirrors later advances.sound bound

/-- While the prototypes of shadows are spared, tables mirror at all times. -/
theorem ReachableUnder.mirrors {allows : World → Effect → Prop} {w : World} (reachable : ReachableUnder allows w)
    (within : ∀ u d, allows u d → d.Within (.definitions (· ≠ "prototype")))
    (spares : ∀ u d, allows u d → d.SparesPrototypes u) {p : PluginId} (bound : p < w.plugins.size) :
    Plugin.Mirrors w p := by
  refine (ExecutionUnder.keeps
    (I := fun w => w.Ancestral (· ≠ "prototype") ∧ ∀ p, p < w.plugins.size → Plugin.Mirrors w p) reachable
    World.initial_sound ⟨World.initial_ancestral _, fun p bound => absurd bound (Nat.not_lt_zero p)⟩
    (fun u t sound aside held => ⟨held.1.aside sound aside, fun p bound => ?_⟩)
    fun u d sound allowed held =>
      have later := d.ancestral sound (within u d allowed) held.1
      ⟨later, fun p => d.mirrors sound held.1 (spares u d allowed) later held.2⟩).2 p bound
  rw [aside.plugins] at bound
  refine (held.2 p bound).later held.1 (sound.advances (n := 0) (.of_aside aside)) bound ?_ fun o _ => ?_
  · rw [World.plugin, aside.plugins, World.plugin]
  · rw [aside.heap]

namespace Host
variable {w : World} {h : HostId} {f g : Value} {l : List Value}

/-- Above null there is nothing but null. -/
theorem eq_null_of_transGen (reached : Relation.TransGen (fun a b => superConstructor w h a = .ok b) .null g) :
    g = .null := by
  induction reached with
  | single above => exact (Except.ok.inj above).symm
  | tail _ above ih =>
    rw [ih] at above
    exact (Except.ok.inj above).symm

/-- The callables above the first one of a line are those that iterated super constructors reach. -/
theorem Line.mem_tail_iff (line : Line w h f l) (callable : w.isCallable g = true) :
    g ∈ l.tail ↔ Relation.TransGen (fun a b => superConstructor w h a = .ok b) f g := by
  have not_null : g ≠ .null := fun null => nomatch null ▸ callable
  induction line with
  | top above =>
    refine ⟨nofun, fun reached => absurd ?_ not_null⟩
    rcases Relation.TransGen.head'_iff.1 reached with ⟨b, step, rest⟩
    obtain rfl : .null = b := Except.ok.inj (above.symm.trans step)
    rcases Relation.reflTransGen_iff_eq_or_transGen.1 rest with same | further
    · exact same
    · exact eq_null_of_transGen further
  | @under f parent l above _ further ih =>
    obtain ⟨rest, rfl⟩ : ∃ rest, l = parent :: rest := by cases further <;> exact ⟨_, rfl⟩
    have further_up : g ∈ rest ↔ Relation.TransGen (fun a b => superConstructor w h a = .ok b) parent g := ih
    rw [List.tail_cons, List.mem_cons, further_up]
    constructor
    · rintro (rfl | reached)
      · exact .single above
      · exact .head above reached
    · intro reached
      obtain ⟨b, step, onward⟩ := Relation.TransGen.head'_iff.1 reached
      obtain rfl := Except.ok.inj (above.symm.trans step)
      exact Relation.reflTransGen_iff_eq_or_transGen.1 onward

end Host

namespace Plugin
variable {w : World} {statics : Key → Prop} {p : PluginId} {f g parent : Value} {s t : Shadow} {l : List Value}

/-- Callables with the same pseudo-prototype are the same. -/
theorem Mirrors.inj (mirrors : Mirrors w p) (sound : w.Sound) (found : shadow? w p f = some s)
    (found' : shadow? w p g = some t) (same : s.prototype = t.prototype) : f = g := by
  obtain ⟨c, category, registered, -⟩ := mirrors.found found
  obtain ⟨d, category', registered', -⟩ := mirrors.found found'
  have entry : (c, s) = (d, t) := List.inj_on_of_nodup_map mirrors.distinct registered registered' same
  obtain ⟨rfl, -⟩ := Prod.mk.inj entry
  exact Host.category?_inj sound.numbered category category'

/-- How the pseudo-prototype of a callable is linked. -/
theorem Mirrors.link (mirrors : Mirrors w p) (sound : w.Sound) (found : shadow? w p f = some s)
    (above : Host.superConstructor w (w.plugin p).host f = .ok parent) :
    (∃ t, shadow? w p parent = some t ∧ w.heap.Linked s.prototype (.obj t.prototype) ∧ t.prototype < s.prototype) ∨
      parent = .null ∧ (s.prototype = (w.plugin p).roots.objectPrototype ∧ f = .obj (w.hostOf p).object ∨
        w.heap.Linked s.prototype (.obj (w.plugin p).roots.objectPrototype) ∧
          (w.plugin p).roots.objectPrototype < s.prototype) := by
  obtain ⟨c, category, -, mirror⟩ := mirrors.found found
  obtain ⟨g, parent', category', super, link⟩ := mirror.link
  obtain rfl := Host.category?_inj sound.numbered category category'
  obtain rfl : parent = parent' := Except.ok.inj (above.symm.trans super)
  rcases link with linked | ⟨top, ⟨itself, object, -⟩ | linked⟩
  · exact .inl linked
  · exact .inr ⟨top, .inl ⟨itself, object⟩⟩
  · exact .inr ⟨top, .inr linked⟩

/-- Only the host's object constructor has the patchable prototype of objects as its pseudo-prototype. -/
theorem Mirrors.eq_object (mirrors : Mirrors w p) (sound : w.Sound) (found : shadow? w p f = some s)
    (root : s.prototype = (w.plugin p).roots.objectPrototype) : f = .obj (w.hostOf p).object := by
  obtain ⟨c, category, -, mirror⟩ := mirrors.found found
  obtain ⟨g, parent, category', super, -⟩ := mirror.link
  obtain rfl := Host.category?_inj sound.numbered category category'
  rcases mirrors.link sound found super with ⟨t, found', -, back⟩ | ⟨-, ⟨-, object⟩ | ⟨-, back⟩⟩
  · obtain ⟨_, -, -, mirror'⟩ := mirrors.found found'
    rw [root] at back
    exact absurd mirror'.above (Nat.not_le.2 back)
  · exact object
  · exact absurd root (Nat.ne_of_gt back)

/-- The strict ancestors of a pseudo-prototype, along the line of its callable. -/
theorem Mirrors.ancestors (mirrors : Mirrors w p) (sound : w.Sound) (line : Host.Line w (w.plugin p).host f l)
    (found : shadow? w p f = some s) :
    (s.prototype ≠ (w.plugin p).roots.objectPrototype →
      (w.plugin p).roots.objectPrototype ∈ w.heap.ancestors s.prototype) ∧
    ∀ g t, shadow? w p g = some t → g ≠ .obj (w.hostOf p).object →
      (t.prototype ∈ w.heap.ancestors s.prototype ↔ g ∈ l.tail) := by
  obtain ⟨top, ⟨ends, -⟩, below, rooted⟩ := (sound.plugins p (lt_size_of_shadow? found)).rooted
  have root_path : w.heap.ancestors (w.plugin p).roots.objectPrototype = [top] := by
    rw [Heap.ancestors_of_linked rooted.objectPrototype below, Heap.path, Heap.ancestors_of_null ends]
  have not_top {g : Value} {t : Shadow} (found : shadow? w p g = some t) : t.prototype ≠ top := by
    obtain ⟨_, -, -, mirror⟩ := mirrors.found found
    exact Nat.ne_of_gt (Nat.lt_of_lt_of_le below mirror.above)
  induction line generalizing s with
  | @top f above =>
    rcases mirrors.link sound found above with ⟨t, found', -⟩ | ⟨-, ⟨itself, -⟩ | ⟨linked, back⟩⟩
    · cases found'
    · rw [itself, root_path]
      refine ⟨fun other => absurd rfl other, fun g t found' _ => ?_⟩
      simp [not_top found']
    · rw [Heap.ancestors_of_linked linked back, Heap.path, root_path]
      refine ⟨fun _ => List.mem_cons_self, fun g t found' other => ?_⟩
      have not_root : t.prototype ≠ (w.plugin p).roots.objectPrototype := fun root =>
        other (mirrors.eq_object sound found' root)
      simp [not_top found', not_root]
  | @under f parent l above ancestor further ih =>
    rcases mirrors.link sound found above with ⟨t₀, found₀, linked, back⟩ | ⟨none_above, -⟩
    · obtain ⟨roots, others⟩ := ih found₀
      obtain ⟨rest, rfl⟩ : ∃ rest, l = parent :: rest := by cases further <;> exact ⟨_, rfl⟩
      rw [Heap.ancestors_of_linked linked back, Heap.path]
      refine ⟨fun _ => ?_, fun g t found' other => ?_⟩
      · by_cases root : t₀.prototype = (w.plugin p).roots.objectPrototype
        · rw [root]
          exact List.mem_cons_self
        · exact List.mem_cons_of_mem _ (roots root)
      · rw [List.mem_cons, others g t found' other, List.tail_cons, List.tail_cons, List.mem_cons]
        refine or_congr_left ⟨fun same => mirrors.inj sound found' found₀ same, fun same => ?_⟩
        rw [same, found₀] at found'
        rw [Option.some.inj found']
    · exact absurd none_above ancestor

/-- Shadow chains mirror the real ancestry. In a run in which all host functions come with a host or by definition, no
static is called `prototype`, and no one puts or erases the `prototype` of a shadow: the pseudo-prototype of a callable
that has its shadow is shown at once. It strictly descends from that of another such callable, which is not the host's
object constructor, if and only if iterated super constructors lead from the one callable to the other; and it strictly
descends from the patchable prototype of objects, unless the callable is the host's object constructor. -/
theorem pseudoPrototypes_mirror_ancestry
    (reachable : ReachableUnder (fun u d => d.Within (.definitions (· ≠ "prototype")) ∧ d.SparesPrototypes u) w)
    (found : shadow? w p f = some s) :
    exec (pseudoPrototype p f) w = (.ok (.obj s.prototype), w) ∧
    (f ≠ .obj (w.hostOf p).object → (w.plugin p).roots.objectPrototype ∈ w.heap.ancestors s.prototype) ∧
    ∀ g t, shadow? w p g = some t → g ≠ .obj (w.hostOf p).object →
      (t.prototype ∈ w.heap.ancestors s.prototype ↔
        Relation.TransGen (fun a b => Host.superConstructor w (w.plugin p).host a = .ok b) f g) := by
  have sound := reachable.reachable.sound
  have ancestral := reachable.ancestral fun _ _ allowed => allowed.1
  have mirrors := reachable.mirrors (fun _ _ allowed => allowed.1) (fun _ _ allowed => allowed.2)
    (lt_size_of_shadow? found)
  have callable {g : Value} {t : Shadow} (found : shadow? w p g = some t) : w.isCallable g = true := by
    obtain ⟨c, category, -⟩ := mirrors.found found
    exact isCallable_iff.2 ⟨c, category⟩
  obtain ⟨l, line⟩ := Host.exists_line ancestral (w.plugin p).host (callable found)
  obtain ⟨roots, others⟩ := mirrors.ancestors sound line found
  refine ⟨?_, fun other => roots fun root => other (mirrors.eq_object sound found root), fun g t found' other => ?_⟩
  · obtain ⟨_, -, -, mirror⟩ := mirrors.found found
    unfold pseudoPrototype
    rw [exec_get_bind, if_pos (callable found), exec_bind_ok (exec_shadowOf_known found), exec_get_bind,
      Heap.lookup_of_member? mirror.member]
    rfl
  · rw [others g t found' other]
    exact line.mem_tail_iff (callable found')

/-- What equals an object is that object. -/
theorem eq_obj_of_eqv {x : Value} {o : ObjId} (same : x.eqv (.obj o) = true) : x = .obj o := by
  cases x with
  | ref r => simpa [Datum.eqv] using same
  | _ => simp [Datum.eqv, Datum.number?] at same

/-- The pseudo-prototypes of two constructors, the second of which descends from the first. -/
theorem pseudoPrototypes_mirror_ancestry_family : ∃ w s t,
    ReachableUnder (fun u d => d.Within (.definitions (· ≠ "prototype")) ∧ d.SparesPrototypes u) w ∧
    shadow? w 0 (.obj 19) = some s ∧ shadow? w 0 (.obj 17) = some t ∧
    Relation.TransGen (fun a b => Host.superConstructor w (w.plugin 0).host a = .ok b) (.obj 19) (.obj 17) ∧
    t.prototype ∈ w.heap.ancestors s.prototype ∧
    (w.plugin 0).roots.objectPrototype ∈ w.heap.ancestors s.prototype := by
  let w := World.after (Effect.family ++ [.shadowOf 0 (.obj 19)])
  have reachable :
      ReachableUnder (fun u d => d.Within (.definitions (· ≠ "prototype")) ∧ d.SparesPrototypes u) w := by
    refine reachableUnder_after fun d listed u => ?_
    rcases List.mem_append.1 listed with before | last
    · refine ⟨Effect.family_within _ d before, ?_⟩
      simp only [Effect.family, List.mem_cons, List.not_mem_nil, or_false] at before
      rcases before with rfl | rfl | rfl | rfl | rfl <;> trivial
    · rw [List.mem_singleton.1 last]
      exact ⟨trivial, trivial⟩
  have facts : shadow? w 0 (.obj 19) = some ⟨22, 23⟩ ∧ shadow? w 0 (.obj 17) = some ⟨20, 21⟩ ∧
      (w.hostOf 0).object = 3 ∧
      (Host.superConstructor w (w.plugin 0).host (.obj 19)).toOption.any (·.eqv (.obj 17)) = true := by
    decide +kernel
  obtain ⟨found, found', object, above⟩ := facts
  have other {o : ObjId} (differs : o ≠ 3) : (.obj o : Value) ≠ .obj (w.hostOf 0).object := by
    rw [object]
    exact fun same => differs (Ref.object.inj (Datum.ref.inj same))
  have super : Host.superConstructor w (w.plugin 0).host (.obj 19) = .ok (.obj 17) := by
    cases answer : Host.superConstructor w (w.plugin 0).host (.obj 19) with
    | error e => rw [answer] at above; cases above
    | ok x =>
      rw [answer] at above
      rw [eq_obj_of_eqv above]
  obtain ⟨-, roots, mirror⟩ := pseudoPrototypes_mirror_ancestry reachable found
  have reached : Relation.TransGen (fun a b => Host.superConstructor w (w.plugin 0).host a = .ok b) (.obj 19)
    (.obj 17) := .single super
  exact ⟨w, _, _, reachable, found, found', reached, (mirror _ _ found' (other (by decide))).2 reached,
    roots (other (by decide))⟩

end Plugin

end Overlay
