import Mathlib.Data.List.Basic
import Overlay.Proofs.Legibility

/-!
# What a resolution registers

A plugin's table is closed: whose category is in it, the category of its super constructor is in it too. A new
plugin's table is, and shadows are made with the farthest ancestor first, so it stays closed. What is missing on the
line of a callable is therefore the part below the first ancestor that has a shadow, and asking for the callable's
shadow registers just that part.
-/

namespace Overlay
set_option autoImplicit false

open Act World

namespace Plugin
variable {w v u : World} {statics : Key → Prop} {p : PluginId} {f g parent : Value} {c : Category} {l : List Value}

/-- The category is that of a callable whose super constructor, if it has one, has a shadow. -/
def ClosedAt (w : World) (p : PluginId) (c : Category) : Prop :=
  ∃ g, Host.category? w g = some c ∧ ∀ parent, Host.superConstructor w (w.plugin p).host g = .ok parent →
    parent ≠ .null → (shadow? w p parent).isSome = true

/-- The table of the plugin is closed. -/
def Closed (w : World) (p : PluginId) : Prop :=
  ∀ c ∈ (w.plugin p).shadows.keys, ClosedAt w p c

theorem ClosedAt.later (closed : ClosedAt w p c) (ancestral : w.Ancestral statics) (advances : Advances w v) :
    ClosedAt v p c := by
  obtain ⟨g, category, above⟩ := closed
  refine ⟨g, advances.category? category, fun parent answer ancestor => ?_⟩
  rw [ancestral.superConstructor_eq (isCallable_iff.2 ⟨c, category⟩) advances.trail (w.plugin p).host] at answer
  obtain ⟨s, found⟩ := Option.isSome_iff_exists.1 (above parent answer ancestor)
  rw [shadow?_advance advances found]
  rfl

theorem Closed.later (closed : Closed w p) (ancestral : w.Ancestral statics) (advances : Advances w v)
    (same : v.plugin p = w.plugin p) : Closed v p := by
  intro c listed
  rw [same] at listed
  exact (closed c listed).later ancestral advances

theorem Made.closed (made : Made p f w v) (ancestral : w.Ancestral statics) (closed : Closed w p) : Closed v p := by
  have advances := made.resolves.advances
  obtain ⟨c, category, extended⟩ := made.entry
  intro d listed
  rw [extended, Registry.keys, Plugin.extend, List.map_append, List.mem_append] at listed
  rcases listed with before | new
  · exact (closed d before).later ancestral advances
  · obtain rfl : d = c := by simpa using new
    exact ClosedAt.later ⟨f, category, made.ready⟩ ancestral advances

theorem Raised.closed (raised : Raised p l w v) (sound : w.Sound) (ancestral : w.Ancestral statics)
    (closed : Closed w p) : Closed v p := by
  induction raised with
  | nil _ => exact closed
  | cons made _ ih =>
    exact ih made.resolves.advances.sound (made.ancestral sound ancestral) (made.closed ancestral closed)

/-! ## Closed tables over a run -/

/-- Asking for a shadow is a raising, whatever is asked for. -/
theorem shadowOf_raised (sound : w.Sound) (ancestral : w.Ancestral statics) (bound : p < w.plugins.size) (f : Value) :
    ∃ done, Raised p done w (exec (shadowOf p f) w).2 := by
  cases callable : w.isCallable f with
  | true =>
    obtain ⟨l, done, v, -, raised, ⟨⟨s, run, -⟩, -⟩ | ⟨-, -, e, run⟩⟩ := shadowOf_raises sound ancestral bound callable
    · exact ⟨done, by rw [run]; exact raised⟩
    · exact ⟨done, by rw [run]; exact raised⟩
  | false =>
    have refused : exec (shadowOf p f) w = (.error _, w) := exec_bind_error (exec_enforceCallable_refused _ callable)
    exact ⟨[], by rw [refused]; exact .nil w⟩

end Plugin

/-- Tables of shadows change only when a plugin is made or a shadow is asked for. -/
theorem Effect.plugins_eq {w : World} (d : Effect) : (d.after w).plugins = w.plugins ∨ (∃ p f, d = .shadowOf p f) ∨
    ∃ h config outers, d = .makePlugin h config outers := by
  have old : w.heap.size ≤ w.heap.size := Nat.le_refl _
  cases d with
  | newFn f => exact .inl (newFn_leaves (n := 0) f).world.plugins
  | newObject proto members => exact .inl (alloc_leaves proto members old).world.plugins
  | put o name value enumerable => exact .inl (putProperty_leaves o name value enumerable (Nat.zero_le o)).world.plugins
  | erase o name => exact .inl (eraseProperty_leaves o name (Nat.zero_le o)).world.plugins
  | freeze o => exact .inl (freeze_leaves o (Nat.zero_le o)).world.plugins
  | newFunction impl s proto prototype => exact .inl (Host.newFunction_leaves impl s proto prototype old).world.plugins
  | defineFunction h impl s => exact .inl (Host.defineFunction_leaves h impl s old).world.plugins
  | defineConstructor h s init parent methods statics =>
    exact .inl (Host.defineConstructor_leaves h s init parent methods statics old).world.plugins
  | makeHost =>
    left
    show (exec Host.make w).2.plugins = _
    rw [Host.exec_make]
    rfl
  | registerPrimitive h kind ctor => exact .inl rfl
  | makePlugin h config outers => exact .inr (.inr ⟨h, config, outers, rfl⟩)
  | shadowOf p f => exact .inr (.inl ⟨p, f, rfl⟩)
  | emulate p raw name => exact .inl (Plugin.emulate_leaves p raw name).world.plugins
  | forwarder p name => exact .inl (Plugin.forwarder_leaves p name).world.plugins

namespace Plugin
variable {w v u : World} {statics : Key → Prop} {p : PluginId} {f g parent : Value} {c : Category} {l : List Value}

/-- The function constructor of a host has its object constructor as super constructor; that one has none. -/
theorem superConstructor_roots (ancestral : w.Ancestral statics) (sound : w.Sound) (h k : HostId) :
    (w.isCallable (.obj (w.host h).object) = true →
      Host.superConstructor w k (.obj (w.host h).object) = .ok .null) ∧
    (w.isCallable (.obj (w.host h).function) = true →
      Host.superConstructor w k (.obj (w.host h).function) = .ok (.obj (w.host h).object)) := by
  have heads := ancestral.hosts h
  have host {o : ObjId} (callable : w.isCallable (.obj o) = true) : ∃ fn, w.heap.hostFn? o = some fn :=
    Option.isSome_iff_exists.1 callable
  refine ⟨fun callable => ?_, fun callable => ?_⟩
  · obtain ⟨fn, found⟩ := host callable
    obtain ⟨q, descended⟩ := ancestral.functions _ fn (Nat.zero_le _) found
    obtain rfl : (w.host h).objectPrototype = q :=
      Ref.object.inj (Datum.ref.inj ((heads.object fn found).symm.trans descended.link))
    rw [(Host.superConstructor_of_descended found descended k).1,
      Heap.constructorAbove_of_null (sound.hosts h).top.1.2]
  · obtain ⟨fn, found⟩ := host callable
    obtain ⟨prototype, linked, owned⟩ := heads.function fn found
    obtain ⟨q, descended⟩ := ancestral.functions _ fn (Nat.zero_le _) found
    obtain rfl : (w.host h).functionPrototype = q :=
      Ref.object.inj (Datum.ref.inj (prototype.symm.trans descended.link))
    rw [(Host.superConstructor_of_descended found descended k).1, Heap.constructorAbove_of_obj linked, owned]
    rfl

/-- The plugin's table is the one that it came with, and its roots that are shadows hold their pseudo-prototypes. -/
structure Begun (w : World) (p : PluginId) : Prop where
  table : (w.plugin p).shadows = ⟨seededShadows w (w.hostOf p) (w.plugin p).roots⟩
  seeded : Seeded w.heap (w.plugin p).roots

/-- The table that a plugin comes with is closed. -/
theorem Begun.closed (begun : Begun w p) (ancestral : w.Ancestral statics) (sound : w.Sound) : Closed w p := by
  obtain ⟨object, function⟩ := superConstructor_roots ancestral sound (w.plugin p).host (w.plugin p).host
  intro c listed
  rw [begun.table] at listed
  obtain ⟨e, seed, rfl⟩ := List.mem_map.1 listed
  obtain ⟨x, here, entry⟩ := List.mem_filterMap.1 seed
  obtain ⟨d, category, rfl⟩ := Option.map_eq_some_iff.1 entry
  refine ⟨.obj x.1, category, fun parent above ancestor => ?_⟩
  have callable : w.isCallable (.obj x.1) = true := isCallable_iff.2 ⟨d, category⟩
  simp only [List.mem_cons, List.not_mem_nil, or_false] at here
  rcases here with rfl | rfl
  · exact absurd (Except.ok.inj (above.symm.trans (object callable))) ancestor
  · obtain rfl : parent = .obj (w.hostOf p).object := Except.ok.inj (above.symm.trans (function callable))
    obtain ⟨d', category'⟩ := isCallable_iff.1 (superConstructor_callable above nofun)
    rw [shadow?, category', begun.table]
    simp [Registry.find?, seededShadows, category']

/-- A plugin that is there after a plugin was made was there before, or has just begun. -/
theorem make_begun (h : HostId) (config : Config) (outers : Value)
    (bound : p < (exec (make h config outers) w).2.plugins.size) :
    (p < w.plugins.size ∧ (exec (make h config outers) w).2.plugin p = w.plugin p) ∨
      Begun (exec (make h config outers) w).2 p := by
  obtain ⟨functions, hosts⟩ := (make_plain h config outers w).world
  have categories (o : ObjId) : Host.category? (exec (make h config outers) w).2 (.obj o) =
      Host.category? w (.obj o) := Host.category?_congr functions _
  have host : (exec (make h config outers) w).2.host h = w.host h := by rw [World.host, hosts, World.host]
  obtain ⟨u, grown, -, stopped | ⟨r, seeded, -, made⟩⟩ := make_cases (w := w) h config outers
  · have same : (exec (make h config outers) w).2.plugins = w.plugins := by rw [stopped, grown.plugins]
    rw [same] at bound
    exact .inl ⟨bound, by rw [World.plugin, same, World.plugin]⟩
  · have plugins : (exec (make h config outers) w).2.plugins =
        w.plugins.push ⟨h, config, r, outers, ⟨seededShadows w (w.host h) r⟩⟩ := by rw [made, grown.plugins]
    by_cases new : p = w.plugins.size
    · have here : (exec (make h config outers) w).2.plugin p =
          ⟨h, config, r, outers, ⟨seededShadows w (w.host h) r⟩⟩ := by
        rw [World.plugin, plugins, new, Array.getElem?_push_size]
        rfl
      refine .inr ⟨?_, ?_⟩
      · rw [World.hostOf, here, host]
        simp only [seededShadows, categories]
      · rw [here, made]
        exact seeded
    · rw [plugins, Array.size_push] at bound
      refine .inl ⟨Nat.lt_of_le_of_ne (Nat.le_of_lt_succ bound) new, ?_⟩
      rw [World.plugin, plugins, Array.getElem?_push, if_neg new, World.plugin]

end Plugin

/-- What an effect does to the table of a plugin: nothing, or shadows are made, or the plugin has just begun. -/
theorem Effect.table_cases {statics : Key → Prop} {w : World} (sound : w.Sound) (ancestral : w.Ancestral statics)
    (d : Effect) {p : PluginId} (bound : p < (d.after w).plugins.size) :
    (p < w.plugins.size ∧ ((d.after w).plugin p = w.plugin p ∨ ∃ done, Plugin.Raised p done w (d.after w))) ∨
      Plugin.Begun (d.after w) p := by
  rcases d.plugins_eq (w := w) with same | ⟨q, f, rfl⟩ | ⟨h, config, outers, rfl⟩
  · rw [same] at bound
    exact .inl ⟨bound, .inl (by rw [World.plugin, same, World.plugin])⟩
  · have resolves : Resolves q w.heap.size w (exec (Plugin.shadowOf q f) w).2 :=
      (Plugin.shadowOf_leaves sound (Nat.le_refl _)).world sound
    have before : p < w.plugins.size := resolves.plugins ▸ bound
    by_cases this : p = q
    · subst this
      exact .inl ⟨before, .inr (Plugin.shadowOf_raised sound ancestral before f)⟩
    · exact .inl ⟨before, .inl (resolves.others p this)⟩
  · rcases Plugin.make_begun h config outers bound with ⟨before, same⟩ | begun
    · exact .inl ⟨before, .inl same⟩
    · exact .inr begun

/-- An effect that leaves the ancestry leaves closed tables. -/
theorem Effect.closed {statics : Key → Prop} {w : World} (sound : w.Sound) (ancestral : w.Ancestral statics) {d : Effect}
    (later : (d.after w).Ancestral statics) (closed : ∀ p, p < w.plugins.size → Plugin.Closed w p) {p : PluginId}
    (bound : p < (d.after w).plugins.size) : Plugin.Closed (d.after w) p := by
  have advances := d.advances sound
  rcases d.table_cases sound ancestral bound with ⟨before, same | ⟨done, raised⟩⟩ | begun
  · exact (closed p before).later ancestral advances same
  · exact raised.closed sound ancestral (closed p before)
  · exact begun.closed later advances.sound

/-- Where all host functions come with a host or by definition, the tables of shadows are closed at all times. -/
theorem ReachableUnder.closed {statics : Key → Prop} {allows : World → Effect → Prop} {w : World}
    (reachable : ReachableUnder allows w) (within : ∀ u d, allows u d → d.Within (.definitions statics))
    {p : PluginId} (bound : p < w.plugins.size) : Plugin.Closed w p := by
  -- that an effect keeps tables closed rests on the ancestry before it
  refine (ExecutionUnder.keeps (I := fun w => w.Ancestral statics ∧ ∀ p, p < w.plugins.size → Plugin.Closed w p) reachable
    World.initial_sound ⟨World.initial_ancestral statics, fun p bound => absurd bound (Nat.not_lt_zero p)⟩
    (fun u t sound aside held => ⟨held.1.aside sound aside, fun p bound => ?_⟩)
    fun u d sound allowed held =>
      have later := d.ancestral sound (within u d allowed) held.1
      ⟨later, fun p => d.closed sound held.1 later held.2⟩).2 p bound
  rw [aside.plugins] at bound
  refine (held.2 p bound).later held.1 (sound.advances (n := 0) (.of_aside aside)) ?_
  rw [World.plugin, aside.plugins, World.plugin]

/-! ## The missing ancestry -/

namespace Plugin
variable {w v u : World} {statics : Key → Prop} {p : PluginId} {f g parent : Value} {c : Category} {l : List Value}

theorem shadow?_isNone_iff (category : Host.category? w f = some c) :
    (shadow? w p f).isNone = true ↔ c ∉ (w.plugin p).shadows.keys := by
  rw [shadow?, category, Option.bind_some, Option.isNone_iff_eq_none]
  refine ⟨Registry.not_mem_keys, fun absent => ?_⟩
  cases found : (w.plugin p).shadows.find? c with
  | none => rfl
  | some s => exact absurd (List.mem_map.2 ⟨_, Registry.mem_of_find? found, rfl⟩) absent

theorem Closed.known_above (closed : Closed w p) (sound : w.Sound) (found : (shadow? w p f).isSome = true)
    (above : Host.superConstructor w (w.plugin p).host f = .ok parent) (ancestor : parent ≠ .null) :
    (shadow? w p parent).isSome = true := by
  obtain ⟨s, here⟩ := Option.isSome_iff_exists.1 found
  obtain ⟨c, category, entry⟩ := Option.bind_eq_some_iff.1 here
  obtain ⟨g, category', up⟩ := closed c (List.mem_map.2 ⟨_, Registry.mem_of_find? entry, rfl⟩)
  obtain rfl := Host.category?_inj sound.numbered category category'
  exact up parent above ancestor

/-- Where a callable has its shadow, its whole line has. -/
theorem Closed.line (closed : Closed w p) (sound : w.Sound) (line : Host.Line w (w.plugin p).host f l)
    (found : (shadow? w p f).isSome = true) (listed : g ∈ l) : (shadow? w p g).isSome = true := by
  induction line with
  | top _ =>
    obtain rfl := List.mem_singleton.1 listed
    exact found
  | under above ancestor _ ih =>
    rcases List.mem_cons.1 listed with rfl | later
    · exact found
    · exact ih (closed.known_above sound found above ancestor) later

/-- The chain of a callable is what is missing on its line. -/
theorem Chain.eq_filter {chain : List Value} (missing : Chain w p f chain) (closed : Closed w p) (sound : w.Sound)
    (line : Host.Line w (w.plugin p).host f l) : l.filter (fun g => (shadow? w p g).isNone) = chain := by
  induction line generalizing chain with
  | top above =>
    cases missing with
    | known found => simp [found]
    | last absent _ => simp [absent]
    | more _ above' ancestor _ => exact absurd (Except.ok.inj (above'.symm.trans above)) ancestor
  | @under f parent l above ancestor further ih =>
    cases missing with
    | known found =>
      rw [List.filter_eq_nil_iff]
      intro g listed none
      have some_found := closed.line sound (.under above ancestor further) (by rw [found]; rfl) listed
      rw [Option.isSome_iff_ne_none] at some_found
      exact some_found (Option.isNone_iff_eq_none.1 none)
    | last _ top => exact absurd (Except.ok.inj (above.symm.trans top)) ancestor
    | more absent above' _ further' =>
      obtain rfl := Except.ok.inj (above.symm.trans above')
      rw [List.filter_cons_of_pos (by rw [absent]; rfl), ih further']

/-- The categories on the line of a callable that are not in the table are those of its chain. -/
theorem Chain.categories {chain : List Value} (missing : Chain w p f chain) (closed : Closed w p) (sound : w.Sound)
    (line : Host.Line w (w.plugin p).host f l) (callable : w.isCallable f = true) :
    (l.reverse.filterMap (Host.category? w)).filter (· ∉ (w.plugin p).shadows.keys) =
      chain.reverse.filterMap (Host.category? w) := by
  rw [← missing.eq_filter closed sound line, ← List.filter_reverse, List.filter_filterMap, List.filterMap_filter]
  refine List.filterMap_congr fun g listed => ?_
  obtain ⟨c, category⟩ := isCallable_iff.1 (line.callable callable (List.mem_reverse.1 listed))
  have known := shadow?_isNone_iff (p := p) category
  rw [category]
  by_cases absent : c ∉ (w.plugin p).shadows.keys
  · rw [if_pos (known.2 absent)]
    simp [absent]
  · rw [if_neg (fun none => absent (known.1 none))]
    simp only [Option.filter_some, decide_eq_true_eq, if_neg absent]

/-- Resolution ends and registers the missing ancestry. Where all host functions come with a host or by definition,
the super constructor of a host function is null or a host function with a smaller number. Asking for the shadow of a
callable appends categories to the table of the plugin: those on the line of the callable that are not in it, the
farthest from the callable first and its own last, each once. All of them are appended if the shadow is given, and an
initial part of them if not. Where effects are given values of their world, the shadow is given just if there is no log
or the lines on all the missing shadows can be written. Where the callable has its shadow, nothing changes. -/
theorem missing_ancestry_registered
    (reachable : ReachableUnder (fun _ d => d.Within (.definitions fun _ => True)) w) :
    (∀ h o fn, w.heap.hostFn? o = some fn → Host.superConstructor w h (.obj o) = .ok .null ∨
      ∃ c g, Host.superConstructor w h (.obj o) = .ok (.obj c) ∧ w.heap.hostFn? c = some g ∧
        g.category < fn.category) ∧
    ∀ p f, p < w.plugins.size → w.isCallable f = true → ∃ line added r v,
      Host.Line w (w.plugin p).host f line ∧ exec (shadowOf p f) w = (r, v) ∧
      (v.plugin p).shadows.keys = (w.plugin p).shadows.keys ++ added ∧ (v.plugin p).shadows.keys.Nodup ∧
      added <+: (line.reverse.filterMap (Host.category? w)).filter (· ∉ (w.plugin p).shadows.keys) ∧
      ((∃ s, r = .ok s) →
        added = (line.reverse.filterMap (Host.category? w)).filter (· ∉ (w.plugin p).shadows.keys)) ∧
      (ReachableUnder (fun u d => d.Given False u) w →
        ((∃ s, r = .ok s) ↔ ∀ g ∈ line, shadow? w p g = none → Loggable w p g)) ∧
      ((shadow? w p f).isSome = true → v = w ∧ ∃ s, r = .ok s) := by
  have sound := reachable.reachable.sound
  have ancestral := reachable.ancestral fun _ _ within => within
  refine ⟨fun h o fn found => ?_, fun p f bound callable => ?_⟩
  · obtain ⟨parent, older, always⟩ := ancestral.superConstructor (Host.isCallable_hostFn found)
    have above := always w (.refl _) h
    rcases older with rfl | ⟨c, o', g, fn', rfl, same, host, found', smaller, -⟩
    · exact .inl above
    · obtain rfl : o = o' := Ref.object.inj (Datum.ref.inj same)
      obtain rfl := Option.some.inj (found.symm.trans found')
      exact .inr ⟨c, g, above, host, smaller⟩
  · obtain ⟨line, lineage⟩ := Host.exists_line ancestral (w.plugin p).host callable
    obtain ⟨chain, done, v, missing, raised, outcome⟩ := shadowOf_raises sound ancestral bound callable
    have closed := reachable.closed (fun _ _ within => within) bound
    have distinct := ((raised.resolves sound).advances.sound.plugins p
      (Nat.lt_of_lt_of_eq bound (raised.resolves sound).plugins.symm)).categories
    have on_line (g : Value) : g ∈ chain.reverse ↔ g ∈ line ∧ shadow? w p g = none := by
      rw [List.mem_reverse, ← missing.eq_filter closed sound lineage, List.mem_filter, Option.isNone_iff_eq_none]
    have known (found : (shadow? w p f).isSome = true) : ∃ s, exec (shadowOf p f) w = (.ok s, w) := by
      obtain ⟨s, here⟩ := Option.isSome_iff_exists.1 found
      exact ⟨s.object, exec_shadowOf_known here⟩
    refine ⟨line, done.filterMap (Host.category? w), ?_⟩
    rw [missing.categories closed sound lineage callable]
    rcases outcome with ⟨⟨s, run, -⟩, rfl, builds⟩ | ⟨⟨g, listed, silenced⟩, part, e, run⟩
    · refine ⟨_, v, lineage, run, raised.keys, distinct, List.prefix_rfl, fun _ => rfl, fun given => ?_, fun found => ?_⟩
      · refine ⟨fun _ g listed absent => ?_, fun _ => ⟨s.object, rfl⟩⟩
        exact raised.loggable sound ancestral given.intact builds ((on_line g).2 ⟨listed, absent⟩)
      · obtain ⟨s', run'⟩ := known found
        exact ⟨(Prod.mk.inj (run.symm.trans run')).2, s.object, rfl⟩
    · refine ⟨_, v, lineage, run, raised.keys, distinct, part.filterMap _, nofun, fun given => ?_, fun found => ?_⟩
      · refine ⟨nofun, fun loggable => ?_⟩
        obtain ⟨here, absent⟩ := (on_line g).1 (part.subset listed)
        rw [raised.loggable_iff sound ancestral given.intact (raised.callable listed)] at silenced
        exact absurd (loggable g here absent) silenced
      · obtain ⟨s', run'⟩ := known found
        cases (Prod.mk.inj (run.symm.trans run')).1

/-- The effects that make a family and, below its second constructor, one with a static `name` that is no text. -/
def numberedFamily : List Effect :=
  Effect.family ++ [.defineConstructor 0 { name := .str "Point" } .null (.obj 19) [] [(Name.ofText "name", .int 5)]]

theorem numberedFamily_given : Effect.AllowedFrom (fun u d => d.Given False u ∧ d.Within (.definitions fun _ => True))
    { World.initial with logging := true } numberedFamily := by
  refine (Effect.family_given False (fun _ => True) true).append
    ⟨⟨⟨⟨Datum.below_str, Datum.below_null, Datum.below_null⟩, Datum.below_null, Datum.below_obj.2 ?_, nofun, ?_⟩,
      nofun, fun _ _ => trivial⟩, trivial⟩
  · decide +kernel
  · intro m listed
    cases List.mem_singleton.1 listed
    exact ⟨Datum.below_str, Datum.below_int⟩

/-- With a log, and for a constructor whose name is an integer: asking for its shadow registers the two constructors that
it descends from and then itself. -/
theorem missing_ancestry_registered_family : ∃ w line s v,
    ReachableUnder (fun _ d => d.Within (.definitions fun _ => True)) w ∧
    ReachableUnder (fun u d => d.Given False u) w ∧ w.logging = true ∧ w.isCallable (.obj 21) = true ∧
    (w.plugin 0).shadows.keys = [.host 1, .host 2] ∧ Host.Line w (w.plugin 0).host (.obj 21) line ∧
    (∀ g ∈ line, shadow? w 0 g = none → Loggable w 0 g) ∧
    (line.reverse.filterMap (Host.category? w)).filter (· ∉ (w.plugin 0).shadows.keys) = [.host 6, .host 7, .host 8] ∧
    exec (shadowOf 0 (.obj 21)) w = (.ok s, v) ∧
    (v.plugin 0).shadows.keys = [.host 1, .host 2, .host 6, .host 7, .host 8] := by
  let w := numberedFamily.foldl Effect.after { World.initial with logging := true }
  have waking : TransitionUnder (fun u d => d.Given False u ∧ d.Within (.definitions fun _ => True)) World.initial
      { World.initial with logging := true } := .aside ⟨rfl, rfl, rfl, rfl, rfl⟩
  have reachable : ReachableUnder (fun u d => d.Given False u ∧ d.Within (.definitions fun _ => True)) w :=
    .head waking numberedFamily_given.execution
  have facts : 0 < w.plugins.size ∧ w.isCallable (.obj 21) = true ∧ w.logging = true ∧
      (∀ o, o < w.heap.size → Answered (w.describe (.obj o))) ∧ (w.plugin 0).shadows.keys = [.host 1, .host 2] ∧
      ((exec (shadowOf 0 (.obj 21)) w).2.plugin 0).shadows.keys =
        [.host 1, .host 2, .host 6, .host 7, .host 8] := by
    decide +kernel
  clear_value w
  obtain ⟨bound, callable, logs, shown, before, after⟩ := facts
  have legible : w.Legible := fun _ o fn found => shown o (Heap.lt_size_of_hostFn? found)
  have defined := reachable.loosen fun _ _ allowed => allowed.2
  have given := reachable.loosen fun _ _ allowed => allowed.1
  obtain ⟨line, added, r, v, lineage, run, keys, -, -, all, given_iff, -⟩ :=
    (missing_ancestry_registered defined).2 0 (.obj 21) bound callable
  have loggable : ∀ g ∈ line, shadow? w 0 g = none → Loggable w 0 g :=
    fun g listed _ => loggable_of_legible legible (lineage.callable callable listed)
  obtain ⟨s, rfl⟩ := (given_iff given).2 loggable
  obtain rfl := all ⟨s, rfl⟩
  rw [run] at after
  refine ⟨w, line, s, v, defined, given, logs, callable, before, lineage, loggable, ?_, run, after⟩
  rw [after, before] at keys
  rw [before]
  exact ((List.append_right_inj [Category.host 1, .host 2]).1 keys).symm

/-- With a log, and below a constructor whose name is nested too deep for a text: asking for a shadow stops after that
constructor is registered, so one of the two missing categories is not appended. -/
theorem missing_ancestry_cut_short : ∃ w line e v,
    ReachableUnder (fun u d => d.Given False u ∧ d.Within (.definitions fun _ => True)) w ∧ 0 < w.plugins.size ∧
    w.isCallable (.obj 19) = true ∧ (w.plugin 0).shadows.keys = [.host 1, .host 2] ∧
    Host.Line w (w.plugin 0).host (.obj 19) line ∧
    (line.reverse.filterMap (Host.category? w)).filter (· ∉ (w.plugin 0).shadows.keys) = [.host 6, .host 7] ∧
    exec (shadowOf 0 (.obj 19)) w = (.error e, v) ∧
    (v.plugin 0).shadows.keys = [.host 1, .host 2, .host 6] := by
  let w := Effect.unnamableFamily.foldl Effect.after { World.initial with logging := true }
  have reachable : ReachableUnder (fun u d => d.Given False u ∧ d.Within (.definitions fun _ => True)) w :=
    Effect.unnamableFamily_reachable False
  let line : List Value := [.obj 19, .obj 17, .obj 3]
  have facts : 0 < w.plugins.size ∧ w.isCallable (.obj 19) = true ∧ (w.plugin 0).shadows.keys = [.host 1, .host 2] ∧
      (line.reverse.filterMap (Host.category? w)).filter (· ∉ (w.plugin 0).shadows.keys) = [.host 6, .host 7] ∧
      (Host.superConstructor w (w.plugin 0).host (.obj 19)).toOption = some (.obj 17) ∧
      (Host.superConstructor w (w.plugin 0).host (.obj 17)).toOption = some (.obj 3) ∧
      (Host.superConstructor w (w.plugin 0).host (.obj 3)).toOption = some .null ∧
      ¬ Answered (exec (shadowOf 0 (.obj 19)) w).1 ∧
      ((exec (shadowOf 0 (.obj 19)) w).2.plugin 0).shadows.keys = [.host 1, .host 2, .host 6] := by
    decide +kernel
  clear_value w
  obtain ⟨bound, callable, before, missing, first, second, third, stopped, after⟩ := facts
  have lineage : Host.Line w (w.plugin 0).host (.obj 19) line :=
    .under (eq_ok_of_toOption first) (by rintro ⟨⟩) (.under (eq_ok_of_toOption second) (by rintro ⟨⟩)
      (.top (eq_ok_of_toOption third)))
  obtain ⟨e, fault⟩ := Answered.exists_error stopped
  exact ⟨w, line, e, _, reachable, bound, callable, before, lineage, missing, Prod.ext fault rfl, after⟩

end Plugin

end Overlay
