import Overlay.Proofs.Assembly

/-!
# Resolving a shadow

What `Plugin.shadowOf` does to a sound world: it makes objects and registers shadows of one plugin. No object
that was there changes, no other plugin does, and no category is registered twice. A shadow that is made holds a
forwarder for each method of the callable.
-/

namespace Overlay
set_option autoImplicit false

open Act World Emulation

namespace World

/-- One plugin got shadows; objects below `n`, hosts and other plugins are as they were. -/
structure Resolves (p : PluginId) (n : Nat) (w v : World) : Prop where
  advances : Advances w v
  old : ∀ o, o < n → v.heap.get o = w.heap.get o
  others : ∀ q, q ≠ p → v.plugin q = w.plugin q
  plugins : v.plugins.size = w.plugins.size
  hosts : v.hosts = w.hosts

variable {p : PluginId} {n : Nat} {u v w : World}

theorem Resolves.trans (near : Resolves p n u v) (far : Resolves p n v w) : Resolves p n u w :=
  ⟨near.advances.trans far.advances, fun o below => (far.old o below).trans (near.old o below),
    fun q other => (far.others q other).trans (near.others q other), far.plugins.trans near.plugins,
    far.hosts.trans near.hosts⟩

theorem Resolves.mono {m : Nat} (resolves : Resolves p n w v) (fewer : m ≤ n) : Resolves p m w v :=
  { resolves with old := fun o below => resolves.old o (Nat.lt_of_lt_of_le below fewer) }

theorem Sound.resolves (sound : w.Sound) (grown : Grows n w v) : Resolves p n w v :=
  ⟨sound.advances grown, grown.old, fun q _ => grown.plugin q, by rw [grown.plugins], grown.hosts⟩

end World

/-- One plugin gets shadows in a sound world. -/
def Regime.resolving (p : PluginId) (n : Nat) : Regime where
  step w v := w.Sound → Resolves p n w v
  fault _ e := e.isReport = false
  refl w sound := sound.resolves (.refl n w)
  trans near far sound := (near sound).trans (far (near sound).advances.sound)
  back _ h := h
  ordinary _ _ h := h

theorem Act.Leaves.resolving {α : Type} {x : Act α} {p : PluginId} {n : Nat} {w : World} {P : α → World → Prop}
    (h : Leaves (.growth n) x w P) : Leaves (.resolving p n) x w fun a v => Grows n w v ∧ P a v :=
  (h.fewer (Nat.le_refl n)).mono (fun _ grown sound => sound.resolves grown) fun _ h => h

namespace Plugin
variable {w v : World} {p : PluginId} {n : Nat} {f : Value}

/-- A shadow may be registered if its category is free and its objects belong to no plugin. -/
structure Registrable (w : World) (p : PluginId) (c : Category) (s : Shadow) : Prop where
  free : (w.plugin p).shadows.find? c = none
  unowned : ∀ q, q < w.plugins.size → ∀ o ∈ (w.plugin q).owned, o ≠ s.object ∧ o ≠ s.prototype
  inside : s.object < w.heap.size ∧ s.prototype < w.heap.size
  linked : p < w.plugins.size → w.heap.Linked s.object (.obj (w.plugin p).roots.functionPrototype) ∧
    (w.plugin p).roots.functionPrototype < s.object

theorem Ordered.extend {h : Heap} {x : Plugin} {c : Category} {s : Shadow} (ordered : x.Ordered h)
    (free : x.shadows.find? c = none) (unowned : ∀ o ∈ x.owned, o ≠ s.object)
    (inside : s.object < h.size ∧ s.prototype < h.size)
    (linked : h.Linked s.object (.obj x.roots.functionPrototype) ∧ x.roots.functionPrototype < s.object) :
    (x.extend [(c, s)]).Ordered h := by
  have entries : (x.extend [(c, s)]).shadows.entries = x.shadows.entries ++ [(c, s)] := rfl
  refine ⟨fun o own => ?_, ordered.rooted, fun e registered => ?_, ?_, ?_⟩
  · rw [owned_extend, List.mem_append] at own
    rcases own with before | new
    · exact ordered.inside o before
    · simp only [List.flatMap_cons, List.flatMap_nil, List.append_nil, List.mem_cons, List.not_mem_nil, or_false] at new
      rcases new with rfl | rfl
      · exact inside.1
      · exact inside.2
  · rw [entries, List.mem_append] at registered
    rcases registered with before | new
    · exact ordered.shadows e before
    · obtain rfl := List.mem_singleton.1 new
      exact linked
  · rw [Registry.keys, entries, List.map_append, List.nodup_append]
    refine ⟨ordered.categories, by simp, fun k before k' new same => ?_⟩
    have last : k' = c := by simpa using new
    exact Registry.not_mem_keys free (last ▸ same ▸ before)
  · rw [entries, List.map_append, List.nodup_append]
    refine ⟨ordered.objects, by simp, fun o before o' new same => ?_⟩
    obtain ⟨e, registered, rfl⟩ := List.mem_map.1 before
    have last : o' = s.object := by simpa using new
    exact unowned _ (mem_owned.2 (.inr ⟨e, registered, .inl rfl⟩)) (same.trans last)

/-- Registering what may be registered keeps the world sound. -/
theorem Registrable.resolves {c : Category} {s : Shadow} (able : Registrable w p c s) (sound : w.Sound) :
    Resolves p n w (registered w p c s) := by
  have size : (registered w p c s).plugins.size = w.plugins.size := Array.size_modify
  have others (q : PluginId) (other : q ≠ p) : (registered w p c s).plugin q = w.plugin q := by
    unfold registered
    rw [World.plugin, Array.getElem?_modify, if_neg other.symm, World.plugin]
  have same (bound : p < w.plugins.size) := plugin_registered (c := c) (s := s) bound
  refine ⟨⟨.refl _, List.prefix_rfl, List.prefix_rfl, Nat.le_of_eq size.symm, fun q bound => ?_, ?_⟩, fun _ _ => rfl,
    others, size, rfl⟩
  · by_cases this : q = p
    · subst this
      exact ⟨[(c, s)], same bound⟩
    · exact ⟨[], by rw [Plugin.extend_nil]; exact others q this⟩
  · refine ⟨⟨sound.numbered.below, sound.numbered.distinct⟩, sound.hosts, fun q bound => ?_,
      fun q r bound bound' differ o own own' => ?_⟩
    · rw [size] at bound
      by_cases this : q = p
      · subst this
        rw [same bound]
        exact (sound.plugins q bound).extend able.free (fun o own => (able.unowned q bound o own).1) able.inside
          (able.linked bound)
      · rw [others q this]
        exact sound.plugins q bound
    · -- an object of two plugins would be the new shadow's and another plugin's, or would have been of two before
      rw [size] at bound bound'
      have known {q : PluginId} (bound : q < w.plugins.size) (own : o ∈ ((registered w p c s).plugin q).owned) :
          o ∈ (w.plugin q).owned ∨ q = p ∧ (o = s.object ∨ o = s.prototype) := by
        by_cases this : q = p
        · subst this
          rw [same bound, owned_extend, List.mem_append] at own
          rcases own with before | new
          · exact .inl before
          · exact .inr ⟨rfl, by simpa using new⟩
        · rw [others q this] at own
          exact .inl own
      rcases known bound own with before | ⟨here, new⟩ <;> rcases known bound' own' with before' | ⟨here', new'⟩
      · exact sound.apart q r bound bound' differ o before before'
      · rcases new' with same | same
        · exact (able.unowned q bound o before).1 same
        · exact (able.unowned q bound o before).2 same
      · rcases new with same | same
        · exact (able.unowned r bound' o before').1 same
        · exact (able.unowned r bound' o before').2 same
      · exact differ (here.trans here'.symm)

/-- A callable without a shadow got one, with all that belongs to it: two objects after all that were there, forwarders
after these, and an entry for its category. -/
structure Built (p : PluginId) (f : Value) (w v : World) : Prop where
  resolves : Resolves p w.heap.size w v
  absent : shadow? w p f = none
  entered : p < w.plugins.size → ∃ c, Host.category? w f = some c ∧
    v.plugin p = (w.plugin p).extend [(c, ⟨w.heap.size, w.heap.size + 1⟩)]
  size : v.heap.size = w.heap.size + 2 + 2 * (Host.methods w (w.plugin p).config f).length
  shadow : v.heap.get w.heap.size =
    ⟨.obj (w.plugin p).roots.functionPrototype, shadowBag w (w.plugin p).config f (w.heap.size + 1), none⟩
  prototype : ∃ parent q, Host.superConstructor w (w.plugin p).host f = .ok parent ∧
    parentPrototype w (w.plugin p).roots (parentShadow w p parent) = .ok q ∧
    v.heap.get (w.heap.size + 1) = ⟨.obj q, prototypeBag w (w.plugin p).config f (w.heap.size + 2), none⟩
  named : Host.methodNames w f (Host.excludeCoercion (w.plugin p).config) =
    .ok (Host.methods w (w.plugin p).config f)
  forwarders : Forwarders v (w.plugin p) (Host.methods w (w.plugin p).config f)
    (places (w.heap.size + 2) (Host.methods w (w.plugin p).config f))

/-- What the objects made for a shadow are in a world that has grown since. -/
theorem registrable_of_grown {u : World} {c : Category} {s : Shadow} (sound : w.Sound) (grown : Grows n w u)
    (free : (w.plugin p).shadows.find? c = none) (new : w.heap.size ≤ s.object ∧ w.heap.size ≤ s.prototype)
    (linked : u.heap.Linked s.object (.obj (w.plugin p).roots.functionPrototype))
    (inside : s.prototype < u.heap.size) : Registrable u p c s := by
  have before (q : PluginId) (bound : q < u.plugins.size) : ∀ o ∈ (u.plugin q).owned, o < w.heap.size := by
    rw [grown.plugins] at bound
    rw [grown.plugin]
    exact (sound.plugins q bound).inside
  refine ⟨by rw [grown.plugin]; exact free, fun q bound o own => ?_, ⟨linked.1, inside⟩, fun bound => ?_⟩
  · have old := before q bound o own
    exact ⟨Nat.ne_of_lt (Nat.lt_of_lt_of_le old new.1), Nat.ne_of_lt (Nat.lt_of_lt_of_le old new.2)⟩
  · have root := before p bound (u.plugin p).roots.functionPrototype (mem_owned.2 (.inl (.inr (.inl rfl))))
    refine ⟨?_, Nat.lt_of_lt_of_le root new.1⟩
    rw [grown.plugin]
    exact linked

/-- When the objects of a new shadow are there, it is entered and its line is written to the log, if there is one and the
line can be written. -/
theorem Assembled.enter_ends {c : Category} {parent : Value} {q : ObjId} {u : World} (assembled : Assembled p f q w u)
    (sound : w.Sound) (category : Host.category? w f = some c) (absent : shadow? w p f = none)
    (above : Host.superConstructor w (w.plugin p).host f = .ok parent)
    (link : parentPrototype w (w.plugin p).roots (parentShadow w p parent) = .ok q)
    (named : Host.methodNames w f (Host.excludeCoercion (w.plugin p).config) =
      .ok (Host.methods w (w.plugin p).config f)) :
    ∃ r v, exec (enter w p f parent) u = (r, v) ∧ Resolves p w.heap.size u v ∧ Built p f w v ∧ v.logging = u.logging ∧
      (r = .ok () ↔ (v.logging = true → Answered (v.describe f) ∧ Answered (v.describe parent))) ∧
      ∀ e, r = .error e → e.isReport = false := by
  have free : (w.plugin p).shadows.find? c = none := by
    rw [shadow?, category] at absent
    exact absent
  have grown := assembled.grown
  have sound' := (sound.advances grown).sound
  have inside : w.heap.size + 1 < u.heap.size := by
    rw [assembled.size]
    omega
  have able : Registrable u p c ⟨w.heap.size, w.heap.size + 1⟩ :=
    registrable_of_grown sound grown free ⟨Nat.le_refl _, Nat.le_succ _⟩
      ⟨Nat.lt_of_succ_lt inside, by rw [assembled.shadow]⟩ inside
  let t := registered u p c ⟨w.heap.size, w.heap.size + 1⟩
  obtain ⟨r, log, said, fine, fault⟩ := say_ends (w := t)
    fun v => return .newShadow (← v.describe f) c.describe (← v.describe parent)
  let v : World := { t with log := log }
  have registering : Resolves p w.heap.size u t := able.resolves sound'
  have resolves : Resolves p w.heap.size u v :=
    registering.trans (registering.advances.sound.resolves (.of_aside ⟨rfl, rfl, rfl, rfl, rfl⟩))
  have run : exec (enter w p f parent) u = (r, v) := by
    rw [enter, category]
    exact (exec_bind_ok (exec_register able.free)).trans said
  refine ⟨r, v, run, resolves, ?_, rfl, fine.trans ?_, fun e stopped => ?_⟩
  · refine ⟨(sound.resolves grown).trans resolves, absent, fun bound => ⟨c, category, ?_⟩, assembled.size,
      assembled.shadow, ⟨parent, q, above, link, assembled.prototype⟩, named, assembled.forwarders.of_same rfl rfl⟩
    show t.plugin p = _
    rw [plugin_registered (by rw [grown.plugins]; exact bound), grown.plugin]
  · rw [← describe_log t log, ← describe_log t log]
    exact imp_congr_right fun _ => Answered.bind_iff fun _ => Answered.bind_ok_iff
  · have ordinary : NoReport (do return LogLine.newShadow (← t.describe f) c.describe (← t.describe parent)) :=
      .bind (describe_noReport t f) fun _ => .bind (describe_noReport t parent) fun _ => .pure _
    exact ordinary e (fault e stopped)

/-- Making the shadow of a callable that has none is not refused, and leaves all that belongs to the shadow. -/
theorem build_leaves {c : Category} (sound : w.Sound) (category : Host.category? w f = some c)
    (absent : shadow? w p f = none) (room : n ≤ w.heap.size) :
    Leaves (.resolving p n) (build p f) w fun _ v => Built p f w v := by
  rcases build_cases w p f with ⟨e, ordinary, run⟩ | ⟨parent, q, above, link, run⟩
  · exact .of_error run (fun sound => sound.resolves (.refl n w)) ordinary
  · refine .of_exec run (fun sound => sound.resolves ((grows_laid w p f q).mono room)) ?_
    refine .bind_lift (Host.methodNames_noReport w f (Host.excludeCoercion_noReport _)) fun names named => ?_
    obtain rfl := Host.methodNames_answer named
    refine .bind ((addForwarders_assembles w p f q).fewer room).resolving fun _ u _ post => ?_
    obtain ⟨-, -, assembled⟩ := post
    obtain ⟨r, v, entered, resolves, built, -, -, ordinary⟩ :=
      assembled.enter_ends sound category absent above link named
    cases r with
    | ok _ => exact .of_ok entered (fun _ => resolves.mono room) built
    | error e => exact .of_error entered (fun _ => resolves.mono room) (ordinary e rfl)

namespace Built

theorem shadow?_eq (built : Built p f w v) (bound : p < w.plugins.size) :
    shadow? v p f = some ⟨w.heap.size, w.heap.size + 1⟩ := by
  obtain ⟨c, category, extended⟩ := built.entered bound
  have free := built.absent
  rw [shadow?, category] at free
  rw [shadow?, built.resolves.advances.category? category, extended]
  exact Registry.find?_append_same _ free

/-- Another callable has a shadow after one was made if and only if it had it before. -/
theorem shadow?_other {g : Value} (built : Built p f w v) (sound : w.Sound) (callable : w.isCallable g = true)
    (other : g ≠ f) : shadow? v p g = shadow? w p g := by
  obtain ⟨d, category⟩ := isCallable_iff.1 callable
  rw [shadow?, shadow?, built.resolves.advances.category? category, category]
  by_cases bound : p < w.plugins.size
  · obtain ⟨c, category', extended⟩ := built.entered bound
    have differ : c ≠ d := fun equal => other (Host.category?_inj sound.numbered category (equal ▸ category'))
    rw [extended]
    exact Registry.find?_append_other _ _ differ
  · have out := Nat.le_of_not_lt bound
    rw [World.plugin, Array.getElem?_eq_none (built.resolves.plugins ▸ out), World.plugin,
      Array.getElem?_eq_none out]

/-- The `prototype` of a new shadow is the pseudo-prototype, unless the callable owns a member of this name. -/
theorem member?_prototype (built : Built p f w v)
    (others : ∀ m ∈ Host.members w (w.plugin p).config f, m.key ≠ "prototype") :
    v.heap.member? w.heap.size "prototype" = some (.obj (w.heap.size + 1)) := by
  rw [Heap.member?, built.shadow]
  show ((shadowBag w (w.plugin p).config f (w.heap.size + 1)).find? "prototype").map (·.value) = _
  rw [shadowBag, find?_copied_other others]
  rfl

/-- A new pseudo-prototype holds a forwarder for each method of the callable that is not left out. -/
theorem holdsForwarder {m : Name} (built : Built p f w v) (listed : m ∈ Host.methods w (w.plugin p).config f) :
    HoldsForwarder v (w.plugin p).host (w.heap.size + 1) m.key := by
  obtain ⟨parent, q, -, -, pseudo⟩ := built.prototype
  refine built.forwarders.holds (b := ({} : Bag).put (Name.ofText "constructor") f false) ?_
    (fun o among => le_of_mem_places among) listed
  rw [pseudo]
  exact forwarded_eq_holding _ _ _

end Built

/-- Making the missing shadows one after the other is not refused. The last one made is that of `f`, in a world in which
the others are there. -/
theorem builds_leaves (l : List Value) (sound : w.Sound) (room : n ≤ w.heap.size) (nodup : (l ++ [f]).Nodup)
    (callable : ∀ g ∈ l ++ [f], w.isCallable g = true) (absent : ∀ g ∈ l ++ [f], shadow? w p g = none) :
    Leaves (.resolving p n) ((l ++ [f]).forM (build p)) w fun _ v =>
      ∃ u, Resolves p n w u ∧ Built p f u v ∧ (p < w.plugins.size → ∀ g ∈ l, (shadow? u p g).isSome = true) := by
  induction l generalizing w with
  | nil =>
    obtain ⟨c, category⟩ := isCallable_iff.1 (callable f (by simp))
    refine .bind (build_leaves sound category (absent f (by simp)) room) fun _ v step built => ?_
    exact .pure ⟨w, sound.resolves (.refl n w), built, by simp⟩
  | cons g rest ih =>
    obtain ⟨c, category⟩ := isCallable_iff.1 (callable g (by simp))
    refine .bind (build_leaves sound category (absent g (by simp)) room) fun _ v step built => ?_
    have resolved := step sound
    have advances := resolved.advances
    obtain ⟨new, nodup'⟩ := List.nodup_cons.1 nodup
    have further : ∀ g' ∈ rest ++ [f], w.isCallable g' = true ∧ g' ≠ g := fun g' listed =>
      ⟨callable g' (List.mem_cons_of_mem g listed), fun same => new (same ▸ listed)⟩
    refine (ih advances.sound (Nat.le_trans room advances.trail.sameShape.size) nodup' (fun g' listed => ?_)
      fun g' listed => ?_).conseq fun _ _ _ ⟨u, far, last, others⟩ => ⟨u, resolved.trans far, last, fun bound g' listed => ?_⟩
    · obtain ⟨d, category'⟩ := isCallable_iff.1 (further g' listed).1
      exact isCallable_iff.2 ⟨d, advances.category? category'⟩
    · obtain ⟨callable', other⟩ := further g' listed
      rw [built.shadow?_other sound callable' other]
      exact absent g' (List.mem_cons_of_mem g listed)
    · rcases List.mem_cons.1 listed with rfl | later
      · rw [shadow?_advance far.advances (built.shadow?_eq bound)]
        rfl
      · exact others (by rw [resolved.plugins]; exact bound) g' later

/-- Asking for a shadow gives the one that is registered. If there was none, the callable's was made last, and its super
constructor, if there is one, had its shadow by then. -/
theorem shadowOf_leaves (sound : w.Sound) (room : n ≤ w.heap.size) :
    Leaves (.resolving p n) (shadowOf p f) w fun o v => (∃ s, shadow? v p f = some s ∧ s.object = o) ∧
      (shadow? w p f = none → ∃ u, Resolves p n w u ∧ Built p f u v ∧
        ∀ parent, Host.superConstructor w (w.plugin p).host f = .ok parent → parent ≠ .null →
          (shadow? u p parent).isSome = true) := by
  cases found : shadow? w p f with
  | some s =>
    refine .of_ok (exec_shadowOf_known found) (fun sound => sound.resolves (.refl n w)) ?_
    exact ⟨⟨s, found, rfl⟩, fun no => nomatch no⟩
  | none =>
    refine .bind ((enforceCallable_leaves f _).growth (n := n)).resolving ?_
    rintro - v - ⟨-, rfl, callable⟩
    refine .bind_get (.bind_lift (missing_noReport v p f _) fun l answer => ?_)
    have chain := missing_chain answer
    obtain ⟨rest, rfl⟩ := chain.eq_cons found
    rw [List.reverse_cons]
    have listed {g : Value} (among : g ∈ rest.reverse ++ [f]) : g ∈ f :: rest := by
      rw [← List.reverse_cons, List.mem_reverse] at among
      exact among
    have nodup : (rest.reverse ++ [f]).Nodup := by
      rw [← List.reverse_cons]
      exact List.pairwise_reverse.2 (chain.nodup.imp Ne.symm)
    refine .bind (builds_leaves rest.reverse sound room nodup (fun g among => chain.callable callable (listed among))
      fun g among => (chain.of_mem (listed among)).1) fun _ t resolved made => ?_
    refine .bind_get ?_
    split
    · rename_i s here
      obtain ⟨u, before, built, others⟩ := made
      have bound : p < v.plugins.size := (resolved sound).plugins ▸ lt_size_of_shadow? here
      refine .pure ⟨⟨s, here, rfl⟩, fun _ => ⟨u, before, built, fun parent above ancestor => ?_⟩⟩
      cases chain with
      | last _ top => exact absurd (Except.ok.inj (above.symm.trans top)) ancestor
      | more _ above' _ further =>
        obtain rfl := Except.ok.inj (above.symm.trans above')
        cases further with
        | known known =>
          rw [shadow?_advance before.advances known]
          rfl
        | last _ _ => exact others bound parent (by simp)
        | more _ _ _ _ => exact others bound parent (by simp)
    · exact .stop rfl

end Plugin

end Overlay
