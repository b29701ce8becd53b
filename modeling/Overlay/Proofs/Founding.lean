import Overlay.Proofs.Soundness

/-!
# Hosts and plugins come into a sound world

Making a host, giving it a constructor for plain values and making a plugin keep a world sound. A new host's
roots are frozen before the host is there; a new plugin's roots are made for it, so they are no one else's.
-/

namespace Overlay
set_option autoImplicit false

open Act World Emulation

namespace World
variable {w v : World}

/-- A founded host may be added. -/
theorem Sound.pushHost {x : Host} (sound : w.Sound) (founded : x.Founded w.heap) :
    Advances w { w with hosts := w.hosts.push x } where
  trail := .refl _
  fns := List.prefix_rfl
  hosts := by
    rw [Array.toList_push, List.map_append]
    exact List.prefix_append _ _
  plugins := Nat.le_refl _
  shadows p _ := ⟨[], (Plugin.extend_nil _).symm⟩
  sound := by
    refine ⟨⟨sound.numbered.below, sound.numbered.distinct⟩, fun h => ?_, sound.plugins, sound.apart⟩
    rw [World.host]
    by_cases new : h = w.hosts.size
    · rw [new, Array.getElem?_push_size]
      exact founded
    · rw [Array.getElem?_push, if_neg new]
      exact sound.hosts h

end World

namespace Host

/-- The objects of a host to come are there, its object prototype without a prototype. -/
structure Laid (h : Heap) (x : Host) : Prop where
  top : h.Linked x.objectPrototype .null
  inside : ∀ o ∈ x.roots, o < h.size
  apart : x.object ≠ x.function

theorem Laid.change {h k : Heap} {x : Host} (laid : x.Laid h) (changes : h.Changes k) : x.Laid k :=
  ⟨changes.linked laid.top, fun o root => Nat.lt_of_lt_of_le (laid.inside o root) changes.sameShape.size, laid.apart⟩

section Laying
variable {α β : Type} {x : Host} {w : World}

/-- While the heap only grows, a host to come stays laid. -/
theorem Laid.bind {a : Act α} {f : α → Act β} {P : α → World → Prop} {Q : β → World → Prop} (laid : x.Laid w.heap)
    (first : Leaves (.growth 0) a w P)
    (next : ∀ r v, Grows 0 w v → P r v → x.Laid v.heap → Leaves .advance (f r) v Q) :
    Leaves .advance (a >>= f) w Q :=
  .bind first.advance fun r v _ post => next r v post.1 post.2 (laid.change post.1.trail)

/-- A host to come is founded by freezing its roots. -/
theorem Laid.freeze_roots {rest : Act α} {Q : α → World → Prop} (laid : x.Laid w.heap)
    (next : ∀ v, x.Founded v.heap → Leaves .advance rest v Q) :
    Leaves .advance (do
      Act.freeze x.objectPrototype
      Act.freeze x.functionPrototype
      Act.freeze x.object
      Act.freeze x.function
      rest) w Q := by
  have free (n : Nat) : 0 ≤ n := Nat.zero_le n
  refine laid.bind (freeze_frozen_leaves (free _) (laid.inside _ (by simp [roots]))) fun _ v₁ _ post laid => ?_
  obtain ⟨frozen₁, -⟩ := post
  refine laid.bind (freeze_frozen_leaves (free _) (laid.inside _ (by simp [roots]))) fun _ v₂ grown₂ post laid => ?_
  obtain ⟨frozen₂, -⟩ := post
  refine laid.bind (freeze_frozen_leaves (free _) (laid.inside _ (by simp [roots]))) fun _ v₃ grown₃ post laid => ?_
  obtain ⟨frozen₃, -⟩ := post
  refine laid.bind (freeze_frozen_leaves (free _) (laid.inside _ (by simp [roots]))) fun _ v₄ grown₄ post laid => ?_
  obtain ⟨frozen₄, -⟩ := post
  have trail₃ := grown₄.trail
  have trail₂ := grown₃.trail.trans trail₃
  have trail₁ := grown₂.trail.trans trail₂
  refine next v₄ ⟨⟨laid.top, trail₁.frozen frozen₁⟩, fun o root => ?_, .inl laid.apart⟩
  simp only [Host.roots, List.mem_cons, List.not_mem_nil, or_false] at root
  rcases root with rfl | rfl | rfl | rfl
  · exact trail₁.frozen frozen₁
  · exact trail₂.frozen frozen₂
  · exact trail₃.frozen frozen₃
  · exact frozen₄

end Laying

/-- A new host is founded by the time it is there. -/
theorem make_follows : Follows .advance make := by
  intro w
  have free (n : Nat) : 0 ≤ n := Nat.zero_le n
  refine .bind (begetFrom_linked_leaves .null (free _)).advance fun op v₁ _ post => ?_
  obtain ⟨_, _, top⟩ := post
  refine .bind (begetFrom_linked_leaves (.obj op) (free _)).advance fun fp v₂ _ post => ?_
  obtain ⟨grown₂, _, linked⟩ := post
  refine .bind (newFunction_leaves _ _ _ _ (free _)).advance fun object v₃ _ post => ?_
  obtain ⟨grown₃, first, _, _, _, _, made⟩ := post
  refine .bind (newFunction_leaves _ _ _ _ (free _)).advance fun function v₄ _ post => ?_
  obtain ⟨grown₄, second, _, _, _, _, made'⟩ := post
  have inside₃ : object < v₃.heap.size := by
    rw [first, made, Array.size_push]; exact Nat.lt_succ_self _
  have inside₄ : function < v₄.heap.size := by
    rw [second, made', Array.size_push]; exact Nat.lt_succ_self _
  have apart : object < function := by rw [second]; exact inside₃
  have trail₂ := grown₃.trail.trans grown₄.trail
  have top₄ := (grown₂.trail.trans trail₂).linked top
  let x : Host := ⟨op, fp, object, function, []⟩
  have laid : x.Laid v₄.heap := by
    refine ⟨top₄, fun o root => ?_, Nat.ne_of_lt apart⟩
    simp only [Host.roots, List.mem_cons, List.not_mem_nil, or_false] at root
    rcases root with rfl | rfl | rfl | rfl
    · exact top₄.1
    · exact (trail₂.linked linked).1
    · exact Nat.lt_of_lt_of_le inside₃ grown₄.size_le
    · exact inside₄
  -- what follows only puts members and defines functions, so the four stay where they are
  refine laid.bind (putProperty_leaves op _ _ false (free _)) fun _ _ _ _ laid => ?_
  refine laid.bind (define_leaves op fp _ _ (free _)) fun _ _ _ _ laid => ?_
  refine laid.bind (putProperty_leaves op _ _ false (free _)) fun _ _ _ _ laid => ?_
  refine laid.bind (define_leaves op fp _ _ (free _)) fun _ _ _ _ laid => ?_
  refine laid.bind (putProperty_leaves op _ _ false (free _)) fun _ _ _ _ laid => ?_
  refine laid.bind (define_leaves op fp _ _ (free _)) fun _ _ _ _ laid => ?_
  refine laid.bind (putProperty_leaves op _ _ false (free _)) fun _ _ _ _ laid => ?_
  refine laid.bind (putProperty_leaves fp _ _ false (free _)) fun _ _ _ _ laid => ?_
  exact laid.freeze_roots fun v founded => .of_ok rfl (fun sound => sound.pushHost founded) trivial

/-- A host with another constructor for plain values has the same roots. -/
theorem registerPrimitive_follows (h : HostId) (kind : Primitive) (ctor : Value) :
    Follows .advance (registerPrimitive h kind ctor) := by
  intro w
  refine .of_ok rfl (fun sound => ⟨.refl _, List.prefix_rfl, ?_, Nat.le_refl _,
    fun p _ => ⟨[], (Plugin.extend_nil _).symm⟩, ?_⟩) trivial
  · have same : (w.hosts.modify h fun x =>
        { x with primitives := (kind, ctor) :: x.primitives.filter (·.1 != kind) }).toList.map roots =
          w.hosts.toList.map roots := by
      apply List.ext_getElem?
      intro i
      simp only [List.getElem?_map, Array.getElem?_toList, Array.getElem?_modify]
      split
      · rw [Option.map_map]; rfl
      · rfl
    exact ⟨[], (List.append_nil _).trans same.symm⟩
  · refine ⟨⟨sound.numbered.below, sound.numbered.distinct⟩, fun i => ?_, sound.plugins, sound.apart⟩
    have founded := sound.hosts i
    rw [World.host] at founded ⊢
    rw [Array.getElem?_modify]
    split
    · cases found : w.hosts[i]? with
      | none => rw [found] at founded; exact founded
      | some x =>
        rw [found] at founded
        exact ⟨founded.top, founded.frozen, founded.constructors⟩
    · exact founded

end Host

namespace World
variable {w : World}

/-- A plugin whose objects are its own may be added. -/
theorem Sound.pushPlugin {x : Plugin} {n : Nat} (sound : w.Sound) (ordered : x.Ordered w.heap)
    (new : ∀ o ∈ x.owned, n ≤ o) (old : ∀ p, p < w.plugins.size → ∀ o ∈ (w.plugin p).owned, o < n) :
    Advances w { w with plugins := w.plugins.push x } := by
  let v : World := { w with plugins := w.plugins.push x }
  have before {p : PluginId} (bound : p < w.plugins.size) : v.plugin p = w.plugin p := by
    have differs : p ≠ w.plugins.size := Nat.ne_of_lt bound
    rw [World.plugin, Array.getElem?_push, if_neg differs, World.plugin]
  have last : v.plugin w.plugins.size = x := by
    rw [World.plugin, Array.getElem?_push_size]
    rfl
  have size : v.plugins.size = w.plugins.size + 1 := Array.size_push _
  -- a plugin is one of those that were there or the new one
  have either {p : PluginId} (bound : p < v.plugins.size) : p < w.plugins.size ∨ p = w.plugins.size := by
    rw [size] at bound
    exact Nat.lt_or_eq_of_le (Nat.le_of_lt_succ bound)
  refine ⟨.refl _, List.prefix_rfl, List.prefix_rfl, Nat.le_of_lt (by rw [size]; exact Nat.lt_succ_self _),
    fun p bound => ⟨[], by rw [Plugin.extend_nil]; exact before bound⟩, ?_⟩
  refine ⟨⟨sound.numbered.below, sound.numbered.distinct⟩, sound.hosts, fun p bound => ?_,
    fun p q bound bound' differ o own own' => ?_⟩
  · change (v.plugin p).Ordered w.heap
    rcases either bound with there | there
    · rw [before there]
      exact sound.plugins p there
    · rw [there, last]
      exact ordered
  · rcases either bound with there | rfl <;> rcases either bound' with there' | rfl
    · rw [before there] at own
      rw [before there'] at own'
      exact sound.apart p q there there' differ o own own'
    · rw [before there] at own
      rw [last] at own'
      exact Nat.lt_irrefl _ (Nat.lt_of_lt_of_le (old p there o own) (new o own'))
    · rw [last] at own
      rw [before there'] at own'
      exact Nat.lt_irrefl _ (Nat.lt_of_lt_of_le (old q there' o own') (new o own))
    · exact differ rfl

end World

namespace Plugin

/-- The shadows that a plugin starts with are its roots, under the categories of two different functions. -/
theorem seededShadows_spec {w : World} {host : Host} (numbers : w.Numbered) (founded : host.Founded w.heap)
    (r : Roots) :
    (∀ e ∈ seededShadows w host r, e.2 = ⟨r.objectShadow, r.objectPrototype⟩ ∨ e.2 = ⟨r.function, r.functionPrototype⟩) ∧
      ((seededShadows w host r).map (·.1)).Nodup ∧
      (r.function ≠ r.objectShadow → ((seededShadows w host r).map (·.2.object)).Nodup) := by
  cases first : Host.category? w (.obj host.object) with
  | none => cases second : Host.category? w (.obj host.function) <;> simp [seededShadows, first, second]
  | some c =>
    cases second : Host.category? w (.obj host.function) with
    | none => simp [seededShadows, first, second]
    | some d =>
      have differ : c ≠ d := by
        rintro rfl
        have same : host.object = host.function :=
          Ref.object.inj (Datum.ref.inj (Host.category?_inj numbers first second))
        rcases founded.constructors with apart | plain
        · exact apart same
        · simp [Host.category?, World.hostFn?, plain] at first
      simp [seededShadows, first, second, differ, eq_comm]

/-- The plugin has no shadows but its roots. -/
def Fresh (x : Plugin) : Prop :=
  ∀ e ∈ x.shadows.entries, e.2 = ⟨x.roots.objectShadow, x.roots.objectPrototype⟩ ∨
    e.2 = ⟨x.roots.function, x.roots.functionPrototype⟩

theorem Fresh.owned {x : Plugin} (fresh : x.Fresh) {o : ObjId} (own : o ∈ x.owned) :
    o = x.roots.objectPrototype ∨ o = x.roots.functionPrototype ∨ o = x.roots.function ∨
      o = x.roots.objectShadow := by
  rcases mem_owned.1 own with root | ⟨e, seeded, here⟩
  · exact root
  · rcases fresh e seeded with same | same <;> rw [same] at here <;> rcases here with rfl | rfl <;> simp

theorem Fresh.ordered {x : Plugin} {h : Heap} {top : ObjId} (fresh : x.Fresh) (isTop : h.IsTop top)
    (below : top < x.roots.objectPrototype) (rooted : Rooted h top x.roots) (categories : x.shadows.keys.Nodup)
    (objects : (x.shadows.entries.map (·.2.object)).Nodup) : x.Ordered h := by
  refine ⟨fun o own => ?_, ⟨top, isTop, below, rooted⟩, fun e seeded => ?_, categories, objects⟩
  · rcases fresh.owned own with rfl | rfl | rfl | rfl
    · exact rooted.objectPrototype.1
    · exact rooted.functionPrototype.1
    · exact rooted.function.1
    · exact rooted.objectShadow.1
  · obtain ⟨-, rising₂, rising₃⟩ := rooted.rising
    rcases fresh e seeded with same | same <;> rw [same]
    · exact ⟨rooted.objectShadow, Nat.lt_trans rising₂ rising₃⟩
    · exact ⟨rooted.function, rising₂⟩

theorem warn_follows (config : Config) : Follows .aside (warn config) :=
  .forM fun _ => say_follows fun _ => .ok _

theorem hostPut_leaves {n : Nat} {w : World} {v name x : Value} (above : ∀ o, v = .obj o → n ≤ o) :
    Leaves (.growth n) (Host.put v name x) w fun _ _ => True := by
  refine .bind_get (.bind_lift (Host.checkBase_noReport w v name .set) fun _ _ => ?_)
  split
  · refine .bind (putProperty_leaves _ name x true (above _ rfl)) fun _ _ _ _ => .pure trivial
  · exact .bind_lift (World.bare_noReport w name) fun _ _ => .stop rfl

/-- A new plugin's objects are its own by the time it is there. -/
theorem make_leaves {w : World} (sound : w.Sound) (h : HostId) (config : Config) (outers : Value) :
    Leaves .advance (make h config outers) w fun _ _ => True := by
  refine .bind ((warn_follows config w).growth (n := 0)).advance fun _ v₁ _ ⟨grown₁, _⟩ => ?_
  refine .bind (seedRoots_leaves h config (Nat.le_refl v₁.heap.size)).advance fun r v₂ _ ⟨grown₂, new, rooted⟩ => ?_
  refine .bind_get ?_
  refine .bind (hostPut_leaves fun o _ => Nat.zero_le o).advance fun _ v₃ _ ⟨grown₃, _⟩ => ?_
  refine .bind ((say_follows fun _ => .ok _) v₃ |>.growth (n := 0)).advance fun _ v₄ _ ⟨grown₄, _⟩ => ?_
  have sound₁ := sound.grow grown₁
  have sound₂ := sound₁.grow grown₂
  have trail := grown₃.trail.trans grown₄.trail
  -- the host's object prototype was there before the roots were made
  have founded := sound₁.hosts h
  have below : (v₁.host h).objectPrototype < r.objectPrototype := Nat.lt_of_lt_of_le founded.top.1.1 new
  have top : v₄.heap.IsTop (v₁.host h).objectPrototype := founded.top.change (grown₂.trail.trans trail)
  have rooted₄ := rooted.change trail
  obtain ⟨seeds, categories, objects⟩ := seededShadows_spec sound₂.numbered (sound₂.hosts h) r
  let x : Plugin := ⟨h, config, r, outers, ⟨seededShadows v₂ (v₂.host h) r⟩⟩
  have fresh : x.Fresh := seeds
  have ordered : x.Ordered v₄.heap :=
    fresh.ordered top below (rooted.change trail) categories (objects (Nat.ne_of_lt rooted.rising.2.2))
  have mine : ∀ o ∈ x.owned, v₁.heap.size ≤ o := by
    intro o own
    obtain ⟨rising₁, rising₂, rising₃⟩ := rooted.rising
    have above₁ := Nat.le_trans new (Nat.le_of_lt rising₁)
    have above₂ := Nat.le_trans above₁ (Nat.le_of_lt rising₂)
    have above₃ := Nat.le_trans above₂ (Nat.le_of_lt rising₃)
    rcases fresh.owned own with rfl | rfl | rfl | rfl <;> assumption
  have others : ∀ p, p < v₄.plugins.size → ∀ o ∈ (v₄.plugin p).owned, o < v₁.heap.size := by
    intro p bound o own
    have grown : Grows 0 v₁ v₄ := (grown₂.mono (Nat.zero_le _)).trans (grown₃.trans grown₄)
    rw [grown.plugins] at bound
    rw [grown.plugin] at own
    exact (sound₁.plugins p bound).inside o own
  exact .of_ok rfl (fun sound₄ => sound₄.pushPlugin ordered mine others) trivial

end Plugin

end Overlay
