import Overlay.Proofs.Definition
import Overlay.Proofs.Emulated

/-!
# Sound worlds

What holds of the world between any two things that the library does. Numbers of host functions are distinct.
The roots of every host are frozen, its object prototype at the end of all links. A plugin's own objects, which
are its roots, its shadows and its pseudo-prototypes, are no other plugin's, and the links of each shadow lead
through the plugin's two patchable prototypes to the frozen prototype of a host. Nothing here depends on what
bags hold, so it survives every growth of the world; `Advances` adds what of a sound world is never lost.
-/

namespace Overlay
set_option autoImplicit false

open Emulation (Rooted)

/-- The objects that a host is made of. -/
def Host.roots (x : Host) : List ObjId :=
  [x.objectPrototype, x.functionPrototype, x.object, x.function]

/-- The objects that a plugin made for itself: its roots, its shadows and its pseudo-prototypes. -/
def Plugin.owned (x : Plugin) : List ObjId :=
  [x.roots.objectPrototype, x.roots.functionPrototype, x.roots.function, x.roots.objectShadow] ++
    x.shadows.entries.flatMap fun e => [e.2.object, e.2.prototype]

/-- A plugin with more shadows, registered after those it has. -/
def Plugin.extend (x : Plugin) (more : List (Category × Shadow)) : Plugin :=
  { x with shadows := ⟨x.shadows.entries ++ more⟩ }

/-- The object is frozen and its link is null. -/
def Heap.IsTop (h : Heap) (o : ObjId) : Prop :=
  h.Linked o .null ∧ (h.get o).bag.frozen = true

/-- A host's roots are frozen; its object prototype has no prototype; its two constructors are different objects,
unless they are no functions at all. -/
structure Host.Founded (h : Heap) (x : Host) : Prop where
  top : h.IsTop x.objectPrototype
  frozen : ∀ o ∈ x.roots, (h.get o).bag.frozen = true
  constructors : x.object ≠ x.function ∨ h.hostFn? x.object = none

/-- A plugin's own objects are there; the links of a shadow lead through its patchable prototypes to a frozen
object; no category and no shadow is registered twice. -/
structure Plugin.Ordered (h : Heap) (x : Plugin) : Prop where
  inside : ∀ o ∈ x.owned, o < h.size
  rooted : ∃ top, h.IsTop top ∧ top < x.roots.objectPrototype ∧ Rooted h top x.roots
  shadows : ∀ e ∈ x.shadows.entries, h.Linked e.2.object (.obj x.roots.functionPrototype) ∧
    x.roots.functionPrototype < e.2.object
  categories : x.shadows.keys.Nodup
  objects : (x.shadows.entries.map (·.2.object)).Nodup

namespace World

/-- What holds of the world between any two things that the library does. -/
structure Sound (w : World) : Prop where
  numbered : w.Numbered
  hosts : ∀ h, (w.host h).Founded w.heap
  plugins : ∀ p, p < w.plugins.size → (w.plugin p).Ordered w.heap
  apart : ∀ p q, p < w.plugins.size → q < w.plugins.size → p ≠ q →
    ∀ o ∈ (w.plugin p).owned, o ∉ (w.plugin q).owned

/-- A sound world became another one: its objects changed as heaps do, its functions, hosts and plugins are still
there, and plugins have at most got more shadows. -/
structure Advances (w v : World) : Prop where
  trail : w.heap.Changes v.heap
  fns : w.fns.toList <+: v.fns.toList
  hosts : w.hosts.toList.map Host.roots <+: v.hosts.toList.map Host.roots
  plugins : w.plugins.size ≤ v.plugins.size
  shadows : ∀ p, p < w.plugins.size → ∃ more, v.plugin p = (w.plugin p).extend more
  sound : v.Sound

end World

open World

@[simp] theorem Plugin.extend_nil (x : Plugin) : x.extend [] = x := by
  simp [extend]

theorem Plugin.extend_extend (x : Plugin) (more rest : List (Category × Shadow)) :
    (x.extend more).extend rest = x.extend (more ++ rest) := by
  simp [extend]

theorem Plugin.mem_owned {x : Plugin} {o : ObjId} : o ∈ x.owned ↔
    (o = x.roots.objectPrototype ∨ o = x.roots.functionPrototype ∨ o = x.roots.function ∨
      o = x.roots.objectShadow) ∨ ∃ e ∈ x.shadows.entries, o = e.2.object ∨ o = e.2.prototype := by
  simp [owned, or_assoc]

theorem Plugin.owned_extend (x : Plugin) (more : List (Category × Shadow)) :
    (x.extend more).owned = x.owned ++ more.flatMap fun e => [e.2.object, e.2.prototype] := by
  simp [owned, extend]

theorem Heap.IsTop.change {h k : Heap} {o : ObjId} (top : h.IsTop o) (changes : h.Changes k) : k.IsTop o :=
  ⟨changes.linked top.1, changes.frozen top.2⟩

theorem Host.Founded.change {h k : Heap} {x : Host} (founded : x.Founded h) (changes : h.Changes k) :
    x.Founded k := by
  refine ⟨founded.top.change changes, fun o root => changes.frozen (founded.frozen o root), ?_⟩
  rcases founded.constructors with apart | plain
  · exact .inl apart
  · have inside := Heap.lt_size_of_frozen (founded.frozen x.object (by simp [Host.roots]))
    rw [Heap.hostFn?, changes.sameShape.host _ inside]
    exact .inr plain

theorem Plugin.Ordered.change {h k : Heap} {x : Plugin} (ordered : x.Ordered h) (changes : h.Changes k) :
    x.Ordered k := by
  obtain ⟨top, frozen, below, rooted⟩ := ordered.rooted
  refine ⟨fun o own => Nat.lt_of_lt_of_le (ordered.inside o own) changes.sameShape.size,
    ⟨top, frozen.change changes, below, rooted.change changes⟩, fun e registered => ?_,
    ordered.categories, ordered.objects⟩
  obtain ⟨linked, above⟩ := ordered.shadows e registered
  exact ⟨changes.linked linked, above⟩

namespace Host
variable {w : World}

/-- A callable is a function under its own position, or a host function under its number. -/
theorem category?_cases {f : Value} {c : Category} (h : category? w f = some c) :
    (∃ i, f = .fn i ∧ c = .plain i) ∨ ∃ o fn, f = .obj o ∧ w.heap.hostFn? o = some fn ∧ c = .host fn.category := by
  unfold category? at h
  split at h
  · rename_i i
    exact .inl ⟨i, rfl, (Option.some.inj h).symm⟩
  · obtain ⟨fn, found, number⟩ := Option.map_eq_some_iff.1 h
    unfold World.hostFn? at found
    split at found
    · rename_i o _
      exact .inr ⟨o, fn, rfl, found, number.symm⟩
    · cases found

/-- Callables of one category are the same. -/
theorem category?_inj (numbers : w.Numbered) {f g : Value} {c : Category} (hf : category? w f = some c)
    (hg : category? w g = some c) : f = g := by
  rcases category?_cases hf with ⟨i, rfl, rfl⟩ | ⟨o, fn, rfl, found, rfl⟩ <;>
    rcases category?_cases hg with ⟨j, rfl, same⟩ | ⟨p, gn, rfl, found', same⟩
  · rw [Category.plain.inj same]
  · cases same
  · cases same
  · rw [numbers.distinct found found' (Category.host.inj same)]

end Host

namespace World
variable {w v : World}

/-- A world in which only objects and functions were made and open objects changed is sound if it was. -/
theorem Sound.grow {n : Nat} (sound : w.Sound) (grown : Grows n w v) : v.Sound := by
  refine ⟨grown.numbered sound.numbered, fun h => ?_, fun p bound => ?_, fun p q bound bound' differ => ?_⟩
  · rw [grown.host]
    exact (sound.hosts h).change grown.trail
  · rw [grown.plugins] at bound
    rw [grown.plugin]
    exact (sound.plugins p bound).change grown.trail
  · rw [grown.plugins] at bound bound'
    rw [grown.plugin, grown.plugin]
    exact sound.apart p q bound bound' differ

theorem Sound.advances {n : Nat} (sound : w.Sound) (grown : Grows n w v) : Advances w v where
  trail := grown.trail
  fns := grown.fns
  hosts := ⟨[], (List.append_nil _).trans (by rw [grown.hosts])⟩
  plugins := Nat.le_of_eq (congrArg Array.size grown.plugins.symm)
  shadows p _ := ⟨[], by rw [Plugin.extend_nil, grown.plugin]⟩
  sound := sound.grow grown

theorem Advances.refl (sound : w.Sound) : Advances w w :=
  sound.advances (.refl 0 w)

theorem Advances.trans {u : World} (near : Advances u v) (far : Advances v w) : Advances u w := by
  refine ⟨near.trail.trans far.trail, near.fns.trans far.fns, near.hosts.trans far.hosts,
    Nat.le_trans near.plugins far.plugins, fun p bound => ?_, far.sound⟩
  obtain ⟨more, first⟩ := near.shadows p bound
  obtain ⟨rest, second⟩ := far.shadows p (Nat.lt_of_lt_of_le bound near.plugins)
  exact ⟨more ++ rest, by rw [second, first, Plugin.extend_extend]⟩

/-- The hosts of a world keep their roots. -/
theorem Advances.roots (advances : Advances w v) {h : HostId} (bound : h < w.hosts.size) :
    (v.host h).roots = (w.host h).roots := by
  obtain ⟨more, all⟩ := advances.hosts
  have found : (w.hosts.toList.map Host.roots)[h]? = some (w.host h).roots := by
    simp [World.host, bound]
  have bound' : h < v.hosts.size := by
    have lengths := congrArg List.length all
    simp only [List.length_append, List.length_map, Array.length_toList] at lengths
    exact Nat.lt_of_lt_of_le bound (lengths ▸ Nat.le_add_right _ _)
  have found' : (v.hosts.toList.map Host.roots)[h]? = some (v.host h).roots := by
    simp [World.host, bound']
  rw [← all, List.getElem?_append_left (by simpa using bound), found] at found'
  exact (Option.some.inj found').symm

end World

/-- A sound world goes on to be sound, and nothing of it is lost. -/
def Regime.advance : Regime where
  step w v := w.Sound → Advances w v
  fault _ e := e.isReport = false
  refl _ := Advances.refl
  trans near far sound := (near sound).trans (far (near sound).sound)
  back _ h := h
  ordinary _ _ h := h

/-- What only makes the world grow advances it, and how it grew is remembered. -/
theorem Act.Leaves.advance {α : Type} {x : Act α} {n : Nat} {w : World} {P : α → World → Prop}
    (h : Leaves (.growth n) x w P) : Leaves .advance x w fun a v => Grows n w v ∧ P a v :=
  (h.fewer (Nat.le_refl n)).mono (fun _ grown sound => sound.advances grown) fun _ h => h

end Overlay
