import Mathlib.Data.List.Nodup
import Overlay.Proofs.Keeping
import Overlay.Proofs.Registration
import Overlay.Proofs.Renaming

/-!
# Worlds ahead of a world

What a shadow is made of is read off frozen objects, so a shadow that is made later is made after the same plan: only
the positions of its objects, and the object that its pseudo-prototype descends from, depend on the time. `Ahead w p x`
says that the world `x` came from `w` with nothing but shadows of the plugin `p` made and members of objects set or
erased.
-/

namespace Overlay
set_option autoImplicit false

open Act World

namespace Plugin
variable {w v : World} {statics : Key → Prop} {p : PluginId} {f g : Value} {β : ObjId → ObjId} {n : Nat}

/-! ## The plan of a shadow -/

theorem ownBag_later (ancestral : w.Ancestral statics) (changes : w.heap.Changes v.heap)
    (callable : w.isCallable f = true) : ownBag v f = ownBag w f := by
  obtain ⟨c, category⟩ := isCallable_iff.1 callable
  rcases Host.category?_cases category with ⟨i, rfl, -⟩ | ⟨o, fn, rfl, found, -⟩
  · rfl
  · obtain ⟨q, descended⟩ := ancestral.functions o fn (Nat.zero_le o) found
    rw [ownBag, ownBag, changes.keeps o descended.frozen]

theorem methods_later (ancestral : w.Ancestral statics) (changes : w.heap.Changes v.heap)
    (functions : ∀ o, v.heap.hostFn? o = w.heap.hostFn? o) (config : Config) (callable : w.isCallable f = true) :
    Host.methods v config f = Host.methods w config f := by
  have forwarded : Host.isForwarded v config = Host.isForwarded w config := by
    funext q
    rw [Host.isForwarded, Host.isForwarded, isCallable_congr functions]
  obtain ⟨c, category⟩ := isCallable_iff.1 callable
  rcases Host.category?_cases category with ⟨i, rfl, -⟩ | ⟨o, fn, rfl, found, -⟩
  · rfl
  · obtain ⟨q, descended⟩ := ancestral.functions o fn (Nat.zero_le o) found
    have member : Host.prototypeMember w (.obj o) = .obj q := by
      rw [Host.prototypeMember, World.hostFn?, found]
      exact descended.link
    have member' : Host.prototypeMember v (.obj o) = .obj q := by
      rw [Host.prototypeMember, World.hostFn?, functions, found]
      exact descended.link
    rw [Host.methods, Host.methods, member, member', forwarded, ownBag, ownBag, changes.keeps q descended.sealed]

theorem shadowBag_later (ancestral : w.Ancestral statics) (changes : w.heap.Changes v.heap) (config : Config)
    (callable : w.isCallable f = true) (prototype : ObjId) :
    shadowBag v config f prototype = shadowBag w config f prototype := by
  rw [shadowBag, shadowBag, Host.members, Host.members, ownBag_later ancestral changes callable]

theorem prototypeBag_later (ancestral : w.Ancestral statics) (changes : w.heap.Changes v.heap)
    (functions : ∀ o, v.heap.hostFn? o = w.heap.hostFn? o) (config : Config) (callable : w.isCallable f = true)
    (first : ObjId) : prototypeBag v config f first = prototypeBag w config f first := by
  rw [prototypeBag, prototypeBag, methods_later ancestral changes functions config callable]

theorem copied_rename {source : Bag} (below : source.Below n) (fixed : ∀ o, o < n → β o = o) (names : List Name)
    (b : Bag) : (copied source names b).rename β = copied source names (b.rename β) := by
  induction names generalizing b with
  | nil => rfl
  | cons k rest ih =>
    simp only [copied, List.foldl_cons] at ih ⊢
    rw [ih, Bag.put_rename, below.get.rename_eq fixed]

theorem forwarded_rename {first first' : ObjId} (names : List Name) (b : Bag)
    (moved : ∀ i, i < 2 * names.length → β (first + i) = first' + i) :
    (forwarded first names b).rename β = forwarded first' names (b.rename β) := by
  induction names generalizing first first' b with
  | nil => rfl
  | cons k rest ih =>
    have start : β first = first' := moved 0 (by simp)
    have later (i : Nat) (inside : i < 2 * rest.length) : β (first + 2 + i) = first' + 2 + i := by
      have here := moved (2 + i) (by simp only [List.length_cons]; omega)
      rwa [← Nat.add_assoc, ← Nat.add_assoc] at here
    rw [forwarded, forwarded, ih _ later, Bag.put_rename, Datum.rename_obj, start]

theorem below_ownBag (intact : w.Intact False) (f : Value) : (ownBag w f).Below w.heap.size := by
  unfold ownBag
  split
  · exact (intact.objects _).bag
  · intro q listed
    cases listed

/-- A shadow's bag depends on where its pseudo-prototype stands, and on nothing else that a renaming moves. -/
theorem shadowBag_rename (intact : w.Intact False) (fixed : ∀ o, o < w.heap.size → β o = o) (config : Config)
    (f : Value) (prototype : ObjId) :
    (shadowBag w config f prototype).rename β = shadowBag w config f (β prototype) := by
  rw [shadowBag, shadowBag, copied_rename (below_ownBag intact f) fixed, Bag.put_rename, Datum.rename_obj]
  rfl

theorem shadowBag_holds {Q : Value → Prop} (intact : w.Intact False) (old : ∀ x : Value, x.Below w.heap.size → Q x)
    (config : Config) (f : Value) {prototype : ObjId} (own : Q (.obj prototype)) :
    (shadowBag w config f prototype).Holds Q := by
  have copies (names : List Name) (b : Bag) (held : b.Holds Q) : (copied (ownBag w f) names b).Holds Q := by
    induction names generalizing b with
    | nil => exact held
    | cons n rest ih => exact ih _ (held.put (old _ (below_ownBag intact f).get))
  apply copies
  apply Bag.Holds.put
  · intro q listed
    cases listed
  · exact own

/-- A pseudo-prototype's bag depends on where its forwarders stand. -/
theorem prototypeBag_rename (intact : w.Intact False) (fixed : ∀ o, o < w.heap.size → β o = o) (config : Config)
    (callable : w.isCallable f = true) {first first' : ObjId}
    (moved : ∀ i, i < 2 * (Host.methods w config f).length → β (first + i) = first' + i) :
    (prototypeBag w config f first).rename β = prototypeBag w config f first' := by
  rw [prototypeBag, prototypeBag, forwarded_rename _ _ moved, Bag.put_rename,
    (intact.callable callable).rename_eq fixed]
  rfl

/-- How many objects a shadow is made of. -/
def width (w : World) (p : PluginId) (f : Value) : Nat :=
  2 + 2 * (Host.methods w (w.plugin p).config f).length

/-! ## Worlds ahead -/

/-- The second world came from the first one, and shadows of the plugin are all that was made. -/
structure Ahead (w : World) (p : PluginId) (x : World) : Prop where
  bound : p < x.plugins.size
  advances : Advances w x
  ancestral : x.Ancestral fun _ => True
  closed : Closed x p
  intact : x.Intact False
  settings : SameSettings w x
  logging : x.logging = w.logging
  functions : ∀ o, x.heap.hostFn? o = w.heap.hostFn? o
  hosts : x.hosts = w.hosts
  fresh : ∀ g s, shadow? x p g = some s → shadow? w p g = some s ∨ w.heap.size ≤ s.object

namespace Ahead
variable {x y : World} {s : Shadow}

theorem sound (ahead : Ahead w p x) : x.Sound :=
  ahead.advances.sound

theorem size_le (ahead : Ahead w p x) : w.heap.size ≤ x.heap.size :=
  ahead.advances.trail.sameShape.size

theorem isCallable (ahead : Ahead w p x) (f : Value) : x.isCallable f = w.isCallable f :=
  isCallable_congr ahead.functions f

theorem roots (ahead : Ahead w p x) : (x.plugin p).roots = (w.plugin p).roots :=
  ahead.settings.roots p

theorem config (ahead : Ahead w p x) : (x.plugin p).config = (w.plugin p).config :=
  ahead.settings.config p

theorem host (start : Ahead w p w) (ahead : Ahead w p x) : (x.plugin p).host = (w.plugin p).host := by
  obtain ⟨more, grown⟩ := ahead.advances.shadows p start.bound
  rw [grown]
  rfl

theorem superConstructor (start : Ahead w p w) (ahead : Ahead w p x) (callable : w.isCallable f = true) :
    Host.superConstructor x (x.plugin p).host f = Host.superConstructor w (w.plugin p).host f :=
  start.ancestral.superConstructor_eq callable ahead.advances.trail _ _

theorem callable_of_shadow? (ahead : Ahead w p x) (found : shadow? x p f = some s) : w.isCallable f = true := by
  obtain ⟨c, category, -⟩ := Option.bind_eq_some_iff.1 found
  rw [← ahead.isCallable]
  exact isCallable_iff.2 ⟨c, category⟩

theorem ordered (ahead : Ahead w p x) : (x.plugin p).Ordered x.heap :=
  ahead.sound.plugins p ahead.bound

theorem registered (found : shadow? x p f = some s) : ∃ c, (c, s) ∈ (x.plugin p).shadows.entries := by
  obtain ⟨c, -, here⟩ := Option.bind_eq_some_iff.1 found
  exact ⟨c, Registry.mem_of_find? here⟩

theorem lt_size (ahead : Ahead w p x) (found : shadow? x p f = some s) : s.object < x.heap.size := by
  obtain ⟨c, listed⟩ := registered found
  exact (ahead.ordered.shadows _ listed).1.1

theorem parentShadow_lt (ahead : Ahead w p x) (parent : Value) : parentShadow x p parent < x.heap.size :=
  (ahead.ordered.linked_parentShadow parent).1.1

/-- The path of a shadow leads through objects that were there at the start. -/
theorem path (start : Ahead w p w) (ahead : Ahead w p x) (found : shadow? x p f = some s) {a : ObjId}
    (on : a ∈ x.heap.path s.object) : a = s.object ∨ a < w.heap.size := by
  obtain ⟨c, listed⟩ := registered found
  obtain ⟨linked, back⟩ := ahead.ordered.shadows _ listed
  have root : (x.plugin p).roots.functionPrototype < w.heap.size := by
    rw [ahead.roots]
    exact start.ordered.inside _ (by simp [Plugin.owned])
  rw [Heap.path, Heap.ancestors_of_linked linked back] at on
  rcases List.mem_cons.1 on with here | further
  · exact .inl here
  · exact .inr (Nat.lt_of_le_of_lt (Heap.le_of_mem_path further) root)

/-! ## Going ahead -/

theorem made (ahead : Ahead w p x) (made : Made p g x y) : Ahead w p y := by
  have advances := made.resolves.advances
  have kept := made.kept ahead.intact
  constructor
  case bound =>
    rw [made.resolves.plugins]
    exact ahead.bound
  case advances => exact ahead.advances.trans advances
  case ancestral => exact made.ancestral ahead.sound ahead.ancestral
  case closed => exact made.closed ahead.ancestral ahead.closed
  case intact => exact kept.intact
  case settings => exact ahead.settings.trans (made.resolves.sameView kept.tables).settings
  case logging => rw [made.logging, ahead.logging]
  case functions =>
    intro o
    rw [made.functions, ahead.functions]
  case hosts => rw [made.resolves.hosts, ahead.hosts]
  case fresh =>
    intro h s found
    by_cases this : h = g
    · rw [this, made.shadow?_eq] at found
      obtain rfl := Option.some.inj found
      exact .inr ahead.size_le
    · rw [made.shadow?_other ahead.sound this] at found
      exact ahead.fresh h s found

/-- A bag that is replaced by what an effect puts there leaves a world ahead. -/
theorem effect (ahead : Ahead w p x) {d : Effect} {o : ObjId} {b : Bag} (given : d.Given False x)
    (within : d.Within (.definitions fun _ => True)) (does : d.after x = { x with heap := x.heap.setBag o b }) :
    Ahead w p (d.after x) := by
  have advances := d.advances ahead.sound
  have functions (a : ObjId) : (d.after x).heap.hostFn? a = x.heap.hostFn? a := by
    rw [does, Heap.hostFn?, (Heap.get_setBag_shape x.heap o a b).2, Heap.hostFn?]
  have same : (d.after x).plugin p = x.plugin p := by rw [does]; rfl
  constructor
  case bound =>
    rw [does]
    exact ahead.bound
  case advances => exact ahead.advances.trans advances
  case ancestral => exact d.ancestral ahead.sound within ahead.ancestral
  case closed => exact ahead.closed.later ahead.ancestral advances same
  case intact => exact (Effect.keeps ahead.intact given).intact
  case settings =>
    rw [does]
    exact ⟨ahead.settings.config, ahead.settings.roots, ahead.settings.outers, ahead.settings.tables⟩
  case logging =>
    rw [does]
    exact ahead.logging
  case functions =>
    intro a
    rw [functions, ahead.functions]
  case hosts =>
    rw [does]
    exact ahead.hosts
  case fresh =>
    intro g s found
    rw [shadow?, Host.category?_congr functions, same, ← shadow?] at found
    exact ahead.fresh g s found

end Ahead

end Plugin

end Overlay
