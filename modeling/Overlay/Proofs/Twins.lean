import Overlay.Proofs.Ahead

/-!
# Two runs of one program, one of them ahead

One run makes some shadows early, the other one when they are first needed. `Twins w p P β l e` relates a world `l` of
the late run to a world `e` of the early one, both ahead of the world `w` where they parted. The objects of `w` are the
same in both. Each shadow of `l` has its twin in `e`, and `β` renames the objects of the one to those of the other. A
shadow that `e` alone has is that of a callable with `P`, and is as it was made: it is `Pending`, and stands where the
late run will find it when it makes the same shadow. When one run or the other makes a shadow they stay twins
(`Twins.overtake`, `Twins.catch_up`), and when both write to an object.
-/

namespace Overlay
set_option autoImplicit false

open Act World Heap

namespace Plugin

/-- A shadow is as it was made: it holds what its plan says, and its pseudo-prototype descends from the object that it
would descend from if it were made now. -/
structure Pending (w : World) (p : PluginId) (e : World) (g : Value) (s : Shadow) : Prop where
  late : w.heap.size ≤ s.object
  room : s.object + width w p g ≤ e.heap.size
  shadow : e.heap.get s.object =
    ⟨.obj (w.plugin p).roots.functionPrototype, shadowBag w (w.plugin p).config g (s.object + 1), none⟩
  prototype : ∃ parent q, Host.superConstructor w (w.plugin p).host g = .ok parent ∧
    parentPrototype e (w.plugin p).roots (parentShadow e p parent) = .ok q ∧
    e.heap.get (s.object + 1) = ⟨.obj q, prototypeBag w (w.plugin p).config g (s.object + 2), none⟩

/-- A shadow of the late run has its twin in the early one, and the objects that it holds are twinned. -/
structure Shared (w : World) (p : PluginId) (β : ObjId → ObjId) (l e : World) (g : Value) (s : Shadow) : Prop where
  found : ∃ t, shadow? e p g = some t ∧ t.object = β s.object
  twinned : Twinned w.heap.size β l.heap e.heap s.object
  values : (l.heap.get s.object).bag.Holds (Settled w.heap.size β l.heap e.heap)

/-- Two worlds ahead of a third, the same up to renaming and to shadows that the second alone has. -/
structure Twins (w : World) (p : PluginId) (P : Value → Prop) (β : ObjId → ObjId) (l e : World) : Prop where
  start : Ahead w p w
  lazy : Ahead w p l
  early : Ahead w p e
  alike : Alike w.heap.size β l.heap e.heap
  inside : ∀ o, o < l.heap.size → β o < e.heap.size
  injective : ∀ a b, a < l.heap.size → b < l.heap.size → β a = β b → a = b
  shadows : ∀ g s, shadow? l p g = some s → Shared w p β l e g s
  pending : ∀ g s, shadow? l p g = none → shadow? e p g = some s → P g ∧ Pending w p e g s
  free : ∀ g s, shadow? l p g = none → shadow? e p g = some s → ∀ o, o < l.heap.size →
    β o < s.object ∨ s.object + width w p g ≤ β o
  apart : ∀ g h s t, shadow? l p g = none → shadow? l p h = none → shadow? e p g = some s → shadow? e p h = some t →
    g ≠ h → s.object + width w p g ≤ t.object ∨ t.object + width w p h ≤ s.object

variable {w x y l l' e e' : World} {p : PluginId} {P : Value → Prop} {β : ObjId → ObjId} {f g parent : Value}
  {s : Shadow} {o q : ObjId} {k : Key}

/-! ## What both worlds find -/

theorem shadow?_null (w : World) (p : PluginId) : shadow? w p .null = none := rfl

theorem parentPrototype_of_obj {roots : Roots} (answer : w.heap.lookup o "prototype" = .ok (.obj q)) :
    parentPrototype w roots o = .ok q := by
  rw [parentPrototype, answer]
  rfl

theorem parentPrototype_of_plain {roots : Roots} {x : Value} (answer : w.heap.lookup o "prototype" = .ok x)
    (plain : ∀ q, x ≠ .obj q) : parentPrototype w roots o = .ok roots.objectPrototype := by
  rw [parentPrototype, answer]
  dsimp only [Bind.bind, Except.bind]
  split
  · rename_i q
    exact absurd rfl (plain q)
  · rfl

/-- The object that the pseudo-prototype of a callable descends from if it is made now. -/
def descent (w : World) (p : PluginId) (g : Value) : Except Fault ObjId := do
  let parent ← Host.superConstructor w (w.plugin p).host g
  parentPrototype w (w.plugin p).roots (parentShadow w p parent)

theorem Ahead.descent (start : Ahead w p w) (ahead : Ahead w p x) (callable : w.isCallable g = true)
    (above : Host.superConstructor w (w.plugin p).host g = .ok parent) :
    descent x p g = parentPrototype x (w.plugin p).roots (parentShadow x p parent) := by
  rw [Plugin.descent, start.superConstructor ahead callable, above, ahead.roots]
  rfl

theorem Ahead.ready (start : Ahead w p w) (ahead : Ahead w p x) (found : shadow? x p g = some s)
    (above : Host.superConstructor w (w.plugin p).host g = .ok parent) :
    parent = .null ∨ (shadow? x p parent).isSome = true := by
  by_cases null : parent = .null
  · exact .inl null
  · rw [← start.superConstructor ahead (ahead.callable_of_shadow? found)] at above
    exact .inr (ahead.closed.known_above ahead.sound (by rw [found]; rfl) above null)

/-- New shadows do not change what another one descends from. -/
theorem Ahead.parentPrototype_eq (ahead : Ahead w p x) (resolves : Resolves p x.heap.size x y)
    (known : parent = .null ∨ (shadow? x p parent).isSome = true) (roots : Roots) :
    parentPrototype y roots (parentShadow y p parent) = parentPrototype x roots (parentShadow x p parent) := by
  have same : parentShadow y p parent = parentShadow x p parent := by
    rcases known with rfl | some
    · obtain ⟨more, extended⟩ := resolves.advances.shadows p ahead.bound
      rw [parentShadow, parentShadow, shadow?_null, shadow?_null, extended]
      rfl
    · obtain ⟨s, found⟩ := Option.isSome_iff_exists.1 some
      rw [parentShadow, parentShadow, found, shadow?_advance resolves.advances found]
      rfl
  have inside := ahead.parentShadow_lt parent
  rw [parentPrototype, parentPrototype, same, Heap.lookup_congr fun a on =>
    resolves.old a (Nat.lt_of_le_of_lt (Heap.le_of_mem_path on) inside)]

namespace Twins

theorem size_le (twins : Twins w p P β l e) : w.heap.size ≤ l.heap.size :=
  twins.lazy.size_le

theorem mono {Q : Value → Prop} (twins : Twins w p P β l e) (more : ∀ g, P g → Q g) : Twins w p Q β l e :=
  { twins with
    pending := fun g s absent found =>
      ⟨more g (twins.pending g s absent found).1, (twins.pending g s absent found).2⟩ }

/-- Where the late run can write the texts of host functions, the early run can. -/
theorem legible (twins : Twins w p P β l e) (legible : l.Legible) : e.Legible := by
  have settings : SameSettings l e := twins.lazy.settings.symm.trans twins.early.settings
  have inside : w.Contained w.heap.size := twins.start.intact.contained
  have contained : l.Contained w.heap.size := by
    refine ⟨twins.alike.held, fun q => ?_, fun q => ?_⟩
    · rw [twins.lazy.settings.roots]
      exact inside.roots q
    · rw [twins.lazy.settings.outers]
      exact inside.outers q
  have view : SameView w.heap.size l e := ⟨twins.alike.old, settings⟩
  refine legible.less view.showsLess contained (fun o fn found => ?_) (fun o => ?_) ?_
  · rw [twins.lazy.functions] at found
    exact Heap.lt_size_of_hostFn? found
  · rw [twins.early.functions, twins.lazy.functions]
  · rw [twins.early.logging, twins.lazy.logging]

/-- An object that a name reaches from a shadow is twinned. -/
theorem twinned_of_search (twins : Twins w p P β l e) (found : shadow? l p g = some s)
    (answer : l.heap.search s.object k = .ok (some (.obj o))) : Twinned w.heap.size β l.heap e.heap o := by
  rw [Heap.search] at answer
  split at answer
  · rename_i a owner
    have value : (l.heap.get a).bag.get k = .obj o := Option.some.inj (Except.ok.inj answer)
    rcases twins.start.path twins.lazy found (List.mem_of_find?_eq_some owner) with rfl | below
    · exact (twins.shadows g s found).values.get settled_undefined o value
    · exact settled_of_below (twins.alike.held a below).get o value
  · rw [Heap.atEnd] at answer
    split at answer <;> cases answer

theorem twinned_of_lookup (twins : Twins w p P β l e) (found : shadow? l p g = some s)
    (answer : l.heap.lookup s.object k = .ok (.obj o)) : Twinned w.heap.size β l.heap e.heap o :=
  twins.twinned_of_search found (Heap.search_of_lookup answer nofun)

/-- A shadow that is made in both worlds descends from twins. -/
theorem parentPrototype (twins : Twins w p P β l e) (known : parent = .null ∨ (shadow? l p parent).isSome = true)
    (link : parentPrototype l (w.plugin p).roots (parentShadow l p parent) = .ok q) :
    parentPrototype e (w.plugin p).roots (parentShadow e p parent) = .ok (β q) ∧
      Twinned w.heap.size β l.heap e.heap q := by
  have root {o : ObjId} (own : o ∈ (w.plugin p).owned) : o < w.heap.size := twins.start.ordered.inside o own
  have op := root (o := (w.plugin p).roots.objectPrototype) (by simp [Plugin.owned])
  -- the shadows that both worlds ask for the `prototype` are twins, and so are the objects that they hold
  have above : parentShadow e p parent = β (parentShadow l p parent) ∧
      Twinned w.heap.size β l.heap e.heap (parentShadow l p parent) ∧
      ∀ o, l.heap.lookup (parentShadow l p parent) "prototype" = .ok (.obj o) →
        Twinned w.heap.size β l.heap e.heap o := by
    rcases known with rfl | some
    · have shadow : (w.plugin p).roots.objectShadow < w.heap.size := root (by simp [Plugin.owned])
      rw [parentShadow, parentShadow, shadow?_null, shadow?_null, Option.elim_none, Option.elim_none,
        twins.lazy.roots, twins.early.roots, twins.alike.fixed _ shadow]
      refine ⟨rfl, .old shadow, fun o answer => ?_⟩
      have old := twins.alike.below_of_search shadow (Heap.search_of_lookup answer (by rintro ⟨⟩))
      exact .old (Datum.below_obj.1 old)
    · obtain ⟨s, found⟩ := Option.isSome_iff_exists.1 some
      have shared := twins.shadows parent s found
      obtain ⟨t, found', same⟩ := shared.found
      rw [parentShadow, parentShadow, found, found', Option.elim_some, Option.elim_some]
      exact ⟨same, shared.twinned, fun o answer => twins.twinned_of_lookup found answer⟩
  obtain ⟨same, twinned, held⟩ := above
  rw [same]
  have both := twins.alike.lookup twinned "prototype"
  cases answer : l.heap.lookup (parentShadow l p parent) "prototype" with
  | error _ =>
    rw [Plugin.parentPrototype, answer] at link
    cases link
  | ok x =>
    rw [answer] at both
    rcases Datum.rename_cases β x with ⟨o, rfl⟩ | ⟨plain, plain'⟩
    · obtain rfl := Except.ok.inj ((parentPrototype_of_obj answer).symm.trans link)
      exact ⟨parentPrototype_of_obj (both.trans (congrArg Except.ok (Datum.rename_obj o))), held o answer⟩
    · obtain rfl := Except.ok.inj ((parentPrototype_of_plain answer plain).symm.trans link)
      rw [twins.alike.fixed _ op]
      exact ⟨parentPrototype_of_plain both plain', .old op⟩

end Twins

/-! ## One run makes a shadow -/

/-- A shadow stays as it was made while others are made. -/
theorem Pending.made {h : Value} (pending : Pending w p x h s) (start : Ahead w p w) (ahead : Ahead w p x)
    (found : shadow? x p h = some s) (made : Made p g x y) : Pending w p y h s := by
  have room := pending.room
  have wide : 2 ≤ width w p h := Nat.le_add_right _ _
  have same {o : ObjId} (inside : o < x.heap.size) : y.heap.get o = x.heap.get o := made.resolves.old o inside
  have size : x.heap.size ≤ y.heap.size := made.resolves.advances.trail.sameShape.size
  have inside : s.object + 1 < x.heap.size := by
    unfold ObjId at *
    omega
  obtain ⟨parent, q, above, link, pseudo⟩ := pending.prototype
  constructor
  case late => exact pending.late
  case room => exact Nat.le_trans room size
  case shadow => rw [same (Nat.lt_of_succ_lt inside), pending.shadow]
  case prototype =>
    refine ⟨parent, q, above, ?_, ?_⟩
    · rw [ahead.parentPrototype_eq made.resolves (start.ready ahead found above), link]
    · rw [same inside, pseudo]

/-- A shadow is as it was made when it is made. -/
theorem Made.pending (made : Made p g x y) (start : Ahead w p w) (ahead : Ahead w p x) :
    Pending w p y g ⟨x.heap.size, x.heap.size + 1⟩ := by
  obtain ⟨c, category, -⟩ := made.entry
  have callable : w.isCallable g = true := by
    rw [← ahead.isCallable]
    exact isCallable_iff.2 ⟨c, category⟩
  have changes := ahead.advances.trail
  obtain ⟨parent, q, above, link, pseudo⟩ := made.prototype
  have known : parent = .null ∨ (shadow? x p parent).isSome = true := by
    by_cases null : parent = .null
    · exact .inl null
    · exact .inr (made.ready parent above null)
  have shadow := made.shadow
  rw [ahead.roots] at shadow link
  rw [ahead.config, shadowBag_later start.ancestral changes _ callable] at shadow
  rw [ahead.config, prototypeBag_later start.ancestral changes ahead.functions _ callable] at pseudo
  rw [start.superConstructor ahead callable] at above
  constructor
  case late => exact ahead.size_le
  case room =>
    have size := made.size
    rw [ahead.config, methods_later start.ancestral changes ahead.functions _ callable] at size
    dsimp only [ObjId, width]
    omega
  case shadow => exact shadow
  case prototype =>
    refine ⟨parent, q, above, ?_, pseudo⟩
    rw [ahead.parentPrototype_eq made.resolves known, link]

namespace Twins

/-- The early run makes a shadow that the late run lacks. -/
theorem overtake (twins : Twins w p P β l e) (made : Made p g e e') (absent : shadow? l p g = none) :
    Twins w p (fun h => P h ∨ h = g) β l e' := by
  have size : e.heap.size ≤ e'.heap.size := made.resolves.advances.trail.sameShape.size
  have same {o : ObjId} (inside : o < e.heap.size) : e'.heap.get o = e.heap.get o := made.resolves.old o inside
  have early := twins.early.made made
  have twinned {o : ObjId} (before : Twinned w.heap.size β l.heap e.heap o) :
      Twinned w.heap.size β l.heap e'.heap o := by
    apply before.later twins.size_le
    · intros
      rfl
    · intro a inside paired
      rw [same (twins.inside a inside), paired]
  -- a shadow of the early run is the new one or was there before
  have cases_of {h : Value} {s : Shadow} (found : shadow? e' p h = some s) :
      h = g ∧ s = ⟨e.heap.size, e.heap.size + 1⟩ ∨ h ≠ g ∧ shadow? e p h = some s := by
    by_cases this : h = g
    · rw [this, made.shadow?_eq] at found
      exact .inl ⟨this, (Option.some.inj found).symm⟩
    · rw [made.shadow?_other twins.early.sound this] at found
      exact .inr ⟨this, found⟩
  constructor
  case start => exact twins.start
  case lazy => exact twins.lazy
  case early => exact early
  case alike =>
    constructor
    case fixed => exact twins.alike.fixed
    case old =>
      intro o below
      rw [same (Nat.lt_of_lt_of_le below twins.early.size_le), twins.alike.old o below]
    case held => exact twins.alike.held
    case back => exact twins.alike.back
    case back' => exact fun o => (early.intact.objects o).link
  case inside => exact fun o below => Nat.lt_of_lt_of_le (twins.inside o below) size
  case injective => exact twins.injective
  case shadows =>
    intro h s found
    have shared := twins.shadows h s found
    obtain ⟨t, found', moved⟩ := shared.found
    exact ⟨⟨t, shadow?_advance made.resolves.advances found', moved⟩, twinned shared.twinned,
      shared.values.mono fun x settled o value => twinned (settled o value)⟩
  case pending =>
    intro h s lacking found
    rcases cases_of found with ⟨rfl, rfl⟩ | ⟨-, before⟩
    · exact ⟨.inr rfl, made.pending twins.start twins.early⟩
    · obtain ⟨holds, pending⟩ := twins.pending h s lacking before
      exact ⟨.inl holds, pending.made twins.start twins.early before made⟩
  case free =>
    intro h s lacking found o inside
    rcases cases_of found with ⟨rfl, rfl⟩ | ⟨-, before⟩
    · exact .inl (twins.inside o inside)
    · exact twins.free h s lacking before o inside
  case apart =>
    intro h h' s t lacking lacking' found found' differ
    rcases cases_of found with ⟨rfl, rfl⟩ | ⟨-, before⟩
    · rcases cases_of found' with ⟨rfl, rfl⟩ | ⟨-, before'⟩
      · exact absurd rfl differ
      · exact .inr (twins.pending h' t lacking' before').2.room
    · rcases cases_of found' with ⟨rfl, rfl⟩ | ⟨-, before'⟩
      · exact .inl (twins.pending h s lacking before).2.room
      · exact twins.apart h h' s t lacking lacking' before before' differ

end Twins

/-- The renaming, with the objects from position `a` on taken to those from position `b` on. -/
def shift (β : ObjId → ObjId) (a b : ObjId) : ObjId → ObjId :=
  fun o => if o < a then β o else b + (o - a)

theorem shift_old {a b : ObjId} (old : o < a) : shift β a b o = β o :=
  if_pos old

theorem shift_new (a b : ObjId) (i : Nat) : shift β a b (a + i) = b + i := by
  simp [shift]

theorem shift_cases (β : ObjId → ObjId) (a b o : ObjId) :
    o < a ∧ shift β a b o = β o ∨ ∃ i, o = a + i ∧ shift β a b o = b + i := by
  by_cases old : o < a
  · exact .inl ⟨old, shift_old old⟩
  · obtain ⟨i, rfl⟩ := Nat.exists_eq_add_of_le (Nat.le_of_not_lt old)
    exact .inr ⟨i, rfl, shift_new a b i⟩

namespace Twins

/-- What was twinned before the late run caught up is twinned after it. -/
theorem twinned_shift (twins : Twins w p P β l e) (made : Made p g l l') (b : ObjId)
    (before : Twinned w.heap.size β l.heap e.heap o) :
    Twinned w.heap.size (shift β l.heap.size b) l'.heap e.heap o := by
  have same {o : ObjId} (inside : o < l.heap.size) : l'.heap.get o = l.heap.get o := made.resolves.old o inside
  apply before.later twins.size_le
  · intro a inside
    rw [same inside]
  · intro a inside paired
    have intact := twins.lazy.intact.objects a
    rw [shift_old inside, same inside, paired]
    exact Obj.rename_congr (intact.link.mono (Nat.le_of_lt inside)) intact.bag fun o below => (shift_old below).symm

/-- The two objects that the late run makes for a shadow are twinned with those that wait in the early run. -/
theorem twinned_made (twins : Twins w p P β l e) (made : Made p g l l') (found : shadow? e p g = some s) :
    Twinned w.heap.size (shift β l.heap.size s.object) l'.heap e.heap l.heap.size ∧
      Twinned w.heap.size (shift β l.heap.size s.object) l'.heap e.heap (l.heap.size + 1) := by
  have start := twins.start
  have made_late := made.pending start twins.lazy
  have waiting := (twins.pending g s made.absent found).2
  have new (i : Nat) : shift β l.heap.size s.object (l.heap.size + i) = s.object + i := shift_new _ _ i
  have fixed (o : ObjId) (below : o < w.heap.size) : shift β l.heap.size s.object o = o :=
    (shift_old (Nat.lt_of_lt_of_le below twins.size_le)).trans (twins.alike.fixed o below)
  have root : (w.plugin p).roots.functionPrototype < w.heap.size := start.ordered.inside _ (by simp [Plugin.owned])
  obtain ⟨parent, q, above, link, pseudo⟩ := made_late.prototype
  dsimp only at pseudo
  obtain ⟨parent', q', above', link', pseudo'⟩ := waiting.prototype
  obtain rfl : parent = parent' := Except.ok.inj (above.symm.trans above')
  have callable : w.isCallable g = true := twins.early.callable_of_shadow? found
  have known : parent = .null ∨ (shadow? l p parent).isSome = true := by
    by_cases null : parent = .null
    · exact .inl null
    · exact .inr (made.ready parent (by rw [start.superConstructor twins.lazy callable]; exact above) null)
  rw [twins.lazy.parentPrototype_eq made.resolves known] at link
  obtain ⟨both, twinned⟩ := twins.parentPrototype known link
  obtain rfl : β q = q' := Except.ok.inj (both.symm.trans link')
  constructor
  · refine .new ?_ (by rw [made_late.shadow]) (.old root)
    have here : shift β l.heap.size s.object l.heap.size = s.object := new 0
    rw [here, waiting.shadow, made_late.shadow, Obj.rename, Datum.rename_obj, fixed _ root,
      shadowBag_rename start.intact fixed, new 1]
  · refine .new ?_ (by rw [pseudo]) (twins.twinned_shift made s.object twinned)
    have linked : shift β l.heap.size s.object q = β q := shift_old (twinned.lt_size twins.size_le)
    rw [new 1, pseudo', pseudo, Obj.rename, Datum.rename_obj, linked]
    refine congrArg (Obj.mk _ · none) (prototypeBag_rename start.intact fixed _ callable fun i _ => ?_).symm
    rw [Nat.add_assoc, new, Nat.add_assoc]

/-- The old objects are the same in both worlds after the late run caught up. -/
theorem alike_shift (twins : Twins w p P β l e) (made : Made p g l l') (b : ObjId) :
    Alike w.heap.size (shift β l.heap.size b) l'.heap e.heap := by
  have old {o : ObjId} (below : o < w.heap.size) : o < l.heap.size := Nat.lt_of_lt_of_le below twins.size_le
  have same {o : ObjId} (below : o < w.heap.size) : l'.heap.get o = l.heap.get o := made.resolves.old o (old below)
  constructor
  case fixed =>
    intro o below
    rw [shift_old (old below), twins.alike.fixed o below]
  case old =>
    intro o below
    rw [same below, twins.alike.old o below]
  case held =>
    intro o below
    rw [same below]
    exact twins.alike.held o below
  case back => exact fun o => ((twins.lazy.made made).intact.objects o).link
  case back' => exact twins.alike.back'

/-- A shadow that the late run has after it caught up has its twin, whether it is the one just made or another. -/
theorem shared_shift {h : Value} {t : Shadow} (twins : Twins w p P β l e) (made : Made p g l l')
    (found : shadow? e p g = some s) (there : shadow? l' p h = some t) :
    Shared w p (shift β l.heap.size s.object) l' e h t := by
  obtain ⟨first, second⟩ := twins.twinned_made made found
  by_cases this : h = g
  · rw [this, made.shadow?_eq] at there
    obtain rfl := Option.some.inj there
    refine ⟨⟨s, this ▸ found, (shift_new l.heap.size s.object 0).symm⟩, first, ?_⟩
    rw [(made.pending twins.start twins.lazy).shadow]
    apply shadowBag_holds twins.start.intact fun x below => settled_of_below below
    rintro o same
    cases same
    exact second
  · rw [made.shadow?_other twins.lazy.sound this] at there
    have shared := twins.shadows h t there
    have inside := twins.lazy.lt_size there
    obtain ⟨t', found', moved⟩ := shared.found
    refine ⟨⟨t', found', by rw [shift_old inside, moved]⟩, twins.twinned_shift made _ shared.twinned, ?_⟩
    rw [made.resolves.old _ inside]
    exact shared.values.mono fun x settled o value => twins.twinned_shift made _ (settled o value)

/-- The late run makes a shadow that the early run has. -/
theorem catch_up (twins : Twins w p P β l e) (made : Made p g l l') (found : shadow? e p g = some s) :
    Twins w p (fun h => P h ∧ h ≠ g) (shift β l.heap.size s.object) l' e := by
  have start := twins.start
  have callable : w.isCallable g = true := twins.early.callable_of_shadow? found
  have size : l'.heap.size = l.heap.size + width w p g := by
    rw [made.size, twins.lazy.config,
      methods_later start.ancestral twins.lazy.advances.trail twins.lazy.functions _ callable, width, Nat.add_assoc]
  have room := (twins.pending g s made.absent found).2.room
  have free := twins.free g s made.absent found
  -- what the late run lacks still, it lacked before
  have lacked {h : Value} (absent : shadow? l' p h = none) : h ≠ g ∧ shadow? l p h = none := by
    have other : h ≠ g := by
      rintro rfl
      rw [made.shadow?_eq] at absent
      cases absent
    rw [made.shadow?_other twins.lazy.sound other] at absent
    exact ⟨other, absent⟩
  constructor
  case start => exact start
  case lazy => exact twins.lazy.made made
  case early => exact twins.early
  case alike => exact twins.alike_shift made s.object
  case inside =>
    intro o inside
    rcases shift_cases β l.heap.size s.object o with ⟨old, moved⟩ | ⟨i, rfl, moved⟩
    · rw [moved]
      exact twins.inside o old
    · rw [moved]
      unfold ObjId at *
      omega
  case injective =>
    intro a b inside inside' equal
    rcases shift_cases β l.heap.size s.object a with ⟨old, moved⟩ | ⟨i, rfl, moved⟩ <;>
      rcases shift_cases β l.heap.size s.object b with ⟨old', moved'⟩ | ⟨j, rfl, moved'⟩ <;>
      rw [moved, moved'] at equal
    · exact twins.injective a b old old' equal
    · have := free a old
      unfold ObjId at *
      omega
    · have := free b old'
      unfold ObjId at *
      omega
    · unfold ObjId at *
      omega
  case shadows => exact fun h t there => twins.shared_shift made found there
  case pending =>
    intro h t absent there
    obtain ⟨other, before⟩ := lacked absent
    obtain ⟨holds, pending⟩ := twins.pending h t before there
    exact ⟨⟨holds, other⟩, pending⟩
  case free =>
    intro h t absent there o inside
    obtain ⟨other, before⟩ := lacked absent
    rcases shift_cases β l.heap.size s.object o with ⟨old, moved⟩ | ⟨i, rfl, moved⟩
    · rw [moved]
      exact twins.free h t before there o old
    · have := twins.apart g h s t made.absent before found there other.symm
      rw [moved]
      unfold ObjId at *
      omega
  case apart =>
    intro h h' t t' absent absent' there there'
    exact twins.apart h h' t t' (lacked absent).2 (lacked absent').2 there there'

end Twins

end Plugin

end Overlay
