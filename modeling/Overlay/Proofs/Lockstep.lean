import Overlay.Proofs.Twins

/-!
# Two runs in step

Twins stay twins when both runs ask for a shadow, and when both write to an object and to its twin, as long as what
the waiting shadows would descend from is left alone. `Matches` says of an action of the late run and one of the early
run that they end alike: both with values that are related, or both with the same fault, and in worlds that are
twins.
-/

namespace Overlay
set_option autoImplicit false

open Act World Heap

/-! ## Texts -/

/-- The value is data without references. -/
def Datum.IsPlain (v : Value) : Prop :=
  ∃ d : PlainDatum, v = d.toValue

theorem Name.of?_of_ofValue {v : Value} {k : Name} (named : Name.ofValue v = .ok k) : Name.of? v = some k := by
  unfold Name.ofValue at named
  split at named <;> cases named
  assumption

namespace Datum
variable {ρ σ : Type} {f : ρ → σ}

theorem mem_mapItems {items : List (Datum ρ)} {x : Datum σ} (listed : x ∈ mapItems f items) :
    ∃ d ∈ items, x = d.mapRefs f := by
  induction items with
  | nil => simp [mapItems] at listed
  | cons d rest ih =>
    rw [mapItems] at listed
    rcases List.mem_cons.1 listed with rfl | later
    · exact ⟨d, List.mem_cons_self, rfl⟩
    · obtain ⟨d', here, same⟩ := ih later
      exact ⟨d', List.mem_cons_of_mem d here, same⟩

theorem mem_mapEntries {entries : List (Datum ρ × Datum ρ)} {x : Datum σ × Datum σ}
    (listed : x ∈ mapEntries f entries) : ∃ d ∈ entries, x = (d.1.mapRefs f, d.2.mapRefs f) := by
  induction entries with
  | nil => simp [mapEntries] at listed
  | cons d rest ih =>
    rw [mapEntries] at listed
    rcases List.mem_cons.1 listed with rfl | later
    · exact ⟨d, List.mem_cons_self, rfl⟩
    · obtain ⟨d', here, same⟩ := ih later
      exact ⟨d', List.mem_cons_of_mem d here, same⟩

end Datum

theorem mapM_congr {α β : Type} {f g : α → Except Fault β} {items : List α} (same : ∀ a ∈ items, f a = g a) :
    items.mapM f = items.mapM g := by
  induction items with
  | nil => rfl
  | cons a rest ih =>
    rw [List.mapM_cons, List.mapM_cons, same a List.mem_cons_self,
      ih fun b listed => same b (List.mem_cons_of_mem a listed)]

namespace World

/-- The text of data without references is the same in all worlds. -/
theorem describeWithin_plain (w v : World) (fuel : Nat) (inside : Surroundings) (d : PlainDatum) :
    w.describeWithin fuel inside d.toValue = v.describeWithin fuel inside d.toValue := by
  induction fuel generalizing inside d with
  | zero => rfl
  | succ fuel ih =>
    rw [Datum.toValue]
    cases d with
    | list mark items =>
      rw [Datum.mapRefs, describeWithin, describeWithin]
      split
      · rfl
      · refine congrArg (Datum.listText <$> ·) (mapM_congr fun x listed => ?_)
        obtain ⟨d, -, rfl⟩ := Datum.mem_mapItems listed
        exact ih _ d
    | record entries =>
      rw [Datum.mapRefs, describeWithin, describeWithin]
      refine congrArg (Datum.recordText <$> ·) (mapM_congr fun x listed => ?_)
      obtain ⟨d, -, rfl⟩ := Datum.mem_mapEntries listed
      have key := ih inside d.1
      have value := ih inside d.2
      rw [Datum.toValue] at key value
      rw [key, value]
    | ref r => cases r
    | _ => simp only [Datum.mapRefs, describeWithin]

theorem bare_plain (w v : World) (d : PlainDatum) : w.bare d.toValue = v.bare d.toValue := by
  unfold bare bareBy
  split
  · rfl
  · exact describeWithin_plain w v _ _ d

end World

namespace Plugin

variable {w x y l l' e e' : World} {p : PluginId} {P : Value → Prop} {β : ObjId → ObjId} {f g parent : Value}
  {s : Shadow} {o q : ObjId} {k : Key}

/-! ## Actions that match -/

/-- From twins, an action of the late run and one of the early run end alike: with values that are related or with one
fault, and in twins again, whose renaming is that of the start on the objects of the start. -/
inductive Matches {α : Type} (w : World) (p : PluginId) (P : Value → Prop) (β : ObjId → ObjId) (l e : World)
    (x y : Act α) (R : (ObjId → ObjId) → World → World → α → α → Prop) : Prop
  | ok {γ : ObjId → ObjId} {l' e' : World} {a b : α} (run : exec x l = (.ok a, l')) (run' : exec y e = (.ok b, e'))
      (twins : Twins w p P γ l' e') (size : l.heap.size ≤ l'.heap.size)
      (agree : ∀ o, o < l.heap.size → γ o = β o) (related : R γ l' e' a b) : Matches w p P β l e x y R
  | stop {γ : ObjId → ObjId} {l' e' : World} {f : Fault} (run : exec x l = (.error f, l'))
      (run' : exec y e = (.error f, e')) (twins : Twins w p P γ l' e') (size : l.heap.size ≤ l'.heap.size)
      (agree : ∀ o, o < l.heap.size → γ o = β o) : Matches w p P β l e x y R

namespace Matches
variable {A B : Type} {x y : Act A} {R : (ObjId → ObjId) → World → World → A → A → Prop}
  {S : (ObjId → ObjId) → World → World → B → B → Prop}

protected theorem pure {a b : A} (twins : Twins w p P β l e) (related : R β l e a b) :
    Matches w p P β l e (pure a) (pure b) R :=
  .ok rfl rfl twins (Nat.le_refl _) (fun _ _ => rfl) related

/-- One action after another. What comes next may know how the first ones ran. -/
theorem bind_run {h k : A → Act B} (first : Matches w p P β l e x y R)
    (next : ∀ γ l' e' a b, exec x l = (.ok a, l') → exec y e = (.ok b, e') → Twins w p P γ l' e' → R γ l' e' a b →
      Matches w p P γ l' e' (h a) (k b) S) :
    Matches w p P β l e (x >>= h) (y >>= k) S := by
  cases first with
  | stop run run' twins size agree => exact .stop (exec_bind_error run) (exec_bind_error run') twins size agree
  | ok run run' twins size agree related =>
    have further {γ δ : ObjId → ObjId} {m : Nat} (size : l.heap.size ≤ m) (agree : ∀ o, o < l.heap.size → γ o = β o)
        (agree' : ∀ o, o < m → δ o = γ o) (o : ObjId) (below : o < l.heap.size) : δ o = β o :=
      (agree' o (Nat.lt_of_lt_of_le below size)).trans (agree o below)
    cases next _ _ _ _ _ run run' twins related with
    | ok run₂ run₂' twins₂ size₂ agree₂ related₂ =>
      exact .ok ((exec_bind_ok run).trans run₂) ((exec_bind_ok run').trans run₂') twins₂ (Nat.le_trans size size₂)
        (further size agree agree₂) related₂
    | stop run₂ run₂' twins₂ size₂ agree₂ =>
      exact .stop ((exec_bind_ok run).trans run₂) ((exec_bind_ok run').trans run₂') twins₂ (Nat.le_trans size size₂)
        (further size agree agree₂)

protected theorem bind {h k : A → Act B} (first : Matches w p P β l e x y R)
    (next : ∀ γ l' e' a b, Twins w p P γ l' e' → R γ l' e' a b → Matches w p P γ l' e' (h a) (k b) S) :
    Matches w p P β l e (x >>= h) (y >>= k) S :=
  first.bind_run fun γ l' e' a b _ _ => next γ l' e' a b

theorem bind_get {h k : World → Act B} (next : Matches w p P β l e (h l) (k e) S) :
    Matches w p P β l e (get >>= h) (get >>= k) S := by
  cases next with
  | ok run run' twins size agree related => exact .ok run run' twins size agree related
  | stop run run' twins size agree => exact .stop run run' twins size agree

/-- Actions that change nothing and answer alike. -/
theorem still {q r : Except Fault A} {h : A → A} (twins : Twins w p P β l e) (run : exec x l = (q, l))
    (run' : exec y e = (r, e)) (same : r = h <$> q) (related : ∀ a, q = .ok a → R β l e a (h a)) :
    Matches w p P β l e x y R := by
  cases q with
  | ok a => exact .ok run (by rw [run', same]; rfl) twins (Nat.le_refl _) (fun _ _ => rfl) (related a rfl)
  | error f => exact .stop run (by rw [run', same]; rfl) twins (Nat.le_refl _) fun _ _ => rfl

/-- A question that both worlds answer alike. -/
theorem ask {q r : Except Fault A} {h : A → A} (twins : Twins w p P β l e) (same : r = h <$> q)
    (related : ∀ a, q = .ok a → R β l e a (h a)) : Matches w p P β l e (liftM q) (liftM r) R :=
  still twins rfl rfl same related

theorem still_same {q r : Except Fault A} (twins : Twins w p P β l e) (run : exec x l = (q, l))
    (run' : exec y e = (r, e)) (same : r = q) (related : ∀ a, q = .ok a → R β l e a a) : Matches w p P β l e x y R :=
  still (h := id) twins run run' (by rw [same, id_map]) related

theorem ask_same {q r : Except Fault A} (twins : Twins w p P β l e) (same : r = q)
    (related : ∀ a, q = .ok a → R β l e a a) : Matches w p P β l e (liftM q) (liftM r) R :=
  still_same twins rfl rfl same related

/-- A question that both worlds answer with one value, before another action. -/
theorem bind_ask {q r : Except Fault A} {h k : A → Act B} (twins : Twins w p P β l e) (same : r = q)
    (next : ∀ a, q = .ok a → Matches w p P β l e (h a) (k a) S) :
    Matches w p P β l e (liftM q >>= h) (liftM r >>= k) S := by
  subst same
  cases r with
  | ok a =>
    cases next a rfl with
    | ok run run' twins size agree related => exact .ok run run' twins size agree related
    | stop run run' twins size agree => exact .stop run run' twins size agree
  | error f => exact .stop rfl rfl twins (Nat.le_refl _) fun _ _ => rfl

end Matches

/-! ## Both runs ask for a shadow -/

/-- The line of a callable is the same in a world ahead. -/
theorem Ahead.line {r : List Value} (start : Ahead w p w) (ahead : Ahead w p x) (callable : w.isCallable f = true)
    (line : Host.Line w (w.plugin p).host f r) : Host.Line x (x.plugin p).host f r := by
  induction line with
  | top above => exact .top (by rw [start.superConstructor ahead callable, above])
  | under above ancestor _ ih =>
    have callable' := superConstructor_callable above ancestor
    exact .under (by rw [start.superConstructor ahead callable, above]) ancestor (ih callable')

/-- In a legible world ahead a shadow is given to every callable, and those that were missing are made. -/
theorem Ahead.shadowOf {r : List Value} (start : Ahead w p w) (ahead : Ahead w p x) (legible : x.Legible)
    (callable : w.isCallable f = true) (line : Host.Line w (w.plugin p).host f r) :
    ∃ s y, exec (shadowOf p f) x = (.ok s.object, y) ∧ shadow? y p f = some s ∧
      Raised p (r.filter fun g => (shadow? x p g).isNone).reverse x y ∧
      (r.filter fun g => (shadow? x p g).isNone).Nodup := by
  have callable' : x.isCallable f = true := by
    rw [ahead.isCallable]
    exact callable
  obtain ⟨chain, s, y, missing, raised, run, found, -⟩ :=
    shadowOf_legible ahead.sound ahead.ancestral ahead.intact ahead.bound callable' legible
  rw [missing.eq_filter ahead.closed ahead.sound (start.line ahead callable line)]
  exact ⟨s, y, run, found, raised, missing.nodup⟩

/-- What waits would descend from the same object in a later world of the early run. -/
def Spared (p : PluginId) (l e e' : World) : Prop :=
  ∀ g, shadow? l p g = none → (shadow? e p g).isSome = true → descent e' p g = descent e p g

/-- What waits in the second worlds waited in the first ones, and would descend from the same object. -/
def Steady (p : PluginId) (l l' e e' : World) : Prop :=
  ∀ g, shadow? l' p g = none → (shadow? e' p g).isSome = true →
    shadow? l p g = none ∧ (shadow? e p g).isSome = true ∧ descent e' p g = descent e p g

theorem Steady.spared {u : World} (steady : Steady p l l' e e') (spared : Spared p l e u) : Spared p l' e' u := by
  intro g absent waits
  obtain ⟨absent, waits, same⟩ := steady g absent waits
  rw [spared g absent waits, same]

namespace Twins

/-- Both runs make shadows, the early one those among them that it lacks. -/
theorem raise {r r' : List Value} (twins : Twins w p P β l e) (raised : Raised p r l l') (raised' : Raised p r' e e')
    (once : r.Nodup) (lacking : r' = r.filter fun g => (shadow? e p g).isNone) :
    ∃ γ, Twins w p P γ l' e' ∧ ∀ o, o < l.heap.size → γ o = β o := by
  induction raised generalizing β e r' with
  | nil _ =>
    obtain rfl : r' = [] := lacking
    cases raised'
    exact ⟨β, twins, fun _ _ => rfl⟩
  | @cons g rest l u l' made _ ih =>
    obtain ⟨new, once⟩ := List.nodup_cons.1 once
    have size : l.heap.size ≤ u.heap.size := made.resolves.advances.trail.sameShape.size
    cases found : shadow? e p g with
    | some s =>
      rw [List.filter_cons_of_neg (by simp [found])] at lacking
      obtain ⟨γ, further, agree⟩ := ih ((twins.catch_up made found).mono fun _ holds => holds.1) raised' once lacking
      refine ⟨γ, further, fun o inside => ?_⟩
      rw [agree o (Nat.lt_of_lt_of_le inside size), shift_old inside]
    | none =>
      rw [List.filter_cons_of_pos (by simp [found])] at lacking
      subst lacking
      cases raised' with
      | cons made' further' =>
        have both := (twins.overtake made' made.absent).catch_up made made'.shadow?_eq
        have next : Twins w p P _ u _ := both.mono fun h holds => holds.1.resolve_right holds.2
        obtain ⟨γ, further, agree⟩ := ih next further' once (List.filter_congr fun h listed => by
          have other : h ≠ g := fun same => new (same ▸ listed)
          rw [made'.shadow?_other twins.early.sound other])
        refine ⟨γ, further, fun o inside => ?_⟩
        rw [agree o (Nat.lt_of_lt_of_le inside size), shift_old inside]

/-- Where texts can be written, both runs give a callable its shadow, and the shadows are twins. What waits then waited
before, and would descend from the same object. -/
theorem shadowOf (twins : Twins w p P β l e) (legible : l.Legible) (callable : w.isCallable g = true) :
    Matches w p P β l e (shadowOf p g) (shadowOf p g) fun γ l' e' a b =>
      (b = γ a ∧ ∃ s, shadow? l' p g = some s ∧ s.object = a) ∧ Steady p l l' e e' := by
  obtain ⟨r, line⟩ := Host.exists_line twins.start.ancestral (w.plugin p).host callable
  obtain ⟨s, l', run, found, raised, once⟩ := twins.start.shadowOf twins.lazy legible callable line
  obtain ⟨t, e', run', found', raised', -⟩ := twins.start.shadowOf twins.early (twins.legible legible) callable line
  have lacking : (r.filter fun g => (shadow? e p g).isNone).reverse =
      (r.filter fun g => (shadow? l p g).isNone).reverse.filter fun g => (shadow? e p g).isNone := by
    rw [List.filter_reverse, List.filter_filter]
    refine congrArg List.reverse (List.filter_congr fun h _ => ?_)
    cases there : shadow? l p h with
    | none => simp
    | some s =>
      obtain ⟨t, known, -⟩ := (twins.shadows h s there).found
      simp [known]
  obtain ⟨γ, further, agree⟩ := twins.raise raised raised' (List.nodup_reverse.2 once) lacking
  obtain ⟨t', known, moved⟩ := (further.shadows g s found).found
  obtain rfl : t' = t := Option.some.inj (known.symm.trans found')
  have size := (raised.resolves twins.lazy.sound).advances.trail.sameShape.size
  refine .ok run run' further size agree ⟨⟨moved, s, found, rfl⟩, fun h absent there => ?_⟩
  -- what the late run lacks still was not made now, in either run
  have unmade : h ∉ (r.filter fun g => (shadow? l p g).isNone).reverse := by
    intro listed
    have some := raised.shadow?_mem twins.lazy.sound listed
    rw [absent] at some
    cases some
  have unmade' : h ∉ (r.filter fun g => (shadow? e p g).isNone).reverse := by
    rw [lacking]
    exact fun listed => unmade (List.mem_filter.1 listed).1
  rw [raised.shadow?_other twins.lazy.sound unmade] at absent
  rw [raised'.shadow?_other twins.early.sound unmade'] at there
  obtain ⟨t, waits⟩ := Option.isSome_iff_exists.1 there
  refine ⟨absent, there, ?_⟩
  obtain ⟨parent, q, above, -⟩ := (twins.pending h t absent waits).2.prototype
  have waiting := twins.early.callable_of_shadow? waits
  rw [twins.start.descent further.early waiting above, twins.start.descent twins.early waiting above]
  exact twins.early.parentPrototype_eq (raised'.resolves twins.early.sound)
    (twins.start.ready twins.early waits above) _

end Twins

/-! ## The runs part -/

/-- The callable has no shadow and is another one or an ancestor of it. -/
def Missing (w : World) (p : PluginId) (f g : Value) : Prop :=
  shadow? w p g = none ∧ ∃ line, Host.Line w (w.plugin p).host f line ∧ g ∈ line

namespace Twins

theorem refl (start : Ahead w p w) : Twins w p (fun _ => False) id w w where
  start := start
  lazy := start
  early := start
  alike :=
    ⟨fun _ _ => rfl, fun _ _ => rfl, fun o _ => (start.intact.objects o).bag, fun o => (start.intact.objects o).link,
      fun o => (start.intact.objects o).link⟩
  inside := fun _ below => below
  injective := fun _ _ _ _ equal => equal
  shadows := fun _ s found =>
    ⟨⟨s, found, rfl⟩, .old (start.lt_size found),
      fun q listed => settled_of_below ((start.intact.objects _).bag q listed).2⟩
  pending := fun _ _ absent found => nomatch absent.symm.trans found
  free := fun _ _ absent found => nomatch absent.symm.trans found
  apart := fun _ _ _ _ absent _ found => nomatch absent.symm.trans found

theorem overtakes {r : List Value} (twins : Twins w p P β l e) (raised : Raised p r e e')
    (absent : ∀ g ∈ r, shadow? l p g = none) : Twins w p (fun h => P h ∨ h ∈ r) β l e' := by
  induction raised generalizing P with
  | nil _ => exact twins.mono fun _ holds => .inl holds
  | @cons g rest e u e' made _ ih =>
    have next := ih (twins.overtake made (absent g List.mem_cons_self)) fun h listed =>
      absent h (List.mem_cons_of_mem g listed)
    apply next.mono
    rintro h ((holds | rfl) | later)
    · exact .inl holds
    · exact .inr List.mem_cons_self
    · exact .inr (List.mem_cons_of_mem g later)

/-- The early run asks for the shadow of a callable, and the late one does not. -/
theorem part (start : Ahead w p w) (legible : w.Legible) (callable : w.isCallable f = true) :
    ∃ s e, exec (Plugin.shadowOf p f) w = (.ok s, e) ∧ Twins w p (Missing w p f) id w e := by
  obtain ⟨r, line⟩ := Host.exists_line start.ancestral (w.plugin p).host callable
  obtain ⟨s, e, run, -, raised, -⟩ := start.shadowOf start legible callable line
  have missing {g : Value} (listed : g ∈ (r.filter fun g => (shadow? w p g).isNone).reverse) : Missing w p f g := by
    obtain ⟨on, absent⟩ := List.mem_filter.1 (List.mem_reverse.1 listed)
    exact ⟨Option.isNone_iff_eq_none.1 absent, r, line, on⟩
  refine ⟨s.object, e, run, ?_⟩
  apply ((refl start).overtakes raised fun g listed => (missing listed).1).mono
  rintro g (no | listed)
  · exact no.elim
  · exact missing listed

end Twins

/-! ## Both runs write to an object -/

namespace Twins

/-- What was twinned is twinned after the bags of an object and of its twin were replaced. -/
theorem twinned_setBag {a : ObjId} (twins : Twins w p P β l e) (inside : o < l.heap.size) (b : Bag)
    (before : Twinned w.heap.size β l.heap e.heap a) :
    Twinned w.heap.size β (l.heap.setBag o b) (e.heap.setBag (β o) (b.rename β)) a := by
  apply before.later twins.size_le
  · intro a _
    exact (get_setBag_shape l.heap o a b).1
  · intro a below paired
    by_cases same : a = o
    · subst same
      rw [get_setBag_same b inside, get_setBag_same _ (twins.inside a inside), paired]
      rfl
    · have apart : β a ≠ β o := fun equal => same (twins.injective a o below inside equal)
      rw [get_setBag_other _ _ same, get_setBag_other _ _ apart, paired]

/-- The old objects are the same in both worlds after the bags of an object and of its twin were replaced. -/
theorem alike_setBag {b : Bag} (twins : Twins w p P β l e) (inside : o < l.heap.size)
    (lazy : Ahead w p { l with heap := l.heap.setBag o b })
    (early : Ahead w p { e with heap := e.heap.setBag (β o) (b.rename β) })
    (held : o < w.heap.size → b.Below w.heap.size) :
    Alike w.heap.size β (l.heap.setBag o b) (e.heap.setBag (β o) (b.rename β)) := by
  have fixed := twins.alike.fixed
  constructor
  case fixed => exact fixed
  case old =>
    intro a below
    by_cases same : a = o
    · subst same
      rw [get_setBag_same b inside, fixed a below, (held below).rename_eq fixed,
        get_setBag_same b (Nat.lt_of_lt_of_le below twins.early.size_le), twins.alike.old a below]
    · have apart : a ≠ β o := fun equal => same
        (twins.injective a o (Nat.lt_of_lt_of_le below twins.size_le) inside ((fixed a below).trans equal))
      rw [get_setBag_other _ _ same, get_setBag_other _ _ apart, twins.alike.old a below]
  case held =>
    intro a below
    by_cases same : a = o
    · subst same
      rw [get_setBag_same b inside]
      exact held below
    · rw [get_setBag_other _ _ same]
      exact twins.alike.held a below
  case back => exact fun a => (lazy.intact.objects a).link
  case back' => exact fun a => (early.intact.objects a).link

/-- A waiting shadow is still as it was made after the twin of an object was written to, if what it would descend from
is the same. -/
theorem pending_setBag {b : Bag} (twins : Twins w p P β l e) (inside : o < l.heap.size)
    (early : Ahead w p { e with heap := e.heap.setBag (β o) b }) (absent : shadow? l p g = none)
    (found : shadow? e p g = some s)
    (same : Plugin.descent { e with heap := e.heap.setBag (β o) b } p g = Plugin.descent e p g) :
    Pending w p { e with heap := e.heap.setBag (β o) b } g s := by
  have pending := (twins.pending g s absent found).2
  have wide : 2 ≤ width w p g := Nat.le_add_right _ _
  have free := twins.free g s absent found o inside
  have apart : s.object ≠ β o ∧ s.object + 1 ≠ β o := by
    unfold ObjId at *
    omega
  have callable := twins.early.callable_of_shadow? found
  obtain ⟨parent, q, above, link, pseudo⟩ := pending.prototype
  refine ⟨pending.late, by rw [size_setBag]; exact pending.room, ?_, parent, q, above, ?_, ?_⟩
  · rw [get_setBag_other _ _ apart.1, pending.shadow]
  · rw [← twins.start.descent early callable above, same, twins.start.descent twins.early callable above, link]
  · rw [get_setBag_other _ _ apart.2, pseudo]

/-- Both runs replace the bag of an object and of its twin. Nothing is disturbed if what the waiting shadows would
descend from is not. -/
theorem setBag {b : Bag} (twins : Twins w p P β l e) (inside : o < l.heap.size)
    (lazy : Ahead w p { l with heap := l.heap.setBag o b })
    (early : Ahead w p { e with heap := e.heap.setBag (β o) (b.rename β) })
    (held : o < w.heap.size → b.Below w.heap.size) (values : b.Holds (Settled w.heap.size β l.heap e.heap))
    (spared : Spared p l e { e with heap := e.heap.setBag (β o) (b.rename β) }) :
    Twins w p P β { l with heap := l.heap.setBag o b } { e with heap := e.heap.setBag (β o) (b.rename β) } := by
  have settled (x : Value) (before : Settled w.heap.size β l.heap e.heap x) :
      Settled w.heap.size β (l.heap.setBag o b) (e.heap.setBag (β o) (b.rename β)) x :=
    fun a value => twins.twinned_setBag inside b (before a value)
  constructor
  case start => exact twins.start
  case lazy => exact lazy
  case early => exact early
  case alike => exact twins.alike_setBag inside lazy early held
  case inside =>
    intro a below
    rw [size_setBag] at below ⊢
    exact twins.inside a below
  case injective =>
    intro a c below below'
    rw [size_setBag] at below below'
    exact twins.injective a c below below'
  case shadows =>
    intro g s found
    rw [shadow?_setBag] at found
    have shared := twins.shadows g s found
    refine ⟨by rw [shadow?_setBag]; exact shared.found, twins.twinned_setBag inside b shared.twinned, ?_⟩
    by_cases same : s.object = o
    · rw [same, get_setBag_same b inside]
      exact values.mono settled
    · rw [get_setBag_other _ _ same]
      exact shared.values.mono settled
  case pending =>
    intro g s absent found
    rw [shadow?_setBag] at absent found
    have undisturbed := spared g absent (by rw [found]; rfl)
    exact ⟨(twins.pending g s absent found).1, twins.pending_setBag inside early absent found undisturbed⟩
  case free =>
    intro g s absent found a below
    rw [shadow?_setBag] at absent found
    rw [size_setBag] at below
    exact twins.free g s absent found a below
  case apart =>
    intro g h s t absent absent' found found'
    rw [shadow?_setBag] at absent absent' found found'
    exact twins.apart g h s t absent absent' found found'

end Twins

/-- A write of a member other than `prototype` does not change what a shadow would descend from. -/
theorem Ahead.descent_write {b : Bag} (start : Ahead w p w) (ahead : Ahead w p x)
    (ahead' : Ahead w p { x with heap := x.heap.setBag o b }) (callable : w.isCallable g = true)
    (above : Host.superConstructor w (w.plugin p).host g = .ok parent) (other : k ≠ "prototype")
    (others : ∀ key, k ≠ key → b.find? key = (x.heap.get o).bag.find? key) :
    Plugin.descent { x with heap := x.heap.setBag o b } p g = Plugin.descent x p g := by
  have same : parentShadow { x with heap := x.heap.setBag o b } p parent = parentShadow x p parent := by
    rw [parentShadow, shadow?_setBag]
    rfl
  rw [start.descent ahead' callable above, start.descent ahead callable above, same, parentPrototype, parentPrototype,
    Heap.lookup, Heap.lookup, search_of_members (fun a _ => (get_setBag_shape x.heap o a b).1) fun a _ => ?_]
  exact member?_setBag x.heap fun _ => others _ other

namespace Twins

/-- Both runs change one member of an object and of its twin, by effects of their own. -/
theorem replace {b : Bag} {d d' : Effect} (twins : Twins w p P β l e) (twinned : Twinned w.heap.size β l.heap e.heap o)
    (does : d.after l = { l with heap := l.heap.setBag o b }) (given : d.Given False l)
    (within : d.Within (.definitions fun _ => True))
    (does' : d'.after e = { e with heap := e.heap.setBag (β o) (b.rename β) }) (given' : d'.Given False e)
    (within' : d'.Within (.definitions fun _ => True)) (held : o < w.heap.size → b.Below w.heap.size)
    (values : b.Holds (Settled w.heap.size β l.heap e.heap))
    (others : ∀ key, k ≠ key → b.find? key = (l.heap.get o).bag.find? key)
    (spared : k = "prototype" → Spared p l e { e with heap := e.heap.setBag (β o) (b.rename β) }) :
    Twins w p P β { l with heap := l.heap.setBag o b } { e with heap := e.heap.setBag (β o) (b.rename β) } := by
  have lazy := twins.lazy.effect given within does
  have early := twins.early.effect given' within' does'
  rw [does] at lazy
  rw [does'] at early
  refine twins.setBag (twinned.lt_size twins.size_le) lazy early held values fun g absent waits => ?_
  by_cases this : k = "prototype"
  · exact spared this g absent waits
  · obtain ⟨s, found⟩ := Option.isSome_iff_exists.1 waits
    obtain ⟨parent, q, above, -⟩ := (twins.pending g s absent found).2.prototype
    refine twins.start.descent_write twins.early early (twins.early.callable_of_shadow? found) above this
      fun key other => ?_
    rw [twins.alike.paired twinned, Obj.rename, Bag.find?_rename, Bag.find?_rename, others key other]

/-- Both runs put a member of an object and of its twin. -/
theorem putProperty {name x : Value} (twins : Twins w p P β l e)
    (twinned : Twinned w.heap.size β l.heap e.heap o)
    (values : (l.heap.get o).bag.Holds (Settled w.heap.size β l.heap e.heap)) (plain : name.IsPlain)
    (below : x.Below w.heap.size) (visible : Bool)
    (spared : Key.of? name = some (.text "prototype") → Spared p l e (exec (putProperty (β o) name x visible) e).2) :
    Matches w p P β l e (putProperty o name x visible) (putProperty (β o) name x visible) fun _ _ _ _ _ => True := by
  obtain ⟨d, rfl⟩ := plain
  have paired := twins.alike.paired twinned
  refine .bind_get ?_
  rw [paired, Obj.rename]
  dsimp only
  rw [Bag.frozen_rename]
  cases is_open : (l.heap.get o).bag.frozen with
  | true =>
    refine .bind_ask twins (bare_plain e l d) fun t _ => ?_
    exact .stop rfl rfl twins (Nat.le_refl _) fun _ _ => rfl
  | false =>
    refine .bind_ask twins rfl fun n named => ?_
    have named := Name.of?_of_ofValue named
    have key : Key.of? d.toValue = some n.key := Name.key_of? named
    have renamed : ((l.heap.get o).bag.put n x visible).rename β = ((l.heap.get o).bag.rename β).put n x visible := by
      rw [Bag.put_rename, below.rename_eq twins.alike.fixed]
    have does : (Effect.put o d.toValue x visible).after l =
        { l with heap := l.heap.setBag o ((l.heap.get o).bag.put n x visible) } := by
      rw [Effect.after, exec_putProperty x visible is_open named]
    have does' : (Effect.put (β o) d.toValue x visible).after e =
        { e with heap := e.heap.setBag (β o) (((l.heap.get o).bag.put n x visible).rename β) } := by
      rw [Effect.after, exec_putProperty x visible (by rw [paired]; exact is_open) named, paired, renamed]
      rfl
    have name_below {m : Nat} : n.value.Below m := by
      rw [Name.value_of? named]
      exact Datum.below_toValue d
    have further := twins.replace twinned does ⟨Datum.below_toValue d, below.mono twins.size_le⟩ trivial does'
      ⟨Datum.below_toValue d, below.mono twins.early.size_le⟩ trivial
      (fun old => (twins.alike.held o old).put name_below below) (values.put (settled_of_below below))
      (fun key other => Bag.find?_put_other _ _ _ other) fun same => by
        rw [← does']
        exact spared (key.trans (congrArg some same))
    rw [renamed] at further
    exact .ok rfl rfl further (Nat.le_of_eq (size_setBag _ _ _).symm) (fun _ _ => rfl) trivial

/-- Both runs erase a member of an object and of its twin. -/
theorem eraseProperty {name : Value} (twins : Twins w p P β l e)
    (twinned : Twinned w.heap.size β l.heap e.heap o)
    (values : (l.heap.get o).bag.Holds (Settled w.heap.size β l.heap e.heap)) (plain : name.IsPlain)
    (spared : Key.of? name = some (.text "prototype") → Spared p l e (exec (eraseProperty (β o) name) e).2) :
    Matches w p P β l e (eraseProperty o name) (eraseProperty (β o) name) fun _ _ _ a b => b = a := by
  obtain ⟨d, rfl⟩ := plain
  have paired := twins.alike.paired twinned
  refine .bind_get ?_
  rw [paired, Obj.rename]
  dsimp only
  rw [Bag.frozen_rename]
  cases is_open : (l.heap.get o).bag.frozen with
  | true =>
    refine .bind_ask twins (bare_plain e l d) fun t _ => ?_
    exact .stop rfl rfl twins (Nat.le_refl _) fun _ _ => rfl
  | false =>
    refine .bind_ask twins rfl fun n named => ?_
    have named := Name.of?_of_ofValue named
    have key : Key.of? d.toValue = some n.key := Name.key_of? named
    have renamed : ((l.heap.get o).bag.erase n.key).rename β = ((l.heap.get o).bag.rename β).erase n.key :=
      Bag.erase_rename n.key
    have does : (Effect.erase o d.toValue).after l =
        { l with heap := l.heap.setBag o ((l.heap.get o).bag.erase n.key) } := by
      rw [Effect.after, exec_eraseProperty is_open named]
    have does' : (Effect.erase (β o) d.toValue).after e =
        { e with heap := e.heap.setBag (β o) (((l.heap.get o).bag.erase n.key).rename β) } := by
      rw [Effect.after, exec_eraseProperty (by rw [paired]; exact is_open) named, paired, renamed]
      rfl
    have further := twins.replace twinned does (Datum.below_toValue d) trivial does' (Datum.below_toValue d) trivial
      (fun old => (twins.alike.held o old).erase) values.erase
      (fun key other => Bag.find?_erase_other _ other) fun same => by
        rw [← does']
        exact spared (key.trans (congrArg some same))
    rw [renamed] at further
    exact .ok rfl rfl further (Nat.le_of_eq (size_setBag _ _ _).symm) (fun _ _ => rfl) (Bag.owns_rename n.key)

end Twins

end Plugin

end Overlay
