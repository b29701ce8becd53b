import Mathlib.Data.List.Infix
import Overlay.Proofs.Lockstep
import Overlay.Proofs.Views

/-!
# Making a shadow early

A shadow is made when it is first asked for. Whether it is made before can be seen in one way only: its pseudo-prototype
descends from the `prototype` that the shadow of its super constructor has at the time. As long as that stays the same
for the shadows that wait, the answers of any calls are the same in a run that makes the shadow of a callable early and
in one that does not, up to the positions of the objects that are made. Each kind of call keeps the two runs twins and
gives matching answers (`Twins.call`), and so does a list of calls (`Twins.calls`).
-/

namespace Overlay
set_option autoImplicit false

open Act World Heap

/-- A callable has one line. -/
theorem Host.Line.unique {w : World} {h : HostId} {f : Value} {line other : List Value} (this : Host.Line w h f line)
    (that : Host.Line w h f other) : other = line := by
  induction this generalizing other with
  | top above =>
    cases that with
    | top _ => rfl
    | under above' ancestor _ => exact absurd (Except.ok.inj (above'.symm.trans above)) ancestor
  | under above ancestor _ ih =>
    cases that with
    | top above' => exact absurd (Except.ok.inj (above.symm.trans above')) ancestor
    | under above' _ further =>
      cases above.symm.trans above'
      rw [ih further]

namespace Plugin

variable {w l e : World} {p : PluginId} {P : Value → Prop} {β : ObjId → ObjId} {f g x y : Value} {o : ObjId}

/-! ## Questions about what both worlds have -/

theorem Ahead.sameLinks (ahead : Ahead w p l) : SameLinks w.heap.size w l where
  links := ahead.advances.trail.sameShape.proto
  functions := fun o _ => ahead.functions o
  hosts := ahead.hosts

namespace Twins

/-- Where the late run has a value of old objects, a renaming leaves it alone. -/
theorem rename_eq (twins : Twins w p P β l e) (below : x.Below w.heap.size) : x.rename β = x :=
  below.rename_eq twins.alike.fixed

theorem searchStart (twins : Twins w p P β l e) (h : HostId) (below : x.Below w.heap.size) :
    Host.searchStart e h x = Host.searchStart l h x ∧
      Yields (fun start => ∀ o, start = some o → o < w.heap.size) (Host.searchStart l h x) := by
  have intact := twins.start.intact
  rw [twins.lazy.sameLinks.searchStart intact h below, twins.early.sameLinks.searchStart intact h below]
  exact ⟨rfl, intact.searchStart h below⟩

/-- What is really found from an old value is the same in both worlds, and old. -/
theorem hostSearch (twins : Twins w p P β l e) (h : HostId) (below : x.Below w.heap.size) (name : Value) :
    Host.search e h x name = Host.search l h x name ∧
      Yields (fun found => ∀ y, found = some y → y.Below w.heap.size) (Host.search l h x name) := by
  obtain ⟨same, old⟩ := twins.searchStart h below
  rw [Host.search, Host.search, same]
  cases start : Host.searchStart l h x with
  | error fault => exact ⟨rfl, .error fault⟩
  | ok found =>
    cases found with
    | none => exact ⟨rfl, .ok (by rintro y ⟨⟩)⟩
    | some o =>
      have inside : o < w.heap.size := old _ start o rfl
      cases Key.ofValue name with
      | error fault => exact ⟨rfl, .error fault⟩
      | ok key =>
        constructor
        · exact Heap.search_congr (fun a on => twins.alike.old a (Nat.lt_of_le_of_lt (le_of_mem_path on) inside)) key
        · rintro found answer y rfl
          exact twins.alike.below_of_search inside answer

theorem hostKeys (twins : Twins w p P β l e) (h : HostId) (below : x.Below w.heap.size) :
    Host.enumerableKeys e h x = Host.enumerableKeys l h x := by
  obtain ⟨same, old⟩ := twins.searchStart h below
  rw [Host.enumerableKeys, Host.enumerableKeys, same]
  cases start : Host.searchStart l h x with
  | error fault => rfl
  | ok found =>
    cases found with
    | none => rfl
    | some o =>
      have inside : o < w.heap.size := old _ start o rfl
      have keys := twins.alike.enumerableKeys (.old inside)
      rw [twins.alike.fixed o inside] at keys
      exact keys

/-- The direct constructor of an old value is the same in both worlds, and old. -/
theorem directConstructor (twins : Twins w p P β l e) (h : HostId) (below : x.Below w.heap.size) :
    Host.directConstructor e h x = Host.directConstructor l h x ∧
      Yields (fun ctor => ctor.Below w.heap.size) (Host.directConstructor l h x) := by
  have intact := twins.start.intact
  rw [Host.directConstructor, Host.directConstructor, twins.lazy.sameLinks.prototypeOf intact h below,
    twins.early.sameLinks.prototypeOf intact h below]
  cases answer : Host.prototypeOf w h x with
  | error fault => exact ⟨rfl, .error fault⟩
  | ok proto =>
    have old := intact.prototypeOf h x proto answer
    show Host.ownConstructor e.heap proto = Host.ownConstructor l.heap proto ∧
      Yields (fun ctor => ctor.Below w.heap.size) (Host.ownConstructor l.heap proto)
    unfold Host.ownConstructor
    split
    · exact ⟨rfl, .ok Datum.below_null⟩
    · next o =>
      have inside := Datum.below_obj.1 old
      rw [Heap.owns, twins.alike.old o inside, Heap.owns]
      refine ⟨rfl, .ok ?_⟩
      split
      · exact (twins.alike.held o inside).get
      · exact Datum.below_null
    · exact ⟨rfl, .error _⟩

/-- A twinned object is renamed to an old one just if it is that one. -/
theorem moved_iff (twins : Twins w p P β l e) (twinned : Twinned w.heap.size β l.heap e.heap o) {a : ObjId}
    (old : a < w.heap.size) : β o = a ↔ o = a := by
  have fixed := twins.alike.fixed a old
  constructor
  · intro moved
    exact twins.injective o a (twinned.lt_size twins.size_le) (Nat.lt_of_lt_of_le old twins.size_le)
      (moved.trans fixed.symm)
  · rintro rfl
    exact fixed

theorem inherits (twins : Twins w p P β l e) {a : ObjId} (old : a < w.heap.size)
    (twinned : Twinned w.heap.size β l.heap e.heap o) : e.heap.inherits a (β o) = l.heap.inherits a o := by
  obtain ⟨same, whole, on⟩ := twins.alike.path_old old
  have ancestors : e.heap.ancestors a = l.heap.ancestors a := (List.cons.inj same).2
  have listed : β o ∈ l.heap.ancestors a ↔ o ∈ l.heap.ancestors a := by
    constructor
    · intro there
      rwa [(twins.moved_iff twinned (on _ (List.mem_cons_of_mem a there))).1 rfl]
    · intro here
      rwa [(twins.moved_iff twinned (on _ (List.mem_cons_of_mem a here))).2 rfl]
  rw [Heap.inherits, Heap.inherits, ancestors, Heap.atEnd, Heap.atEnd, whole]
  simp only [List.contains_eq_mem, listed]

/-- An old value descends from an object just if it descends from the twin of it. -/
theorem inheritsFrom (twins : Twins w p P β l e) (h : HostId) (below : x.Below w.heap.size)
    (settled : Settled w.heap.size β l.heap e.heap y) :
    Host.inheritsFrom e h x (y.rename β) = Host.inheritsFrom l h x y := by
  rcases Datum.rename_cases β y with ⟨o, rfl⟩ | ⟨plain, plain'⟩
  · have twinned := settled o rfl
    have host : e.host h = l.host h := by rw [World.host, twins.early.hosts, World.host, twins.lazy.hosts]
    have callable : e.isCallable x = l.isCallable x := by rw [twins.early.isCallable, twins.lazy.isCallable]
    rw [Datum.rename_obj]
    unfold Host.inheritsFrom
    dsimp only
    split
    · next a => exact twins.inherits (Datum.below_obj.1 below) twinned
    · have root : (l.host h).functionPrototype < w.heap.size := by
        rw [World.host, twins.lazy.hosts, ← World.host]
        exact twins.start.intact.roots h _ (by simp [Host.roots])
      have same : ((l.host h).functionPrototype == β o) = ((l.host h).functionPrototype == o) := by
        rw [Bool.eq_iff_iff, beq_iff_eq, beq_iff_eq, eq_comm, twins.moved_iff twinned root, eq_comm]
      rw [callable, host, same, twins.inherits root twinned]
  · have none (v : World) {proto : Value} (plain : ∀ o, proto ≠ .obj o) :
        Host.inheritsFrom v h x proto = .ok false := by
      unfold Host.inheritsFrom
      split
      · next o => exact absurd rfl (plain o)
      · rfl
    rw [none e plain', none l plain]

end Twins

/-! ## Questions of the plugin -/

/-- The value of the early run is that of the late run up to the renaming, and if it is an object it is twinned. -/
def Paired (n : Nat) (γ : ObjId → ObjId) (l e : World) (a b : Value) : Prop :=
  b = a.rename γ ∧ Settled n γ l.heap e.heap a

theorem supplied_other {config : Config} {name : Value} (other : ∀ o, x ≠ .obj o) :
    supplied w config x name = .ok none := by
  unfold supplied
  split
  · next o => exact absurd rfl (other o)
  · rfl

namespace Twins

theorem isCallable (twins : Twins w p P β l e) (x : Value) :
    l.isCallable x = w.isCallable x ∧ e.isCallable x = w.isCallable x :=
  ⟨twins.lazy.isCallable x, twins.early.isCallable x⟩

theorem host (twins : Twins w p P β l e) :
    (l.plugin p).host = (w.plugin p).host ∧ (e.plugin p).host = (w.plugin p).host :=
  ⟨twins.start.host twins.lazy, twins.start.host twins.early⟩

theorem config (twins : Twins w p P β l e) :
    (l.plugin p).config = (w.plugin p).config ∧ (e.plugin p).config = (w.plugin p).config :=
  ⟨twins.lazy.config, twins.early.config⟩

theorem hostHas (twins : Twins w p P β l e) (h : HostId) (below : x.Below w.heap.size) (base : x.isNil = false)
    (name : Value) :
    Matches w p P β l e (Host.has h x name) (Host.has h x name) fun _ l' _ a b => l = l' ∧ b = a := by
  refine .still_same twins (Host.exec_has base name) (Host.exec_has base name) ?_ fun _ _ => ⟨rfl, rfl⟩
  rw [(twins.hostSearch h below name).1]

theorem hostRead (twins : Twins w p P β l e) (h : HostId) (below : x.Below w.heap.size) (base : x.isNil = false)
    (name : Value) : Matches w p P β l e (Host.read h x name) (Host.read h x name) fun γ l' _ a b =>
      b = a.rename γ ∧ a.Below l'.heap.size := by
  obtain ⟨same, old⟩ := twins.hostSearch h below name
  refine .still_same twins (Host.exec_read base name) (Host.exec_read base name) ?_ fun a answer => ?_
  · rw [same]
  · have below : a.Below w.heap.size := by
      refine old.map (fun found inside => ?_) a answer
      cases found with
      | none => exact Datum.below_undefined
      | some y => exact inside y rfl
    exact ⟨(twins.rename_eq below).symm, below.mono twins.size_le⟩

/-- Both runs show the pseudo-prototype of an old value, and the two are twins. -/
theorem pseudoPrototype (twins : Twins w p P β l e) (legible : l.Legible) (below : x.Below w.heap.size) :
    Matches w p P β l e (pseudoPrototype p x) (pseudoPrototype p x) (Paired w.heap.size) := by
  refine .bind_get ?_
  rw [(twins.isCallable x).1, (twins.isCallable x).2]
  split
  · next callable =>
    refine .bind (twins.shadowOf legible callable) fun γ l' e' a b twins related => ?_
    obtain ⟨⟨rfl, s, found, rfl⟩, -⟩ := related
    have both := twins.alike.lookup (twins.shadows x s found).twinned "prototype"
    refine .bind_get (.ask twins both fun a answer => ⟨rfl, fun o value => ?_⟩)
    exact twins.twinned_of_lookup found (value ▸ answer)
  · split
    · next o _ =>
      have inside := Datum.below_obj.1 below
      have both := twins.alike.lookup (.old inside) "prototype"
      rw [twins.alike.fixed o inside] at both
      refine .bind_get (.ask twins both fun a answer => ⟨rfl, fun q value => ?_⟩)
      rw [value] at answer
      have found := Heap.search_of_lookup answer (by rintro ⟨⟩)
      exact .old (Datum.below_obj.1 (twins.alike.below_of_search inside found))
    · exact .pure twins ⟨Datum.rename_undefined.symm, settled_undefined⟩

/-- Both runs find the supplement of an old value, and the two are twins. -/
theorem supplementOf (twins : Twins w p P β l e) (legible : l.Legible) (below : x.Below w.heap.size) :
    Matches w p P β l e (supplementOf p x) (supplementOf p x) (Paired w.heap.size) := by
  refine .bind_get ?_
  rw [(twins.isCallable x).1, (twins.isCallable x).2, twins.host.1, twins.host.2]
  split
  · next callable =>
    refine .bind (twins.shadowOf legible callable) fun γ l' e' a b twins related => ?_
    obtain ⟨⟨rfl, s, found, rfl⟩, -⟩ := related
    refine .pure twins ⟨(Datum.rename_obj _).symm, fun o same => ?_⟩
    cases same
    exact (twins.shadows x s found).twinned
  · obtain ⟨same, old⟩ := twins.directConstructor (w.plugin p).host below
    exact .bind_ask twins same fun ctor answer => twins.pseudoPrototype legible (old ctor answer)

/-- What twinned supplements supply is the same up to the renaming. -/
theorem supplied (twins : Twins w p P β l e) (config : Config) (name : Value)
    (settled : Settled w.heap.size β l.heap e.heap x) :
    Matches w p P β l e (liftM (supplied l config x name)) (liftM (supplied e config (x.rename β) name))
      fun γ l' _ a b => b = a.map (Datum.rename γ) ∧ ∀ y, a = some y → y.Below l'.heap.size := by
  refine .ask twins ?_ fun a answer => ⟨rfl, twins.lazy.intact.supplied config x name a answer⟩
  rcases Datum.rename_cases β x with ⟨o, rfl⟩ | ⟨plain, plain'⟩
  · rw [Datum.rename_obj, Plugin.supplied, Plugin.supplied]
    cases Key.ofValue name with
    | error fault => rfl
    | ok key =>
      show (e.heap.search (β o) key >>= fun found => _) = _ <$> (l.heap.search o key >>= fun found => _)
      rw [twins.alike.search (settled o rfl)]
      cases l.heap.search o key with
      | error fault => rfl
      | ok found =>
        show Except.ok _ = Except.ok _
        split <;> rfl
  · rw [supplied_other plain', supplied_other plain]
    rfl

theorem read (twins : Twins w p P β l e) (legible : l.Legible) (below : x.Below w.heap.size) (base : x.isNil = false)
    (name : Value) :
    Matches w p P β l e (read p x name) (read p x name) fun γ l' _ a b =>
      b = a.rename γ ∧ a.Below l'.heap.size := by
  refine .bind_get ?_
  -- the direct constructor is asked for in the worlds of the start, whatever the questions in between make
  obtain ⟨constructor_eq, old⟩ := twins.directConstructor (w.plugin p).host below
  dsimp only
  rw [(twins.isCallable x).1, (twins.isCallable x).2, twins.host.1, twins.host.2, twins.config.1, twins.config.2]
  split
  · next callable =>
    refine .bind (twins.shadowOf legible callable) fun γ l' e' a b twins related => ?_
    obtain ⟨⟨rfl, s, found, rfl⟩, -⟩ := related
    refine .bind_get (.bind_ask twins rfl fun k _ => ?_)
    have both := twins.alike.lookup (twins.shadows x s found).twinned k
    exact .ask twins both fun a answer => ⟨rfl, twins.lazy.intact.lookup _ k a answer⟩
  · refine .bind (twins.hostHas _ below base name) fun γ l' e' a b twins related => ?_
    obtain ⟨rfl, rfl⟩ := related
    split
    · exact twins.hostRead _ below base name
    · refine .bind_ask twins constructor_eq fun ctor answer => ?_
      refine .bind (twins.pseudoPrototype legible (old ctor answer)) fun γ l' e' a b twins paired => ?_
      obtain ⟨rfl, settled⟩ := paired
      refine .bind_get (.bind (twins.supplied _ name settled) fun γ l' e' a b twins related => ?_)
      obtain ⟨rfl, inside⟩ := related
      cases a with
      | some y => exact .pure twins ⟨rfl, inside y rfl⟩
      | none => exact twins.hostRead _ below base name

theorem suppliedKeys (twins : Twins w p P β l e) (below : x.Below w.heap.size) (base : x.isNil = false)
    (names : List Name) :
    Matches w p P β l e (suppliedKeys p x names) (suppliedKeys p x names) fun _ _ _ a b => b = a := by
  refine .still_same twins (suppliedKeys_still base names) (suppliedKeys_still base names) ?_ fun _ _ => rfl
  rw [twins.host.1, twins.host.2, twins.config.1, twins.config.2]
  simp only [(twins.hostSearch _ below _).1]

theorem keys (twins : Twins w p P β l e) (legible : l.Legible) (below : x.Below w.heap.size)
    (base : x.isNil = false) :
    Matches w p P β l e (keys p x) (keys p x) fun _ _ _ a b => b = a := by
  refine .bind_get (.bind_ask twins ?_ fun own _ => ?_)
  · rw [twins.host.1, twins.host.2, twins.hostKeys _ below]
  · refine .bind (twins.supplementOf legible below) fun γ l' e' a b twins paired => ?_
    obtain ⟨rfl, settled⟩ := paired
    rcases Datum.rename_cases γ a with ⟨o, rfl⟩ | ⟨plain, plain'⟩
    · rw [Datum.rename_obj]
      refine .bind_get (.bind_ask twins (twins.alike.enumerableKeys (settled o rfl)) fun names _ => ?_)
      refine .bind (twins.suppliedKeys below base names) fun γ l' e' a b twins related => ?_
      subst related
      exact .pure twins rfl
    · -- neither supplement is an object
      split
      · next o => exact absurd rfl (plain o)
      · exact .pure twins rfl

theorem canRead (twins : Twins w p P β l e) (legible : l.Legible) (below : x.Below w.heap.size)
    (base : x.isNil = false) (name : Value) :
    Matches w p P β l e (canRead p name x) (canRead p name x) fun _ _ _ a b => b = a := by
  refine .bind_get ?_
  rw [twins.host.1, twins.host.2]
  refine .bind (twins.hostHas _ below base name) fun γ l' e' a b twins related => ?_
  obtain ⟨rfl, rfl⟩ := related
  split
  · exact .pure twins rfl
  · refine .bind (twins.supplementOf legible below) fun γ l' e' a b twins paired => ?_
    obtain ⟨rfl, settled⟩ := paired
    rcases Datum.rename_cases γ a with ⟨o, rfl⟩ | ⟨plain, plain'⟩
    · rw [Datum.rename_obj]
      refine .bind_get (.bind_ask twins rfl fun k _ => ?_)
      exact .ask_same twins (twins.alike.has (settled o rfl) k) fun _ _ => rfl
    · -- neither supplement is an object
      split
      · next o => exact absurd rfl (plain o)
      · exact .pure twins rfl

theorem instanceOf (twins : Twins w p P β l e) (legible : l.Legible) (below : x.Below w.heap.size)
    (below' : f.Below w.heap.size) :
    Matches w p P β l e (instanceOf p x f) (instanceOf p x f) fun _ _ _ a b => b = a := by
  have member : Host.prototypeMember l f = Host.prototypeMember w f ∧
      Host.prototypeMember e f = Host.prototypeMember w f := by
    unfold Host.prototypeMember
    rw [twins.lazy.sameLinks.hostFn? below', twins.early.sameLinks.hostFn? below']
    exact ⟨rfl, rfl⟩
  have old := twins.start.intact.prototypeMember f
  have real : Host.instanceOf e (w.plugin p).host x f = Host.instanceOf l (w.plugin p).host x f := by
    rw [Host.instanceOf, Host.instanceOf, member.1, member.2, ← twins.inheritsFrom _ below (settled_of_below old),
      twins.rename_eq old]
  refine .bind_get ?_
  rw [(twins.isCallable f).1, (twins.isCallable f).2, twins.host.1, twins.host.2]
  refine .bind_ask twins real fun b _ => ?_
  split
  · exact .pure twins rfl
  · refine .bind (twins.pseudoPrototype legible below') fun γ l' e' a b twins paired => ?_
    obtain ⟨rfl, settled⟩ := paired
    refine .bind_get (.ask_same twins ?_ fun _ _ => rfl)
    rw [twins.host.1, twins.host.2, twins.inheritsFrom _ below settled]

end Twins

/-! ## Edits -/

/-- An answer that is made of what an action yields leaves the world as the action does. -/
theorem exec_bind_pure_snd {A B : Type} (act : Act A) (answer : A → B) (w : World) :
    (exec (act >>= fun a => pure (answer a)) w).2 = (exec act w).2 := by
  rw [exec_bind]
  rcases exec act w with ⟨_ | _, v⟩ <;> rfl

/-- What both runs do to an object and to its twin matches, if what waits is spared where the condition holds. -/
def Editing {A : Type} (w : World) (p : PluginId) (P : Value → Prop) (watched : Prop) (act : ObjId → Act A)
    (R : A → A → Prop) : Prop :=
  ∀ β l e o, Twins w p P β l e → Twinned w.heap.size β l.heap e.heap o →
    (l.heap.get o).bag.Holds (Settled w.heap.size β l.heap e.heap) →
    (watched → Spared p l e (exec (act (β o)) e).2) →
    Matches w p P β l e (act o) (act (β o)) fun _ _ _ => R

theorem erasing {name : Value} (plain : name.IsPlain) :
    Editing w p P (Key.of? name = some (.text "prototype")) (eraseProperty · name) fun a b => b = a :=
  fun _ _ _ _ twins twinned values spared => twins.eraseProperty twinned values plain spared

theorem putting {name : Value} (plain : name.IsPlain) (given : y.Below w.heap.size) :
    Editing w p P (Key.of? name = some (.text "prototype")) (fun o => putProperty o name y true >>= fun _ => pure y)
      fun a b => a = y ∧ b = y := by
  intro β l e o twins twinned values spared
  refine .bind (twins.putProperty twinned values plain given true fun key => ?_) fun _ _ _ _ _ twins _ =>
    .pure twins ⟨rfl, rfl⟩
  rw [exec_bind_pure_snd] at spared
  exact spared key

namespace Editing
variable {A : Type} {watched : Prop} {act : ObjId → Act A} {R : A → A → Prop}

/-- Both runs edit the shadow of a callable. -/
theorem shadow (edits : Editing w p P watched act R) (twins : Twins w p P β l e) (legible : l.Legible)
    (callable : w.isCallable x = true) (spared : watched → Spared p l e (exec (shadowOf p x >>= act) e).2) :
    Matches w p P β l e (shadowOf p x >>= act) (shadowOf p x >>= act) fun _ _ _ => R := by
  refine .bind_run (twins.shadowOf legible callable) fun γ l' e' a b _ run twins related => ?_
  obtain ⟨⟨rfl, s, found, rfl⟩, steady⟩ := related
  rw [exec_bind_ok run] at spared
  have shared := twins.shadows x s found
  exact edits γ l' e' _ twins shared.twinned shared.values fun here => steady.spared (spared here)

/-- Both runs edit an old object. -/
theorem old (edits : Editing w p P watched act R) (twins : Twins w p P β l e) (inside : o < w.heap.size)
    (spared : watched → Spared p l e (exec (act o) e).2) :
    Matches w p P β l e (act o) (act o) fun _ _ _ => R := by
  have both := edits β l e o twins (.old inside) fun q listed => settled_of_below (twins.alike.held o inside q listed).2
  rw [twins.alike.fixed o inside] at both
  exact both spared

end Editing

namespace Twins

theorem tagWord (twins : Twins w p P β l e) (x : Value) : e.tagWord x = l.tagWord x := by
  rw [World.tagWord, World.tagWord, typeTag_congr ((twins.isCallable x).2.trans (twins.isCallable x).1.symm)]

theorem write {name : Value} (twins : Twins w p P β l e) (legible : l.Legible) (below : x.Below w.heap.size)
    (base : x.isNil = false) (plain : name.IsPlain) (given : y.Below w.heap.size)
    (spared : Key.of? name = some (.text "prototype") → Spared p l e (exec (write p x name y) e).2) :
    Matches w p P β l e (write p x name y) (write p x name y) fun _ _ _ a b => a = y ∧ b = y := by
  unfold Plugin.write at spared
  rw [exec_get_bind, (twins.isCallable x).2] at spared
  refine .bind_get ?_
  rw [(twins.isCallable x).1, (twins.isCallable x).2]
  split
  · next callable =>
    rw [if_pos callable] at spared
    exact (putting plain given).shadow twins legible callable spared
  · next refused =>
    rw [if_neg refused] at spared
    unfold Host.put at spared
    rw [exec_get_bind, Host.checkBase_of_base base, exec_lift_ok_bind] at spared
    refine .bind_get (.bind_ask twins ?_ fun _ _ => ?_)
    · rw [Host.checkBase_of_base base, Host.checkBase_of_base base]
    · split
      · exact (putting plain given).old twins (Datum.below_obj.1 below) spared
      · obtain ⟨d, rfl⟩ := plain
        refine .bind_ask twins (bare_plain e l d) fun t _ => ?_
        rw [twins.tagWord]
        exact .stop rfl rfl twins (Nat.le_refl _) fun _ _ => rfl

theorem remove {name : Value} (twins : Twins w p P β l e) (legible : l.Legible) (below : x.Below w.heap.size)
    (base : x.isNil = false) (plain : name.IsPlain)
    (spared : Key.of? name = some (.text "prototype") → Spared p l e (exec (remove p x name) e).2) :
    Matches w p P β l e (remove p x name) (remove p x name) fun _ _ _ a b => b = a := by
  unfold Plugin.remove at spared
  rw [exec_get_bind, (twins.isCallable x).2] at spared
  refine .bind_get ?_
  rw [(twins.isCallable x).1, (twins.isCallable x).2]
  split
  · next callable =>
    rw [if_pos callable] at spared
    exact (erasing plain).shadow twins legible callable spared
  · next refused =>
    rw [if_neg refused] at spared
    unfold Host.delete at spared
    rw [exec_get_bind, Host.checkBase_of_base base, exec_lift_ok_bind] at spared
    refine .bind_get (.bind_ask twins ?_ fun _ _ => ?_)
    · rw [Host.checkBase_of_base base, Host.checkBase_of_base base]
    · split
      · exact (erasing plain).old twins (Datum.below_obj.1 below) spared
      · exact .pure twins rfl

end Twins

/-! ## Calls -/

/-- What a call answers. -/
inductive Answer where
  | value (x : Value)
  | flag (b : Bool)
  | names (names : List Name)
  deriving DecidableEq

/-- The answer with all objects renamed that it refers to. -/
def Answer.rename (β : ObjId → ObjId) : Answer → Answer
  | .value x => .value (x.rename β)
  | answer => answer

/-- The answer refers to objects among the first `n` only. -/
def Answer.Below (n : Nat) : Answer → Prop
  | .value x => x.Below n
  | _ => True

theorem Answer.Below.rename_congr {n : Nat} {γ : ObjId → ObjId} {a : Answer} (below : a.Below n)
    (agree : ∀ o, o < n → β o = γ o) : a.rename β = a.rename γ := by
  cases a with
  | value x => exact congrArg Answer.value (Datum.Below.rename_congr below agree)
  | flag _ => rfl
  | names _ => rfl

/-- One use of the access protocol. -/
inductive Call where
  | read (x name : Value)
  | write (x name y : Value)
  | remove (x name : Value)
  | keys (x : Value)
  | canRead (name x : Value)
  | instanceOf (x f : Value)

namespace Call

def run (p : PluginId) : Call → Act Answer
  | read x name => do return .value (← Plugin.read p x name)
  | write x name y => do return .value (← Plugin.write p x name y)
  | remove x name => do return .flag (← Plugin.remove p x name)
  | keys x => do return .names (← Plugin.keys p x)
  | canRead name x => do return .flag (← Plugin.canRead p name x)
  | instanceOf x f => do return .flag (← Plugin.instanceOf p x f)

/-- The world in which a call ends, whether it stops or not. -/
def after (p : PluginId) (w : World) (c : Call) : World :=
  (exec (c.run p) w).2

/-- What the call is about has properties, and all objects that it is given are among the first `n`. The name of a
member to be set or removed is data. -/
def Given (n : Nat) : Call → Prop
  | read x _ | keys x | canRead _ x => x.Below n ∧ x.isNil = false
  | write x name y => (x.Below n ∧ x.isNil = false) ∧ name.IsPlain ∧ y.Below n
  | remove x name => (x.Below n ∧ x.isNil = false) ∧ name.IsPlain
  | instanceOf x f => x.Below n ∧ f.Below n

/-- The key of the member that the call sets or removes. -/
def key? : Call → Option Key
  | write _ name _ | remove _ name => Key.of? name
  | _ => none

end Call

/-- The answers of some calls, each made where the one before it ended, whether it stopped or not. -/
def answers (p : PluginId) : List Call → World → List (Except Fault Answer)
  | [], _ => []
  | c :: rest, w => (exec (c.run p) w).1 :: answers p rest (c.after p w)

namespace Twins

/-- What a call answers in both runs is the same up to the renaming. -/
theorem call (twins : Twins w p P β l e) (legible : l.Legible) {c : Call} (given : c.Given w.heap.size)
    (spared : c.key? = some (.text "prototype") → Spared p l e (c.after p e)) :
    Matches w p P β l e (c.run p) (c.run p) fun γ l' _ a b => b = a.rename γ ∧ a.Below l'.heap.size := by
  cases c with
  | read x name =>
    obtain ⟨below, base⟩ := given
    refine .bind (twins.read legible below base name) fun γ l' e' a b twins related => ?_
    obtain ⟨rfl, inside⟩ := related
    exact .pure twins ⟨rfl, inside⟩
  | write x name y =>
    obtain ⟨⟨below, base⟩, plain, there⟩ := given
    rw [Call.after, Call.run, exec_bind_pure_snd] at spared
    refine .bind (twins.write legible below base plain there spared) fun γ l' e' a b twins related => ?_
    obtain ⟨rfl, rfl⟩ := related
    exact .pure twins ⟨congrArg Answer.value (twins.rename_eq there).symm, Datum.Below.mono twins.size_le there⟩
  | remove x name =>
    obtain ⟨⟨below, base⟩, plain⟩ := given
    rw [Call.after, Call.run, exec_bind_pure_snd] at spared
    refine .bind (twins.remove legible below base plain spared) fun γ l' e' a b twins related => ?_
    exact .pure twins ⟨congrArg Answer.flag related, trivial⟩
  | keys x =>
    obtain ⟨below, base⟩ := given
    refine .bind (twins.keys legible below base) fun γ l' e' a b twins related => ?_
    exact .pure twins ⟨congrArg Answer.names related, trivial⟩
  | canRead name x =>
    obtain ⟨below, base⟩ := given
    refine .bind (twins.canRead legible below base name) fun γ l' e' a b twins related => ?_
    exact .pure twins ⟨congrArg Answer.flag related, trivial⟩
  | instanceOf x f =>
    obtain ⟨below, below'⟩ := given
    refine .bind (twins.instanceOf legible below below') fun γ l' e' a b twins related => ?_
    exact .pure twins ⟨congrArg Answer.flag related, trivial⟩

end Twins

/-- No call that sets or removes a `prototype` changes, in the early run, what the pseudo-prototype of a callable would
descend from that is `f` or an ancestor of it and has no shadow in the late run yet. -/
def Undisturbed (p : PluginId) (f : Value) : World → World → List Call → Prop
  | _, _, [] => True
  | l, e, c :: rest =>
    (c.key? = some (.text "prototype") → ∀ g, Missing l p f g → descent (c.after p e) p g = descent e p g) ∧
      Undisturbed p f (c.after p l) (c.after p e) rest

/-- Calls that do not disturb what waits keep the runs twins and have the same answers, up to the renaming, as long as
texts can be written in the late run. -/
theorem Twins.calls {calls : List Call} (twins : Twins w p (Missing w p f) β l e) (callable : w.isCallable f = true)
    (given : ∀ c ∈ calls, c.Given w.heap.size)
    (legible : ∀ done, done <+: calls → (done.foldl (Call.after p) l).Legible) (undisturbed : Undisturbed p f l e calls) :
    ∃ γ, Twins w p (Missing w p f) γ (calls.foldl (Call.after p) l) (calls.foldl (Call.after p) e) ∧
      (∀ o, o < l.heap.size → γ o = β o) ∧
      answers p calls e = (answers p calls l).map (Answer.rename γ <$> ·) := by
  -- a renaming of later worlds agrees with this one on the objects that the answers so far refer to
  induction calls generalizing β l e with
  | nil => exact ⟨β, twins, fun _ _ => rfl, rfl⟩
  | cons c rest ih =>
    obtain ⟨here, later⟩ := undisturbed
    have spared (key : c.key? = some (.text "prototype")) : Spared p l e (c.after p e) := by
      intro g absent waits
      obtain ⟨s, found⟩ := Option.isSome_iff_exists.1 waits
      obtain ⟨-, line, above, listed⟩ := (twins.pending g s absent found).1
      exact here key g ⟨absent, line, twins.start.line twins.lazy callable above, listed⟩
    have next {γ : ObjId → ObjId} {l' e' : World} {a b : Except Fault Answer} (run : exec (c.run p) l = (a, l'))
        (run' : exec (c.run p) e = (b, e')) (twins : Twins w p (Missing w p f) γ l' e')
        (size : l.heap.size ≤ l'.heap.size) (agree : ∀ o, o < l.heap.size → γ o = β o)
        (related : ∀ δ : ObjId → ObjId, (∀ o, o < l'.heap.size → δ o = γ o) → b = Answer.rename δ <$> a) :
        ∃ γ, Twins w p (Missing w p f) γ ((c :: rest).foldl (Call.after p) l) ((c :: rest).foldl (Call.after p) e) ∧
          (∀ o, o < l.heap.size → γ o = β o) ∧
          answers p (c :: rest) e = (answers p (c :: rest) l).map (Answer.rename γ <$> ·) := by
      have after : c.after p l = l' := congrArg Prod.snd run
      have after' : c.after p e = e' := congrArg Prod.snd run'
      have legible' (done : List Call) (part : done <+: rest) : (done.foldl (Call.after p) l').Legible := by
        rw [← after]
        exact legible (c :: done) (List.cons_prefix_cons.2 ⟨rfl, part⟩)
      rw [after, after'] at later
      obtain ⟨δ, further, agree', same⟩ :=
        ih twins (fun d listed => given d (List.mem_cons_of_mem c listed)) legible' later
      refine ⟨δ, ?_, fun o inside => ?_, ?_⟩
      · rw [List.foldl_cons, List.foldl_cons, after, after']
        exact further
      · exact (agree' o (Nat.lt_of_lt_of_le inside size)).trans (agree o inside)
      · rw [answers, answers, after, after', same, List.map_cons, run, run', related δ agree']
    cases twins.call (legible [] List.nil_prefix) (given c List.mem_cons_self) spared with
    | stop run run' twins size agree => exact next run run' twins size agree fun _ _ => rfl
    | ok run run' twins size agree related =>
      obtain ⟨rfl, inside⟩ := related
      exact next run run' twins size agree fun δ agree' =>
        congrArg Except.ok (inside.rename_congr fun o below => (agree' o below).symm)

/-- A world that is reached by definitions is ahead of itself. -/
theorem ahead_of_reachable
    (reachable : ReachableUnder (fun u d => d.Given False u ∧ d.Within (.definitions fun _ => True)) w)
    (bound : p < w.plugins.size) : Ahead w p w where
  bound := bound
  advances := .refl reachable.reachable.sound
  ancestral := reachable.ancestral fun _ _ allowed => allowed.2
  closed := reachable.closed (fun _ _ allowed => allowed.2) bound
  intact := (reachable.loosen fun _ _ allowed => allowed.1).intact
  settings := ⟨fun _ => rfl, fun _ => rfl, fun _ => rfl, rfl⟩
  logging := rfl
  functions := fun _ => rfl
  hosts := rfl
  fresh := fun _ _ found => .inl found

/-- Where all host functions come with a host or by definition, and there is no log or texts of host functions can be
written, asking for the shadow of a callable gives it, and cannot be noticed. All calls that come after it have the
answers that they have without it, up to a renaming that leaves alone the objects that were there and takes no two
objects that are made to one place, as long as texts can be written in the run without it, and no call changes the
`prototype` that a shadow would descend from which that run has yet to make. -/
theorem early_shadow_unnoticed
    (reachable : ReachableUnder (fun u d => d.Given False u ∧ d.Within (.definitions fun _ => True)) w)
    (bound : p < w.plugins.size) (legible : w.Legible) (callable : w.isCallable f = true) :
    ∃ s e, exec (shadowOf p f) w = (.ok s, e) ∧
      ∀ calls : List Call, (∀ c ∈ calls, c.Given w.heap.size) →
        (∀ done, done <+: calls → (done.foldl (Call.after p) w).Legible) → Undisturbed p f w e calls →
        ∃ γ : ObjId → ObjId, (∀ o, o < w.heap.size → γ o = o) ∧
          (∀ a b, a < (calls.foldl (Call.after p) w).heap.size → b < (calls.foldl (Call.after p) w).heap.size →
            γ a = γ b → a = b) ∧
          answers p calls e = (answers p calls w).map (Answer.rename γ <$> ·) := by
  obtain ⟨s, e, run, twins⟩ := Twins.part (ahead_of_reachable reachable bound) legible callable
  refine ⟨s, e, run, fun calls given throughout undisturbed => ?_⟩
  obtain ⟨γ, further, agree, same⟩ := twins.calls callable given throughout undisturbed
  exact ⟨γ, agree, further.injective, same⟩

/-- The effects that make a family, an instance of its second constructor, an object with a member, and a constructor
outside the family. -/
def markedFamily : List Effect :=
  Effect.family ++ [.newObject (.obj 18) [], .newObject .null [(Name.ofText "marker", .str "found")],
    .defineConstructor 0 { name := .str "Other" } .null .null [] []]

theorem markedFamily_given :
    ReachableUnder (fun u d => d.Given False u ∧ d.Within (.definitions fun _ => True))
      (World.after markedFamily) := by
  refine ReachableUnder.loosen (reachableUnder_of_allowed ((Effect.family_lawful fun _ => True).append
    ⟨⟨⟨Datum.below_obj.2 ?_, nofun, fun _ => .inr ⟨18, rfl⟩⟩, .inl trivial⟩,
      ⟨⟨Datum.below_null, ?_, fun _ => .inl rfl⟩, .inl trivial⟩,
      ⟨⟨⟨Datum.below_str, Datum.below_null, Datum.below_null⟩, Datum.below_null, Datum.below_null, nofun, nofun⟩,
        nofun, nofun⟩, trivial⟩)) fun u d allowed => ⟨allowed.1.given, allowed.2⟩
  · decide +kernel
  · intro m listed
    cases List.mem_singleton.1 listed
    exact ⟨Datum.below_str, Datum.below_str⟩

/-- The first constructor of a family gets another `prototype`, and a member of an instance of the second one is
read. -/
def rebasing : List Call :=
  [.write (.obj 17) (.str "prototype") (.obj 21), .read (.obj 20) (.str "marker")]

theorem rebasing_given {n : Nat} (inside : 21 < n) : ∀ c ∈ rebasing, c.Given n := by
  have below (o : ObjId) (less : o ≤ 21) : (Datum.obj o).Below n := Datum.below_obj.2 (Nat.lt_of_le_of_lt less inside)
  intro c listed
  simp only [rebasing, List.mem_cons, List.not_mem_nil, or_false] at listed
  rcases listed with rfl | rfl
  · exact ⟨⟨below 17 (by decide), rfl⟩, ⟨.str "prototype", by rw [Datum.toValue, Datum.mapRefs]⟩, below 21 (by decide)⟩
  · exact ⟨below 20 (by decide), rfl⟩

/-- The shadows of the stranger and of the second constructor are asked for. -/
def asking : List Call :=
  [.read (.obj 23) (.str "prototype"), .read (.obj 19) (.str "prototype")]

/-- Both runs ask for the shadow of the second constructor, one of them after that of a stranger, before the first
constructor gets another `prototype`. -/
theorem early_shadow_unnoticed_rebased : ∃ w s e,
    ReachableUnder (fun u d => d.Given False u ∧ d.Within (.definitions fun _ => True)) w ∧ 0 < w.plugins.size ∧
    w.Legible ∧ w.isCallable (.obj 19) = true ∧ exec (shadowOf 0 (.obj 19)) w = (.ok s, e) ∧
    (∀ c ∈ asking ++ rebasing, c.Given w.heap.size) ∧
    (∀ done, done <+: asking ++ rebasing → (done.foldl (Call.after 0) w).Legible) ∧
    Undisturbed 0 (.obj 19) w e (asking ++ rebasing) ∧
    answers 0 (asking ++ rebasing) w =
      [.ok (.value (.obj 25)), .ok (.value (.obj 29)), .ok (.value (.obj 21)), .ok (.value .undefined)] ∧
    ∃ γ : ObjId → ObjId, (∀ o, o < w.heap.size → γ o = o) ∧ answers 0 (asking ++ rebasing) e =
      [.ok (.value (.obj (γ 25))), .ok (.value (.obj (γ 29))), .ok (.value (.obj 21)), .ok (.value .undefined)] := by
  let w := World.after markedFamily
  let e := (exec (shadowOf 0 (.obj 19)) w).2
  let l := asking.foldl (Call.after 0) w
  have reachable : ReachableUnder (fun u d => d.Given False u ∧ d.Within (.definitions fun _ => True)) w :=
    markedFamily_given
  have facts : 0 < w.plugins.size ∧
      (∀ done ∈ (asking ++ rebasing).inits, (done.foldl (Call.after 0) w).logging = false) ∧
      w.isCallable (.obj 19) = true ∧ w.heap.size = 24 ∧
      (answers 0 (asking ++ rebasing) w).map Except.toOption =
        [.value (.obj 25), .value (.obj 29), .value (.obj 21), .value .undefined].map some ∧
      (∀ o ∈ [19, 17, 3], (shadow? l 0 (.obj o)).isSome = true) ∧
      (Host.superConstructor l (l.plugin 0).host (.obj 19)).toOption = some (.obj 17) ∧
      (Host.superConstructor l (l.plugin 0).host (.obj 17)).toOption = some (.obj 3) ∧
      (Host.superConstructor l (l.plugin 0).host (.obj 3)).toOption = some .null := by
    decide +kernel
  have undisturbed : (∀ g, ¬ Missing l 0 (.obj 19) g) → Undisturbed 0 (.obj 19) w e (asking ++ rebasing) :=
    fun complete => ⟨by rintro ⟨⟩, by rintro ⟨⟩, fun _ g missing => absurd missing (complete g), by rintro ⟨⟩, trivial⟩
  have ran : (exec (shadowOf 0 (.obj 19)) w).2 = e := rfl
  clear_value l e w
  obtain ⟨bound, silent, callable, size, late, known, first, second, third⟩ := facts
  have throughout (done : List Call) (part : done <+: asking ++ rebasing) : (done.foldl (Call.after 0) w).Legible :=
    fun logs => absurd ((silent done ((List.mem_inits _ _).2 part)).symm.trans logs) Bool.false_ne_true
  have legible : w.Legible := throughout [] List.nil_prefix
  have late : answers 0 (asking ++ rebasing) w =
      [.ok (.value (.obj 25)), .ok (.value (.obj 29)), .ok (.value (.obj 21)), .ok (.value .undefined)] :=
    eq_ok_of_toOptions late
  have complete (g : Value) : ¬ Missing l 0 (.obj 19) g := by
    rintro ⟨absent, line, from_second, listed⟩
    have lineage : Host.Line l (l.plugin 0).host (.obj 19) [.obj 19, .obj 17, .obj 3] :=
      .under (eq_ok_of_toOption first) (by rintro ⟨⟩) (.under (eq_ok_of_toOption second) (by rintro ⟨⟩)
        (.top (eq_ok_of_toOption third)))
    rw [lineage.unique from_second] at listed
    obtain ⟨o, among, rfl⟩ := List.mem_map.1 (show g ∈ [19, 17, 3].map Datum.obj from listed)
    have there := known o among
    rw [absent] at there
    cases there
  obtain ⟨s, e', run, unnoticed⟩ := early_shadow_unnoticed reachable bound legible callable
  obtain rfl : e' = e := by rw [← ran, run]
  have given : ∀ c ∈ asking ++ rebasing, c.Given w.heap.size := by
    intro c listed
    rcases List.mem_append.1 listed with here | later
    · simp only [asking, List.mem_cons, List.not_mem_nil, or_false] at here
      rcases here with rfl | rfl
      · exact ⟨Datum.below_obj.2 (by rw [size]; decide), rfl⟩
      · exact ⟨Datum.below_obj.2 (by rw [size]; decide), rfl⟩
    · exact rebasing_given (by rw [size]; decide) c later
  obtain ⟨γ, fixed, -, same⟩ := unnoticed _ given throughout (undisturbed complete)
  refine ⟨w, s, e', reachable, bound, legible, callable, run, given, throughout, undisturbed complete, late, γ, fixed, ?_⟩
  rw [same, late]
  simp only [List.map_cons, List.map_nil, Functor.map, Except.map, Answer.rename, Datum.rename_obj,
    Datum.rename_undefined, fixed 21 (by rw [size]; decide)]

/-- A member of the first constructor is read. -/
def probing : List Call :=
  [.read (.obj 17) (.str "a")]

/-- Where the first constructor gets another `prototype` before the shadow of the second one is made, a member of it is
found through an instance of the second one; where the shadow was made early, it is not. With a log, and for a
constructor whose name is nested too deep for a text, reading a member stops where the shadow is to be made and does not
where asking for the shadow has stopped before. -/
theorem early_shadow_noticed :
    (∃ w s e, ReachableUnder (fun u d => d.Given False u ∧ d.Within (.definitions fun _ => True)) w ∧
      0 < w.plugins.size ∧ w.logging = false ∧ w.isCallable (.obj 19) = true ∧
      exec (shadowOf 0 (.obj 19)) w = (.ok s, e) ∧ (∀ c ∈ rebasing, c.Given w.heap.size) ∧
      answers 0 rebasing w = [.ok (.value (.obj 21)), .ok (.value (.str "found"))] ∧
      answers 0 rebasing e = [.ok (.value (.obj 21)), .ok (.value .undefined)]) ∧
    ∃ w fault e stop, ReachableUnder (fun u d => d.Given False u ∧ d.Within (.definitions fun _ => True)) w ∧
      0 < w.plugins.size ∧ w.isCallable (.obj 17) = true ∧ exec (shadowOf 0 (.obj 17)) w = (.error fault, e) ∧
      (∀ c ∈ probing, c.Given w.heap.size) ∧ Undisturbed 0 (.obj 17) w e probing ∧
      answers 0 probing w = [.error stop] ∧ answers 0 probing e = [.ok (.value .undefined)] := by
  constructor
  · let w := World.after markedFamily
    let e := (exec (shadowOf 0 (.obj 19)) w).2
    have reachable : ReachableUnder (fun u d => d.Given False u ∧ d.Within (.definitions fun _ => True)) w :=
      markedFamily_given
    have facts : 0 < w.plugins.size ∧ w.logging = false ∧ w.isCallable (.obj 19) = true ∧ 21 < w.heap.size ∧
        (exec (shadowOf 0 (.obj 19)) w).1.toOption = some 26 ∧
        (answers 0 rebasing w).map Except.toOption = [.value (.obj 21), .value (.str "found")].map some ∧
        (answers 0 rebasing e).map Except.toOption = [.value (.obj 21), .value .undefined].map some := by
      decide +kernel
    have run : exec (shadowOf 0 (.obj 19)) w = ((exec (shadowOf 0 (.obj 19)) w).1, e) := (Prod.eta _).symm
    clear_value e w
    obtain ⟨bound, silent, callable, inside, made, late, early⟩ := facts
    rw [eq_ok_of_toOption made] at run
    exact ⟨w, 26, e, reachable, bound, silent, callable, run, rebasing_given inside, eq_ok_of_toOptions late,
      eq_ok_of_toOptions early⟩
  · let w := Effect.unnamableFamily.foldl Effect.after { World.initial with logging := true }
    let e := (exec (shadowOf 0 (.obj 17)) w).2
    have reachable : ReachableUnder (fun u d => d.Given False u ∧ d.Within (.definitions fun _ => True)) w :=
      Effect.unnamableFamily_reachable False
    have facts : 0 < w.plugins.size ∧ w.isCallable (.obj 17) = true ∧ 17 < w.heap.size ∧
        ¬ Answered (exec (shadowOf 0 (.obj 17)) w).1 ∧
        ¬ Answered (exec ((Call.read (.obj 17) (.str "a")).run 0) w).1 ∧
        (answers 0 probing e).map Except.toOption = [.value .undefined].map some := by
      decide +kernel
    have run : exec (shadowOf 0 (.obj 17)) w = ((exec (shadowOf 0 (.obj 17)) w).1, e) := (Prod.eta _).symm
    clear_value e w
    obtain ⟨bound, callable, inside, unmade, late, early⟩ := facts
    obtain ⟨fault, stopped⟩ := Answered.exists_error unmade
    obtain ⟨stop, unread⟩ := Answered.exists_error late
    rw [stopped] at run
    have given : ∀ c ∈ probing, c.Given w.heap.size := by
      intro c listed
      cases List.mem_singleton.1 listed
      exact ⟨Datum.below_obj.2 inside, rfl⟩
    refine ⟨w, fault, e, stop, reachable, bound, callable, run, given, ⟨by rintro ⟨⟩, trivial⟩, ?_,
      eq_ok_of_toOptions early⟩
    rw [probing, answers, answers, unread]

end Plugin

end Overlay
