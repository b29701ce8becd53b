import Overlay.Proofs.Keeping
import Overlay.Proofs.Raising

/-!
# Texts that can be written

A shadow is made with a line to the log, and the line shows host functions by their `name` members, which may be any
values. Whether the text of a value can be written depends on the objects that the value refers to. A world that shows
no more of these objects than another one (`World.ShowsLess`) can write all the texts that the other one can. Asking
for a shadow leaves such a world, so it gives the shadow wherever the texts of host functions can be written. A name
nested too deep has no text (`Effect.unnamableFamily`), and where a log is kept the shadow's line cannot be written.
-/

namespace Overlay
set_option autoImplicit false

open Act World

namespace World
variable {strict : Prop} {w v : World} {n : Nat} {describe describe' : Value → Except Fault Text}

/-- What texts show of plugins and tables is the same in both worlds: the settings, roots and outer bindings of each
plugin, and the tables. -/
structure SameSettings (w v : World) : Prop where
  config : ∀ p, (v.plugin p).config = (w.plugin p).config
  roots : ∀ p, (v.plugin p).roots = (w.plugin p).roots
  outers : ∀ p, (v.plugin p).outers = (w.plugin p).outers
  tables : v.tables = w.tables

theorem SameSettings.symm (same : SameSettings w v) : SameSettings v w :=
  ⟨fun p => (same.config p).symm, fun p => (same.roots p).symm, fun p => (same.outers p).symm, same.tables.symm⟩

theorem SameSettings.trans {u : World} (near : SameSettings u v) (far : SameSettings v w) : SameSettings u w :=
  ⟨fun p => (far.config p).trans (near.config p), fun p => (far.roots p).trans (near.roots p),
    fun p => (far.outers p).trans (near.outers p), far.tables.trans near.tables⟩

/-- What the first `n` objects hold and what plugins show refers to these objects only. -/
structure Contained (n : Nat) (w : World) : Prop where
  held : ∀ o, o < n → (w.heap.get o).bag.Below n
  roots : ∀ p, Emulation.Inside n (w.plugin p).roots
  outers : ∀ p, (w.plugin p).outers.Below n

theorem Intact.contained (intact : w.Intact strict) : w.Contained w.heap.size :=
  ⟨fun o _ => (intact.objects o).bag, fun p => Emulation.inside_roots intact p, intact.outers⟩

/-- The second world shows no more than the first: each of the first `n` objects as it was or, where it is no host
function, with members that it had. -/
structure ShowsLess (n : Nat) (w v : World) : Prop where
  objects : ∀ o, o < n → v.heap.get o = w.heap.get o ∨
    (w.heap.get o).host = none ∧ (v.heap.get o).host = none ∧ (v.heap.get o).bag.props ⊆ (w.heap.get o).bag.props
  settings : SameSettings w v

/-- Every value of `n` objects that the first way can write the text of, the second can. -/
def Writes (n : Nat) (describe describe' : Value → Except Fault Text) : Prop :=
  ∀ x : Value, x.Below n → Answered (describe x) → Answered (describe' x)

theorem Writes.bareBy (writes : Writes n describe describe') {x : Value} (below : x.Below n)
    (shown : Answered (bareBy describe x)) : Answered (World.bareBy describe' x) := by
  unfold World.bareBy at shown ⊢
  split
  · exact .ok _
  · next other =>
    split at shown
    · next s => exact absurd rfl (other s)
    · exact writes x below shown

theorem Writes.members {props props' : List Property} (writes : Writes n describe describe')
    (below : ∀ q ∈ props, q.name.value.Below n ∧ q.value.Below n) (fewer : props' ⊆ props)
    (shown : Answered ((props.filter fun q => q.enumerable && !isObject q.value).mapM (shownMember describe))) :
    Answered ((props'.filter fun q => q.enumerable && !isObject q.value).mapM (shownMember describe')) := by
  have parts {d : Value → Except Fault Text} (q : Property) :
      Answered (shownMember d q) ↔ Answered (World.bareBy d q.name.value) ∧ Answered (d q.value) :=
    Answered.bind_iff fun _ => Answered.bind_ok_iff
  rw [Answered.mapM_iff] at shown ⊢
  intro q listed
  obtain ⟨here, visible⟩ := List.mem_filter.1 listed
  obtain ⟨name, value⟩ := (parts q).1 (shown q (List.mem_filter.2 ⟨fewer here, visible⟩))
  obtain ⟨name_in, value_in⟩ := below q (fewer here)
  exact (parts q).2 ⟨writes.bareBy name_in name, writes _ value_in value⟩

/-- The text of an object that shows no more than it did can be written if it could be. -/
theorem Writes.object {o : ObjId} (writes : Writes n describe describe') (less : ShowsLess n w v)
    (contained : w.Contained n) (there : o < n)
    (shown : Answered (w.describeObject describe (w.heap.get o))) :
    Answered (v.describeObject describe' (v.heap.get o)) := by
  have below := contained.held o there
  cases kind : (w.heap.get o).host with
  | none =>
    have plain {u : World} {d : Value → Except Fault Text} {x : Obj} (plain : x.host = none) :
        Answered (u.describeObject d x) ↔
          Answered ((x.bag.props.filter fun q => q.enumerable && !isObject q.value).mapM (shownMember d)) := by
      rw [describeObject, plain]
      exact Answered.bind_ok_iff
    rcases less.objects o there with same | ⟨-, kind', fewer⟩
    · rw [same, plain kind]
      exact writes.members below (List.Subset.refl _) ((plain kind).1 shown)
    · exact (plain kind').2 (writes.members below fewer ((plain kind).1 shown))
  | some fn =>
    have same : v.heap.get o = w.heap.get o := by
      rcases less.objects o there with same | ⟨none, -⟩
      · exact same
      · cases kind.symm.trans none
    let name := ((w.heap.get o).bag.find? "name").elim (.str "") (·.value)
    have named {u : World} {d : Value → Except Fault Text} :
        Answered (u.describeObject d (w.heap.get o)) ↔ Answered (u.shownName d name) := by
      rw [describeObject, kind]
      exact Answered.bind_ok_iff
    have name_in : name.Below n := by
      cases found : (w.heap.get o).bag.find? "name" with
      | none => simp only [name, found, Option.elim_none, Datum.below_str]
      | some q =>
        simp only [name, found, Option.elim_some]
        exact (below q (List.mem_of_find?_eq_some found)).2
    -- whether a table is empty, and so whether it is shown as a name, is the same in both worlds
    have truthy : v.isTruthy name = w.isTruthy name := by
      unfold isTruthy World.table
      rw [less.settings.tables]
    rw [same, named, shownName, truthy]
    rw [named, shownName] at shown
    split
    · next shows =>
      rw [if_pos shows] at shown
      exact writes.bareBy name_in shown
    · exact .ok _

theorem Writes.plugin {p : PluginId} (writes : Writes n describe describe') (less : ShowsLess n w v)
    (contained : w.Contained n) (shown : Answered (describePlugin describe (w.plugin p))) :
    Answered (describePlugin describe' (v.plugin p)) := by
  have settings {d : Value → Except Fault Text} (c : Config) : Answered (describeConfig d c) ↔
      (∀ x ∈ c.coercionMembers, Answered (d x.toValue)) ∧ (∀ x ∈ c.hiddenNames, Answered (d x.toValue)) ∧
        Answered (d c.constructorText.toValue) := by
    refine (Answered.bind_iff fun _ => Answered.bind_iff fun _ => Answered.bind_ok_iff).trans ?_
    rw [Answered.map_iff, Answered.map_iff, Answered.mapM_iff, Answered.mapM_iff]
  have roots {d : Value → Except Fault Text} (r : Roots) : Answered (describeRoots d r) ↔
      Answered (d (.obj r.objectPrototype)) ∧ Answered (d (.obj r.functionPrototype)) ∧
        Answered (d (.obj r.function)) ∧ Answered (d (.obj r.objectShadow)) :=
    Answered.bind_iff fun _ => Answered.bind_iff fun _ => Answered.bind_iff fun _ => Answered.bind_ok_iff
  have parts {d : Value → Except Fault Text} (x : Plugin) : Answered (describePlugin d x) ↔
      Answered (describeConfig d x.config) ∧ Answered (describeRoots d x.roots) ∧ Answered (d x.outers) :=
    Answered.bind_iff fun _ => Answered.bind_iff fun _ => Answered.bind_ok_iff
  obtain ⟨object_in, function_in, ctor_in, shadow_in⟩ := contained.roots p
  rw [parts, settings, roots] at shown
  obtain ⟨⟨coercion, hidden, source⟩, ⟨object, function, ctor, shadow⟩, outers⟩ := shown
  rw [parts, less.settings.config, less.settings.roots, less.settings.outers]
  refine ⟨(settings _).2 ⟨fun x listed => ?_, fun x listed => ?_, ?_⟩, (roots _).2 ⟨?_, ?_, ?_, ?_⟩, ?_⟩
  · exact writes _ (Datum.below_toValue x) (coercion x listed)
  · exact writes _ (Datum.below_toValue x) (hidden x listed)
  · exact writes _ (Datum.below_toValue _) source
  · exact writes _ (Datum.below_obj.2 object_in) object
  · exact writes _ (Datum.below_obj.2 function_in) function
  · exact writes _ (Datum.below_obj.2 ctor_in) ctor
  · exact writes _ (Datum.below_obj.2 shadow_in) shadow
  · exact writes _ (contained.outers p) outers

/-- A world that shows no more can write the texts that could be written, on as many levels. -/
theorem ShowsLess.writes (less : ShowsLess n w v) (contained : w.Contained n) (fuel : Nat) (inside : Surroundings) :
    Writes n (w.describeWithin fuel inside) (v.describeWithin fuel inside) := by
  -- objects and plugins take three levels at once
  induction fuel using Nat.strongRecOn generalizing inside with
  | ind fuel ih =>
    intro x below shown
    cases fuel with
    | zero => exact absurd shown (Answered.not_error _)
    | succ fuel =>
      have items := ih fuel (Nat.lt_succ_self fuel)
      cases x with
      | list mark l =>
        rw [describeWithin] at shown ⊢
        split
        · exact .ok _
        · next unmet =>
          rw [if_neg unmet, Answered.map_iff, Answered.mapM_iff] at shown
          rw [Answered.map_iff, Answered.mapM_iff]
          exact fun a listed => items _ a (Datum.below_list.1 below a listed) (shown a listed)
      | record entries =>
        rw [describeWithin, Answered.map_iff, Answered.mapM_iff] at shown ⊢
        intro e listed
        have parts {u : World} : Answered (do
            return (← u.describeWithin fuel inside e.1, ← u.describeWithin fuel inside e.2)) ↔
            Answered (u.describeWithin fuel inside e.1) ∧ Answered (u.describeWithin fuel inside e.2) :=
          Answered.bind_iff fun _ => Answered.bind_ok_iff
        obtain ⟨key_in, value_in⟩ := Datum.below_record.1 below e listed
        obtain ⟨key, value⟩ := parts.1 (shown e listed)
        exact parts.2 ⟨items _ _ key_in key, items _ _ value_in value⟩
      | ref r =>
        cases r with
        | object o =>
          rcases fuel with _ | _ | fuel
          · exact absurd shown (Answered.not_error _)
          · exact absurd shown (Answered.not_error _)
          · exact Writes.object (ih fuel (by omega) inside) less contained (Datum.below_obj.1 below) shown
        | plugin p =>
          cases met : inside.plugins.contains p with
          | true =>
            simp only [describeWithin, met]
            exact .ok _
          | false =>
            rcases fuel with _ | _ | fuel <;> simp only [describeWithin, met] at shown ⊢
            · exact absurd shown (Answered.not_error _)
            · exact absurd shown (Answered.not_error _)
            · exact Writes.plugin (ih fuel (by omega) _) less contained shown
        | _ => exact .ok _
      | int i => exact shown
      | _ => exact .ok _

/-- A world that shows no more is legible if the other one is, where the host functions are the same and are among the
first `n` objects. -/
theorem Legible.less (legible : w.Legible) (less : ShowsLess n w v) (contained : w.Contained n)
    (old : ∀ o fn, w.heap.hostFn? o = some fn → o < n) (functions : ∀ o, v.heap.hostFn? o = w.heap.hostFn? o)
    (logging : v.logging = w.logging) : v.Legible := by
  intro logs o fn found
  rw [functions] at found
  exact less.writes contained textDepth {} (.obj o) (Datum.below_obj.2 (old o fn found))
    (legible (logging ▸ logs) o fn found)

/-- Of the first `n` objects both worlds show the same. -/
structure SameView (n : Nat) (w v : World) : Prop where
  objects : ∀ o, o < n → v.heap.get o = w.heap.get o
  settings : SameSettings w v

namespace SameView

theorem symm (view : SameView n w v) : SameView n v w :=
  ⟨fun o below => (view.objects o below).symm, view.settings.symm⟩

theorem showsLess (view : SameView n w v) : ShowsLess n w v :=
  ⟨fun o below => .inl (view.objects o below), view.settings⟩

theorem contained (view : SameView n w v) (contained : w.Contained n) : v.Contained n := by
  refine ⟨fun o below => ?_, fun p => ?_, fun p => ?_⟩
  · rw [view.objects o below]
    exact contained.held o below
  · rw [view.settings.roots]
    exact contained.roots p
  · rw [view.settings.outers]
    exact contained.outers p

/-- Both worlds can write the text of a value of these objects, or neither can. -/
theorem answered_iff {x : Value} (view : SameView n w v) (contained : w.Contained n) (below : x.Below n) :
    Answered (v.describe x) ↔ Answered (w.describe x) :=
  ⟨view.symm.showsLess.writes (view.contained contained) textDepth {} x below,
    view.showsLess.writes contained textDepth {} x below⟩

end SameView

/-- What resolves shadows leaves the view of the objects that were there. -/
theorem Resolves.sameView {p : PluginId} (resolves : Resolves p n w v) (tables : v.tables = w.tables) :
    SameView n w v := by
  have extended (q : PluginId) : ∃ more, v.plugin q = (w.plugin q).extend more := by
    by_cases bound : q < w.plugins.size
    · exact resolves.advances.shadows q bound
    · have bound' : ¬ q < v.plugins.size := by rw [resolves.plugins]; exact bound
      refine ⟨[], ?_⟩
      rw [Plugin.extend_nil, World.plugin, World.plugin, Array.getElem?_eq_none (Nat.not_lt.1 bound),
        Array.getElem?_eq_none (Nat.not_lt.1 bound')]
  refine ⟨resolves.old, fun q => ?_, fun q => ?_, fun q => ?_, tables⟩
  all_goals
    obtain ⟨more, same⟩ := extended q
    rw [same]
    rfl

end World

namespace Plugin
variable {strict : Prop} {w v : World} {statics : Key → Prop} {p : PluginId} {f g : Value} {l : List Value}

theorem Made.kept (made : Made p f w v) (intact : w.Intact strict) : Kept strict w v := by
  obtain ⟨c, category, -⟩ := made.entry
  have kept := (build_keeps intact p (intact.callable (isCallable_iff.2 ⟨c, category⟩))).world intact
  rwa [made.run] at kept

theorem Raised.kept (raised : Raised p l w v) (intact : w.Intact strict) : Kept strict w v := by
  induction raised with
  | nil w => exact .refl intact
  | cons made _ ih => exact (made.kept intact).trans (ih (made.kept intact).intact)

/-- Where all texts can be written, so can the line on a shadow. -/
theorem loggable_of_legible (legible : w.Legible) (callable : w.isCallable f = true) :
    Loggable w p f := by
  intro logs
  refine ⟨legible.describe logs callable, fun parent above => ?_⟩
  by_cases null : parent = .null
  · rw [null]
    exact .ok _
  · exact legible.describe logs (superConstructor_callable above null)

/-- The line on the shadow of a callable can be written after shadows were made just if it could be before. -/
theorem Raised.loggable_iff (raised : Raised p l w v) (sound : w.Sound) (ancestral : w.Ancestral statics)
    (intact : w.Intact strict) (callable : w.isCallable g = true) : Loggable v p g ↔ Loggable w p g := by
  have resolves := raised.resolves sound
  have view := resolves.sameView (raised.kept intact).tables
  have shown {x : Value} (below : x.Below w.heap.size) := view.answered_iff intact.contained below
  have above := ancestral.superConstructor_eq callable resolves.advances.trail (w.plugin p).host (v.plugin p).host
  unfold Loggable
  rw [raised.logging, above, shown (intact.callable callable)]
  refine imp_congr_right fun _ => and_congr_right fun _ => forall_congr' fun parent => imp_congr_right fun same => ?_
  exact shown (intact.superConstructor _ g parent same)

/-- Where shadows are made one after the other without a fault, the lines on all of them could be written. -/
theorem Raised.loggable (raised : Raised p l w v) (sound : w.Sound) (ancestral : w.Ancestral statics)
    (intact : w.Intact strict) (run : exec (l.forM (build p)) w = (.ok (), v)) (listed : g ∈ l) : Loggable w p g := by
  induction raised with
  | nil _ => cases listed
  | @cons f rest w u v made further ih =>
    obtain ⟨_, t, first, others⟩ := exists_of_exec_bind run
    obtain rfl : u = t := by rw [← made.run, first]
    have one : Raised p [f] w u := .cons made (.nil u)
    rw [← one.loggable_iff sound ancestral intact ((Raised.cons made further).callable listed)]
    rcases List.mem_cons.1 listed with rfl | later
    · exact made.ends.1 (by rw [first])
    · exact ih made.resolves.advances.sound (made.ancestral sound ancestral) (made.kept intact).intact others later

/-- In a legible world a callable is given its shadow, those that are missing are made, and the world stays legible. -/
theorem shadowOf_legible (sound : w.Sound) (ancestral : w.Ancestral statics) (intact : w.Intact strict)
    (bound : p < w.plugins.size) (callable : w.isCallable f = true) (legible : w.Legible) :
    ∃ l s v, Chain w p f l ∧ Raised p l.reverse w v ∧ exec (shadowOf p f) w = (.ok s.object, v) ∧
      shadow? v p f = some s ∧ Kept strict w v ∧ v.Legible := by
  obtain ⟨l, done, v, chain, raised, outcome⟩ := shadowOf_raises sound ancestral bound callable
  have kept := raised.kept intact
  have view := (raised.resolves sound).sameView kept.tables
  have later : v.Legible := legible.less view.showsLess intact.contained (fun _ _ => Heap.lt_size_of_hostFn?)
    raised.functions raised.logging
  rcases outcome with ⟨⟨s, run, found⟩, rfl, -⟩ | ⟨⟨g, listed, silenced⟩, -⟩
  · exact ⟨l, s, v, chain, raised, run, found, kept, later⟩
  · have callable' : v.isCallable g = true := by rw [isCallable_congr raised.functions]; exact raised.callable listed
    exact absurd (loggable_of_legible later callable') silenced

end Plugin

/-! ## A name that cannot be written -/

/-- An empty list within as many others. -/
def Datum.nested : Nat → Value
  | 0 => .list none []
  | depth + 1 => .list none [nested depth]

theorem Datum.below_nested (n depth : Nat) : (nested depth).Below n := by
  induction depth with
  | zero => simp [nested]
  | succ depth ih => simp [nested, ih]

/-- The effects that make a family whose first constructor has a name nested too deep for a text. -/
def Effect.unnamableFamily : List Effect :=
  [.makeHost, .newObject (.obj 1) [], .makePlugin 0 {} (.obj 11),
    .defineConstructor 0 { name := .str "Base" } .null .null [] [(Name.ofText "name", Datum.nested 1000)],
    .defineConstructor 0 { name := .str "Sub" } .null (.obj 17) [] []]

theorem Effect.unnamableFamily_reachable (strict : Prop) :
    ReachableUnder (fun u d => d.Given strict u ∧ d.Within (.definitions fun _ => True))
      (unnamableFamily.foldl Effect.after { World.initial with logging := true }) := by
  have signed (n : Nat) (s : Text) : Host.Signature.Below n { name := .str s } :=
    ⟨Datum.below_str, Datum.below_null, Datum.below_null⟩
  have allowed : AllowedFrom (fun u d => d.Given strict u ∧ d.Within (.definitions fun _ => True))
      { World.initial with logging := true } unnamableFamily := by
    refine ⟨⟨trivial, trivial⟩, ⟨⟨Datum.below_obj.2 ?_, nofun, fun _ => .inr ⟨1, rfl⟩⟩, .inl trivial⟩,
      ⟨Datum.below_obj.2 ?_, trivial⟩,
      ⟨⟨signed _ _, Datum.below_null, Datum.below_null, nofun, ?_⟩, nofun, fun _ _ => trivial⟩,
      ⟨⟨signed _ _, Datum.below_null, Datum.below_obj.2 ?_, nofun, nofun⟩, nofun, nofun⟩, trivial⟩
    · decide +kernel
    · decide +kernel
    · intro m listed
      cases List.mem_singleton.1 listed
      exact ⟨Datum.below_str, Datum.below_nested _ _⟩
    · decide +kernel
  have waking : TransitionUnder (fun u d => d.Given strict u ∧ d.Within (.definitions fun _ => True)) World.initial
      { World.initial with logging := true } := .aside ⟨rfl, rfl, rfl, rfl, rfl⟩
  exact .head waking allowed.execution

end Overlay
