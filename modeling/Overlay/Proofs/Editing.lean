import Overlay.Proofs.Raising
import Overlay.Proofs.Forwarding
import Overlay.Proofs.OneShadow
import Overlay.Proofs.Views

/-!
# Setting, reading and removing a property

Setting and removing a property edit the same object, which is the target of the value once its shadow is there. So
what was set is read back from it, and can be removed; what is read then was underneath: further up the path of the
target, or on the supplement. Removing a property that was not there before it was set undoes the setting to the last
detail, since a new name comes in at the end of its bag.
-/

namespace Overlay
set_option autoImplicit false

open Act World

/-! ## Bags and paths -/

namespace Bag
variable {b : Bag} {k : Key}

theorem owns_put_same (b : Bag) (n : Name) (x : Value) (e : Bool) : (b.put n x e).owns n.key = true := by
  obtain ⟨q, found, -, -⟩ := find?_insert_same b.props ⟨n, x, e⟩
  rw [owns_eq, find?, put]
  exact Option.isSome_iff_exists.2 ⟨q, found⟩

theorem owns_erase (b : Bag) (k : Key) : (b.erase k).owns k = false := by
  simp [owns, erase]

theorem erase_of_not_owned (absent : b.owns k = false) : b.erase k = b := by
  have others : b.props.filter (·.name.key != k) = b.props := by
    apply List.filter_eq_self.2
    intro q listed
    have apart := List.any_eq_false.1 absent q listed
    simpa using apart
  rw [erase, others]

end Bag

namespace Heap
variable {h : Heap} {o : ObjId} {k : Key}

/-- The value that a key reaches from the prototype of an object upward, if it reaches one. -/
def searchAbove (h : Heap) (o : ObjId) (k : Key) : Except Fault (Option Value) :=
  match (h.get o).proto with
  | .obj q => h.search q k
  | .null => .ok none
  | _ => .error .noMember

/-- What an object does not own itself is found from its prototype upward. -/
theorem search_of_lacking (back : (h.get o).proto.Below o) (lacking : h.owns o k = false) :
    h.search o k = h.searchAbove o k := by
  have owner : h.owner? o k = (h.ancestors o).find? fun p => h.owns p k := by
    rw [owner?, path, List.find?_cons, lacking]
  rw [search, owner, ancestors, atEnd, isWhole, searchAbove]
  cases link : (h.get o).proto with
  | ref r =>
    cases r with
    | object q =>
      rw [link] at back
      simp only [if_pos (Datum.below_obj.1 back)]
      rfl
    | _ => rfl
  | _ => rfl

end Heap

namespace Plugin
variable {w u v : World} {p : PluginId} {x y z : Value} {o : ObjId} {n : Text} {α : Type}

/-! ## Targets -/

theorem isCallable_setBag (w : World) (o : ObjId) (b : Bag) (x : Value) :
    World.isCallable { w with heap := w.heap.setBag o b } x = w.isCallable x := by
  rcases x with _ | _ | _ | _ | _ | _ | _ | _ | _ | (a | _ | _ | _ | _)
  case ref.object =>
    rw [isCallable_obj, isCallable_obj, Heap.hostFn?, (Heap.get_setBag_shape w.heap o a b).2, Heap.hostFn?]
  all_goals rfl

theorem target?_setBag (w : World) (o : ObjId) (b : Bag) (x : Value) :
    target? { w with heap := w.heap.setBag o b } p x = target? w p x := by
  unfold target?
  rw [isCallable_setBag, shadow?_setBag]

/-- A value with a target is a callable that has its shadow, or an object. -/
theorem target?_cases (here : target? w p x = some o) :
    (∃ s, w.isCallable x = true ∧ shadow? w p x = some s ∧ s.object = o) ∨ w.isCallable x = false ∧ x = .obj o := by
  cases callable : w.isCallable x with
  | true =>
    rw [target?_callable callable] at here
    obtain ⟨s, known, object⟩ := Option.map_eq_some_iff.1 here
    exact .inl ⟨s, rfl, known, object⟩
  | false =>
    unfold target? at here
    rw [callable, if_neg Bool.false_ne_true] at here
    split at here
    · cases here
      exact .inr ⟨rfl, rfl⟩
    · cases here

theorem exec_edit_target {f : ObjId → Act α} {plain : Except Fault α} (here : target? w p x = some o) :
    exec (edit p x f plain) w = exec (f o) w := by
  unfold edit
  rw [exec_get_bind]
  obtain ⟨s, callable, known, rfl⟩ | ⟨uncallable, rfl⟩ := target?_cases here
  · rw [if_pos callable, exec_bind_ok (exec_shadowOf_known known)]
  · rw [if_neg (by rw [uncallable]; exact Bool.false_ne_true)]

/-- The world in which a value has its target, given a world: the shadow of a callable is made if it is not there, and
nothing else is done. -/
structure FindsTarget (p : PluginId) (x : Value) (w v : World) (o : ObjId) : Prop where
  resolves : Resolves p w.heap.size w v
  target : target? v p x = some o
  known : ∀ a, target? w p x = some a → a = o ∧ v = w
  intact : ∀ strict, w.Intact strict → v.Intact strict
  order : InOrder w p → InOrder v p

/-- An edit that ends for an object only has found the target. -/
theorem edit_findsTarget {f : ObjId → Act α} {e : Fault} {a : α} (reachable : Reachable w)
    (run : exec (edit p x f (.error e)) w = (.ok a, u)) : ∃ v o, FindsTarget p x w v o ∧ exec (f o) v = (.ok a, u) := by
  have sound := reachable.sound
  unfold edit at run
  rw [exec_get_bind] at run
  split at run
  · next callable =>
    obtain ⟨o, v, shadow, run⟩ := exists_of_exec_bind run
    have resolves := (shadowOf_asking p x w).world sound
    rw [shadow] at resolves
    obtain ⟨-, s, known, rfl⟩ := registered_of_shadowOf reachable shadow
    obtain ⟨c, category, -⟩ := Option.bind_eq_some_iff.1 known
    refine ⟨v, s.object, ⟨resolves, ?_, fun a here => ?_, fun strict intact => ?_, fun order => ?_⟩, run⟩
    · rw [target?_callable (isCallable_iff.2 ⟨c, category⟩), known]
      rfl
    · obtain ⟨s', -, known', rfl⟩ | ⟨plain, -⟩ := target?_cases here
      · obtain ⟨same, rfl⟩ := Prod.mk.inj (shadow.symm.trans (exec_shadowOf_known known'))
        exact ⟨(Except.ok.inj same).symm, rfl⟩
      · rw [callable] at plain
        cases plain
    · have kept := (shadowOf_keeps intact p x).world intact
      rw [shadow] at kept
      exact kept.intact
    · obtain ⟨s', v', run', -, order'⟩ := order.shadowOf callable
      obtain ⟨-, rfl⟩ := Prod.mk.inj (shadow.symm.trans run')
      exact order'
  · next refused =>
    have plain : w.isCallable x = false := Bool.eq_false_iff.2 refused
    split at run
    · next o =>
      have here : target? w p (.obj o) = some o := target?_obj plain
      refine ⟨w, o, ⟨sound.resolves (.refl _ w), here, fun a there => ?_, fun _ => id, id⟩, run⟩
      exact ⟨Option.some.inj (there.symm.trans here), rfl⟩
    · cases run

/-- The target is an object that is there. -/
theorem FindsTarget.inside (finds : FindsTarget p x w v o) (bound : p < w.plugins.size) (there : x.Below w.heap.size) :
    o < v.heap.size := by
  have advances := finds.resolves.advances
  obtain ⟨s, callable, -, -⟩ | ⟨-, rfl⟩ := target?_cases finds.target
  · exact target?_inside advances.sound (Nat.lt_of_lt_of_le bound advances.plugins) callable finds.target
  · exact Nat.lt_of_lt_of_le (Datum.below_obj.1 there) advances.trail.sameShape.size

/-- An object that is no host function shows no more when it loses a property. -/
theorem showsLess_erase (plain : (w.heap.get o).host = none) (k : Key) :
    ShowsLess w.heap.size w { w with heap := w.heap.setBag o ((w.heap.get o).bag.erase k) } := by
  refine ⟨fun a there => ?_, fun q => rfl, fun q => rfl, fun q => rfl, rfl⟩
  by_cases here : a = o
  · subst here
    refine .inr ⟨plain, ?_⟩
    rw [Heap.get_setBag_same _ there]
    exact ⟨plain, fun q listed => (List.mem_filter.1 listed).1⟩
  · exact .inl (Heap.get_setBag_other _ _ here)

/-- A plugin stays in order when an open object loses a property. -/
theorem InOrder.erase (order : InOrder w p) (is_open : (w.heap.get o).bag.frozen = false) (k : Key) :
    InOrder { w with heap := w.heap.setBag o ((w.heap.get o).bag.erase k) } p := by
  let b := (w.heap.get o).bag.erase k
  have change : w.heap.Change (w.heap.setBag o b) := .erase o k is_open
  have functions (a : ObjId) : (w.heap.setBag o b).hostFn? a = w.heap.hostFn? a :=
    (Heap.get_setBag_shape w.heap o a b).2
  have changes : w.heap.Changes (w.heap.setBag o b) := .single change
  -- host functions are frozen, so this object is none
  have plain : (w.heap.get o).host = none := by
    cases kind : (w.heap.get o).host with
    | none => rfl
    | some fn =>
      obtain ⟨q, descended⟩ := order.ancestral.functions o fn (Nat.zero_le o) kind
      cases is_open.symm.trans descended.frozen
  refine ⟨(order.sound.advances (.of_change (Nat.zero_le o) change)).sound, order.bound,
    order.ancestral.advance order.sound changes functions fun h => ⟨h, rfl⟩,
    order.intact.setBag (order.intact.objects o).bag.erase,
    order.legible.less (showsLess_erase plain k) order.intact.contained (fun _ _ => Heap.lt_size_of_hostFn?) functions
      rfl, fun h kind ctor listed => ?_⟩
  rcases order.constructs h kind ctor listed with null | ⟨a, fn, same, host⟩
  · exact .inl null
  · exact .inr ⟨a, fn, same, (functions a).trans host⟩

/-! ## What is underneath -/

/-- Reads a name that the target of a value does not own: what is found from the target's prototype upward, else what
the supplement serves to a value that is no callable, else undefined. -/
def underneath (p : PluginId) (x : Value) (o : ObjId) (n : Name) : Act Value := do
  let w ← get
  match ← w.heap.searchAbove o n.key with
  | some a => return a
  | none =>
    if w.isCallable x then return .undefined
    else
      let s ← supplementOf p x
      return served (w.plugin p).config n (← supply (← get) s n)

/-- A name that the target does not own is read from underneath. -/
theorem read_underneath {strict : Prop} {m : Name} (sound : w.Sound) (intact : w.Intact strict)
    (there : x.Below w.heap.size) (here : target? w p x = some o) (lacking : w.heap.owns o m.key = false) :
    exec (read p x m.value) w = exec (underneath p x o m) w := by
  have above := Heap.search_of_lacking (intact.objects o).link lacking
  unfold underneath
  rw [exec_get_bind]
  obtain ⟨s, callable, known, rfl⟩ | ⟨plain, rfl⟩ := target?_cases here
  · rw [exec_read_known known, m.key_ofValue]
    change (w.heap.lookup s.object m.key, w) = _
    rw [Heap.lookup, above]
    cases w.heap.searchAbove s.object m.key with
    | error e => rfl
    | ok found =>
      cases found with
      | some a => rfl
      | none =>
        rw [exec_lift_ok_bind]
        simp only [callable, if_true]
        rfl
  · have real : Host.search w (w.plugin p).host (.obj o) m.value = w.heap.searchAbove o m.key :=
      (Host.search_of_start rfl m).trans above
    have asked := Host.exec_has (w := w) (h := (w.plugin p).host) (v := .obj o) rfl m.value
    cases answer : w.heap.searchAbove o m.key with
    | error e =>
      rw [real, answer] at asked
      rw [read, exec_get_bind]
      simp only [plain, Bool.false_eq_true, if_false]
      exact exec_bind_error asked
    | ok found =>
      rw [real, answer] at asked
      cases found with
      | some a =>
        rw [read, exec_get_bind]
        simp only [plain, Bool.false_eq_true, if_false]
        rw [exec_bind_ok asked]
        simp only [Option.isSome_some, if_true]
        rw [Host.exec_read rfl, real, answer]
        rfl
      | none =>
        rcases run : exec (supplementOf p (.obj o)) w with ⟨r, u⟩
        have resolves := (supplementOf_asking p (.obj o) w).world sound
        rw [run] at resolves
        have absent := real.trans answer
        have later := (resolves.hostSearch intact (w.plugin p).host there m).trans absent
        rw [read_absent rfl plain absent later run, exec_lift_ok_bind]
        simp only [plain, Bool.false_eq_true, if_false]
        rw [exec_bind, run]
        cases r with
        | error e => rfl
        | ok s =>
          dsimp only
          rw [exec_get_bind]
          change (served (w.plugin p).config m <$> supply u s m, u) = _
          cases supply u s m <;> rfl

/-! ## A round -/

/-- The world in which the target of a value has got a property. -/
def withProperty (w : World) (o : ObjId) (n : Text) (y : Value) : World :=
  { w with heap := w.heap.setBag o ((w.heap.get o).bag.put (Name.ofText n) y true) }

/-- The world in which the target of a value has lost a property. -/
def withoutProperty (w : World) (o : ObjId) (n : Text) : World :=
  { w with heap := w.heap.setBag o ((w.heap.get o).bag.erase n) }

theorem setting_ok (run : exec (setting n y o) w = (.ok z, u)) :
    (w.heap.get o).bag.frozen = false ∧ z = y ∧ u = withProperty w o n y := by
  unfold setting at run
  cases frozen : (w.heap.get o).bag.frozen with
  | true =>
    rw [exec_bind_error (exec_putProperty_frozen n y true frozen)] at run
    cases run
  | false =>
    rw [exec_bind_ok (exec_putProperty y true frozen (Name.of?_str n))] at run
    obtain ⟨answer, rfl⟩ := Prod.mk.inj run
    exact ⟨rfl, (Except.ok.inj answer).symm, rfl⟩

/-- What the target of a value holds is read. -/
theorem read_withProperty (here : target? w p x = some o) (inside : o < w.heap.size) (n : Text) (y : Value) :
    exec (read p x (.str n)) (withProperty w o n y) = (.ok y, withProperty w o n y) := by
  have here' : target? (withProperty w o n y) p x = some o := (target?_setBag w o _ x).trans here
  have member : (withProperty w o n y).heap.member? o n = some y := Heap.member?_put_same (Name.ofText n) y true inside
  obtain ⟨s, -, known, rfl⟩ | ⟨plain, rfl⟩ := target?_cases here'
  · rw [exec_read_known known]
    exact congrArg (·, _) (Heap.lookup_of_member? member)
  · exact exec_read_owned plain (Heap.owner?_of_member? member) member rfl

/-- What an open target holds is removed. -/
theorem remove_withProperty (here : target? w p x = some o) (inside : o < w.heap.size)
    (is_open : (w.heap.get o).bag.frozen = false) (n : Text) (y : Value) :
    exec (remove p x (.str n)) (withProperty w o n y) = (.ok true, withoutProperty w o n) := by
  have here' : target? (withProperty w o n y) p x = some o := (target?_setBag w o _ x).trans here
  have bag : ((withProperty w o n y).heap.get o).bag = (w.heap.get o).bag.put (Name.ofText n) y true := by
    rw [withProperty, Heap.get_setBag_same _ inside]
  have erased : exec (eraseProperty o (.str n)) (withProperty w o n y) = (.ok true, withoutProperty w o n) := by
    rw [exec_eraseProperty (by rw [bag]; exact is_open) (Name.of?_str n), bag, Bag.owns_put_same, Bag.erase_put]
    simp only [withProperty, withoutProperty, Heap.setBag_setBag, Name.key_ofText]
  rw [exec_remove, exec_edit_target here', erased]

/-- What the target did not hold before is not missed. -/
theorem withoutProperty_of_not_owned (absent : w.heap.owns o n = false) : withoutProperty w o n = w := by
  rw [withoutProperty, Bag.erase_of_not_owned absent, Heap.setBag_self]

/-- A read of a callable that has its shadow ends. -/
theorem read_known_ends (sound : w.Sound) (here : target? w p x = some o) (callable : w.isCallable x = true) (m : Name) :
    ∃ y, exec (read p x m.value) w = (.ok y, w) := by
  obtain ⟨s, -, known, rfl⟩ | ⟨plain, -⟩ := target?_cases here
  · obtain ⟨c, -, entry⟩ := Option.bind_eq_some_iff.1 known
    have ordered := sound.plugins p (lt_size_of_shadow? known)
    obtain ⟨linked, above⟩ := ordered.shadows _ (Registry.mem_of_find? entry)
    obtain ⟨y, found⟩ := Heap.lookup_ends (ordered.whole linked above) m.key
    refine ⟨y, ?_⟩
    rw [exec_read_known known, m.key_ofValue]
    exact congrArg (·, w) found
  · rw [callable] at plain
    cases plain

theorem isNil_of_target (here : target? w p x = some o) : x.isNil = false := by
  obtain ⟨s, callable, -, -⟩ | ⟨-, rfl⟩ := target?_cases here
  · exact isNil_of_callable callable
  · rfl

/-- Setting, reading and removing a property fit together, whatever the value. What was set is read back, and can be
removed; then the name is read from underneath the target, and that read ends for a callable, and for any value where
all host functions come with a host or by definition, links are null or objects, registered constructors are host
functions, and their texts can be written if there is a log. If the target did not own the name before, removing it
restores the world in which the target was found; this is the world before the setting, but for shadows that had to be
made. -/
theorem set_read_remove (reachable : ReachableUnder (fun u d => d.Given False u) w) (bound : p < w.plugins.size)
    (there : x.Below w.heap.size) (written : exec (write p x (.str n) y) w = (.ok z, u)) :
    z = y ∧ exec (read p x (.str n)) u = (.ok y, u) ∧
    ∃ v o t, FindsTarget p x w v o ∧ exec (remove p x (.str n)) u = (.ok true, t) ∧
      exec (read p x (.str n)) t = exec (underneath p x o (Name.ofText n)) t ∧
      (w.isCallable x = true → ∃ a, exec (read p x (.str n)) t = (.ok a, t)) ∧
      (ReachableUnder (fun u d => d.Lawful u ∧ d.Within (.definitions fun _ => True)) w → w.Legible → w.Constructs →
        ∃ a t', exec (read p x (.str n)) t = (.ok a, t')) ∧
      (v.heap.owns o n = false → t = v) := by
  rw [exec_write] at written
  obtain ⟨v, o, finds, put⟩ := edit_findsTarget reachable.reachable written
  obtain ⟨is_open, rfl, rfl⟩ := setting_ok put
  have inside := finds.inside bound there
  have advances := finds.resolves.advances
  have intact : v.Intact False := finds.intact False reachable.intact
  have below : Bag.Below v.heap.size ((v.heap.get o).bag.erase n) := (intact.objects o).bag.erase
  have change : v.heap.Change (v.heap.setBag o ((v.heap.get o).bag.erase n)) := .erase o n is_open
  -- without the property the value has the same target, and is a callable just if it was one
  have here : target? (withoutProperty v o n) p x = some o := (target?_setBag v o _ x).trans finds.target
  have sound : (withoutProperty v o n).Sound := (advances.sound.advances (.of_change (Nat.zero_le o) change)).sound
  have same : (withoutProperty v o n).isCallable x = w.isCallable x :=
    (isCallable_setBag v o _ x).trans (finds.resolves.sameLinks.isCallable there)
  refine ⟨rfl, read_withProperty finds.target inside n z, v, o, withoutProperty v o n, finds,
    remove_withProperty finds.target inside is_open n z, ?_, fun callable => ?_, fun lawful legible constructs => ?_,
    withoutProperty_of_not_owned⟩
  · have there' : x.Below (withoutProperty v o n).heap.size := by
      rw [withoutProperty, Heap.size_setBag]
      exact there.mono advances.trail.sameShape.size
    have unowned : (withoutProperty v o n).heap.owns o n = false := by
      rw [Heap.owns, withoutProperty, Heap.get_setBag_same _ inside]
      exact Bag.owns_erase _ n
    exact read_underneath (m := Name.ofText n) sound (intact.setBag below) there' here unowned
  · exact read_known_ends sound here (same.trans callable) (Name.ofText n)
  · have order : InOrder w p := ⟨lawful.reachable.sound, bound, lawful.ancestral fun _ _ within => within.2,
      (lawful.loosen fun _ _ within => within.1).intact, legible, constructs⟩
    have order' : InOrder (withoutProperty v o n) p := (finds.order order).erase is_open n
    obtain ⟨a, t, run, -⟩ := read_ends order' (isNil_of_target here) (Name.ofText n)
    exact ⟨a, t, run⟩

/-- A property of an object hides what its supplement has under the same name. It is read back, and when it is removed
the world is as it was and the supplement serves its own value again. -/
theorem set_read_remove_detached : ∃ w u,
    ReachableUnder (fun u d => d.Given False u) w ∧ 0 < w.plugins.size ∧ (Datum.obj 21).Below w.heap.size ∧
    exec (write 0 (.obj 21) (.str "extra") (.int 5)) w = (.ok (.int 5), u) ∧
    exec (read 0 (.obj 21) (.str "extra")) u = (.ok (.int 5), u) ∧
    exec (remove 0 (.obj 21) (.str "extra")) u = (.ok true, w) ∧
    (exec (read 0 (.obj 21) (.str "extra")) w).1 = .ok .null := by
  let w := World.after detachedFamily
  have reachable : ReachableUnder (fun u d => d.Given False u) w := detachedFamily_given
  have facts : 0 < w.plugins.size ∧ 21 < w.heap.size ∧
      (exec (write 0 (.obj 21) (.str "extra") (.int 5)) w).1.toOption = some (.int 5) ∧
      target? w 0 (.obj 21) = some 21 ∧ w.heap.owns 21 "extra" = false ∧
      (exec (underneath 0 (.obj 21) 21 (Name.ofText "extra")) w).1.toOption = some .null := by
    decide +kernel
  clear_value w
  obtain ⟨bound, inside, answer, target, absent, beneath⟩ := facts
  have written : exec (write 0 (.obj 21) (.str "extra") (.int 5)) w = (.ok (.int 5), _) :=
    Prod.ext (eq_ok_of_toOption answer) rfl
  obtain ⟨-, readBack, v, o, t, finds, removed, shown, -, -, restored⟩ :=
    set_read_remove reachable bound (Datum.below_obj.2 inside) written
  obtain ⟨rfl, rfl⟩ := finds.known 21 target
  obtain rfl := restored absent
  refine ⟨_, _, reachable, bound, Datum.below_obj.2 inside, written, readBack, removed, ?_⟩
  rw [shown]
  exact eq_ok_of_toOption beneath

end Plugin

end Overlay
