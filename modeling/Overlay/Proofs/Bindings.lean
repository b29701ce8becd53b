import Overlay.Proofs.Editing
import Overlay.Proofs.Listing

/-!
# Outer bindings

The outer bindings of a plugin are an object like others, and its names are read through the access protocol: from its
path, or from its supplement. What was set is read back. Only a name that neither has is reported as not reachable, and
declaring such a name puts undefined on the object. A look-up that passes the object gave undefined for this name before,
and gives it now; so nothing else is read in another way, and the object is supplied with what it was supplied with.
-/

namespace Overlay
set_option autoImplicit false

open Act World

/-! ## A name that is bound to undefined -/

namespace Heap
variable {h : Heap} {o : ObjId} {m : Name} {e : Bool} {x : Value} {k : Key}

/-- A name reaches what it reached before another one was put. -/
theorem search_put_other (other : m.key ≠ k) (a : ObjId) :
    (h.setBag o ((h.get o).bag.put m x e)).search a k = h.search a k :=
  search_of_members (fun b _ => (get_setBag_shape h o b _).1) fun _ _ => member?_put_other h x e (.inl other)

/-- Undefined under a name that the object did not reach changes no look-up. -/
theorem lookup_put_undefined (back : ∀ a, (h.get a).proto.Below a) (inside : o < h.size)
    (absent : h.search o m.key = .ok none) (a : ObjId) (k : Key) :
    (h.setBag o ((h.get o).bag.put m .undefined e)).lookup a k = h.lookup a k := by
  by_cases named : m.key = k
  · subst named
    -- along the links from `a`: the object itself gives undefined, before and after
    induction a using Nat.strongRecOn with
    | ind a ih =>
      by_cases here : a = o
      · subst here
        rw [lookup_of_member? (member?_put_same m .undefined e inside), lookup, absent]
        rfl
      · have same := member?_put_other h (o := o) (p := a) (n := m) (k := m.key) .undefined e (.inr here)
        cases owned : h.member? a m.key with
        | some y => rw [lookup_of_member? owned, lookup_of_member? (same.trans owned)]
        | none =>
          have link := (get_setBag_shape h o a ((h.get o).bag.put m .undefined e)).1
          have lacking : h.owns a m.key = false := by rw [owns_eq_member?, owned]; rfl
          have lacking' : (h.setBag o ((h.get o).bag.put m .undefined e)).owns a m.key = false := by
            rw [owns_eq_member?, same, owned]
            rfl
          rw [lookup, lookup, search_of_lacking (back a) lacking, search_of_lacking (by rw [link]; exact back a) lacking',
            searchAbove, searchAbove, link]
          split
          · next q proto =>
            have below := back a
            rw [proto] at below
            exact ih q (Datum.below_obj.1 below)
          · rfl
          · rfl
  · rw [lookup, lookup, search_put_other named]

end Heap

/-! ## Reading an outer name -/

theorem Host.search_obj (w : World) (h : HostId) (o : ObjId) (n : Text) :
    search w h (.obj o) (.str n) = w.heap.search o n :=
  search_of_start rfl (Name.ofText n)

namespace Plugin
variable {w t u : World} {p : PluginId} {o : ObjId} {n : Text} {x : Value}

/-- Asking for a supplement gets the plugin shadows and reports nothing. -/
theorem supplementOf_resolving (sound : w.Sound) (p : PluginId) (x : Value) :
    Leaves (.resolving p 0) (supplementOf p x) w fun _ _ => True := by
  have shadows (f : Value) := shadowOf_leaves (p := p) (f := f) sound (Nat.zero_le _)
  refine .bind_get ?_
  split
  · exact .bind (shadows x) fun _ _ _ _ => .pure trivial
  · refine .bind_lift (Host.directConstructor_noReport w _ x) fun c _ => .bind_get ?_
    split
    · exact .bind (shadows c) fun _ v _ _ => .bind_get (Follows.lift (Heap.lookup_noReport _ _ _) v)
    · split
      · exact .bind_get (Follows.lift (Heap.lookup_noReport _ _ _) w)
      · exact .pure trivial

theorem supplementOf_keeps {strict : Prop} (intact : w.Intact strict) (p : PluginId) (x : Value) :
    Leaves (.keeping strict) (supplementOf p x) w fun _ _ => True := by
  refine .bind_get ?_
  split
  · exact .bind (shadowOf_keeps intact p x) fun _ _ _ _ => .pure trivial
  · refine .ask keeping_free Yields.any fun c _ => .bind_get ?_
    split
    · exact .bind (shadowOf_keeps intact p c) fun _ _ _ _ => .of_still keeping_free rfl fun _ _ => trivial
    · split
      · exact .of_still keeping_free rfl fun _ _ => trivial
      · exact .pure trivial

/-- In a reachable world the outer bindings of the plugin are an object that is no callable. -/
structure HasOuters (w : World) (p : PluginId) (o : ObjId) : Prop where
  reachable : Reachable w
  intact : w.Intact False
  bound : p < w.plugins.size
  outers : (w.plugin p).outers = .obj o
  plain : w.isCallable (.obj o) = false

namespace HasOuters
variable {r : Except Fault Value}

theorem inside (has : HasOuters w p o) : o < w.heap.size := by
  have below := has.intact.outers p
  rw [has.outers] at below
  exact Datum.below_obj.1 below

theorem search_eq (has : HasOuters w p o) (resolves : Resolves p w.heap.size w t) (n : Text) :
    t.heap.search o n = w.heap.search o n :=
  Heap.search_congr (fun a on => resolves.old a (Nat.lt_of_le_of_lt (Heap.le_of_mem_path on) has.inside)) n

theorem target (has : HasOuters w p o) : target? w p (.obj o) = some o := by
  rw [target?, has.plain]
  rfl

/-- Asking for the supplement of the bindings leaves them as they are. -/
theorem supplement (has : HasOuters w p o) (run : exec (supplementOf p (.obj o)) w = (r, t)) :
    HasOuters t p o ∧ Resolves p w.heap.size w t ∧ ∀ e, r = .error e → e.isReport = false := by
  have resolves := (supplementOf_asking p (.obj o) w).world has.reachable.sound
  have execution := (supplementOf_execution (T := .all) p (.obj o) w).world
  have kept := (supplementOf_keeps has.intact p (.obj o)).world has.intact
  have unreported := (supplementOf_resolving has.reachable.sound p (.obj o)).fault
  rw [run] at resolves execution kept unreported
  obtain ⟨more, grown⟩ := resolves.advances.shadows p has.bound
  have outers : (t.plugin p).outers = .obj o := by
    rw [grown]
    exact has.outers
  exact ⟨⟨has.reachable.execution execution, kept.intact, Nat.lt_of_lt_of_le has.bound resolves.advances.plugins, outers,
    (resolves.sameLinks.isCallable (Datum.below_obj.2 has.inside)).trans has.plain⟩, resolves, unreported⟩

end HasOuters

theorem canRead_found (found : w.heap.search o n = .ok (some x)) :
    exec (canRead p (.str n) (.obj o)) w = (.ok true, w) :=
  canRead_real (m := Name.ofText n) rfl
    (Host.reaches_of_search (n := Name.ofText n) ((Host.search_obj w (w.plugin p).host o n).trans found))

/-- The bindings really reach the name: it is read there. -/
theorem readOuter_real (outers : (w.plugin p).outers = .obj o) (plain : w.isCallable (.obj o) = false)
    (found : w.heap.search o n = .ok (some x)) : exec (readOuter p (.str n)) w = (.ok x, w) := by
  have real := (Host.search_obj w (w.plugin p).host o n).trans found
  have reached := canRead_found (p := p) found
  have asked : exec (Host.has (w.plugin p).host (.obj o) (.str n)) w = (.ok true, w) := by
    rw [Host.exec_has rfl, real]
    rfl
  rw [readOuter, exec_get_bind, outers, exec_bind_ok reached, if_pos rfl, read, exec_get_bind]
  simp only [plain, Bool.false_eq_true, if_false]
  rw [exec_bind_ok asked, if_pos rfl, Host.exec_read rfl, real]
  rfl

theorem canRead_stopped {e : Fault} (stopped : w.heap.search o n = .error e) :
    exec (canRead p (.str n) (.obj o)) w = (.error e, w) := by
  have asked : exec (Host.has (w.plugin p).host (.obj o) (.str n)) w = (.error e, w) := by
    rw [Host.exec_has rfl, Host.search_obj, stopped]
    rfl
  rw [canRead, exec_get_bind]
  exact exec_bind_error asked

/-- The walk from the bindings stops: so does the reading. -/
theorem readOuter_stopped {e : Fault} (outers : (w.plugin p).outers = .obj o)
    (stopped : w.heap.search o n = .error e) : exec (readOuter p (.str n)) w = (.error e, w) := by
  rw [readOuter, exec_get_bind, outers]
  exact exec_bind_error (canRead_stopped stopped)

/-- The answer for a name that the bindings really lack, by what their supplement has. -/
def suppliedOuter (config : Config) (n : Text) : Option Value → Except Fault Value
  | some y => .ok (served config (Name.ofText n) (some y))
  | none => .error (.unreachable n)

namespace HasOuters
variable {r : Except Fault Value}

/-- The bindings really lack the name: it is read off their supplement, or reported. -/
theorem read_absent (has : HasOuters w p o) (absent : w.heap.search o n = .ok none)
    (run : exec (supplementOf p (.obj o)) w = (r, t)) :
    exec (readOuter p (.str n)) w =
      (r >>= fun s => supply t s (Name.ofText n) >>= suppliedOuter (w.plugin p).config n, t) := by
  have lacks := (Host.search_obj w (w.plugin p).host o n).trans absent
  have reached := canRead_absent (n := Name.ofText n) rfl lacks run
  rw [readOuter, exec_get_bind, has.outers]
  change exec (canRead p (Name.ofText n).value (.obj o) >>= _) w = _
  cases r with
  | error e => exact exec_bind_error reached
  | ok s =>
    change exec (canRead p (Name.ofText n).value (.obj o)) w = ((·.isSome) <$> supply t s (Name.ofText n), t) at reached
    change _ = (supply t s (Name.ofText n) >>= suppliedOuter (w.plugin p).config n, t)
    cases found : supply t s (Name.ofText n) with
    | error e =>
      rw [found] at reached
      exact exec_bind_error reached
    | ok answer =>
      rw [found] at reached
      rw [exec_bind_ok reached]
      cases answer with
      | none => rfl
      | some y =>
        -- the supplement is there now, and is given again
        obtain ⟨has', resolves, -⟩ := has.supplement run
        have again := supplementOf_again has.reachable has.intact has.bound (Datum.below_obj.2 has.inside) run
        have later : Host.search t (t.plugin p).host (.obj o) (.str n) = .ok none :=
          (Host.search_obj t _ o n).trans ((has.search_eq resolves n).trans absent)
        have reading := Plugin.read_absent (n := Name.ofText n) rfl has'.plain later later again
        rw [(resolves.advances.settings has.bound).2] at reading
        refine reading.trans ?_
        change (served _ _ <$> supply t s (Name.ofText n), t) = _
        rw [found]
        rfl

end HasOuters

theorem supply_noReport (w : World) (s : Value) (m : Name) : NoReport (supply w s m) := by
  unfold supply
  split
  · exact Heap.search_noReport _ _ _
  · exact .ok none

/-- A report on an outer name is that it cannot be reached, and then reading it off the bindings gives undefined. -/
theorem HasOuters.reported {e : Fault} (has : HasOuters w p o) (run : exec (readOuter p (.str n)) w = (.error e, u))
    (isReport : e.isReport = true) :
    e = .unreachable n ∧ exec (read p (.obj o) (.str n)) w = (.ok .undefined, u) := by
  have other {e' : Fault} (same : e' = e) : ¬ e'.isReport = false := by
    rw [same, isReport]
    exact Bool.noConfusion
  cases real : w.heap.search o n with
  | error e' =>
    rw [readOuter_stopped has.outers real] at run
    exact absurd (Heap.search_noReport _ _ _ e' real) (other (Except.error.inj (Prod.mk.inj run).1))
  | ok found =>
    cases found with
    | some y =>
      rw [readOuter_real has.outers has.plain real] at run
      cases run
    | none =>
      rcases asked : exec (supplementOf p (.obj o)) w with ⟨r, t⟩
      obtain ⟨-, resolves, unreported⟩ := has.supplement asked
      rw [has.read_absent real asked] at run
      obtain ⟨answer, rfl⟩ := Prod.mk.inj run
      cases r with
      | error e' => exact absurd (unreported e' rfl) (other (Except.error.inj answer))
      | ok s =>
        change supply t s (Name.ofText n) >>= suppliedOuter (w.plugin p).config n = .error e at answer
        cases supplied : supply t s (Name.ofText n) with
        | error e' =>
          rw [supplied] at answer
          exact absurd (supply_noReport t s _ e' supplied) (other (Except.error.inj answer))
        | ok found =>
          rw [supplied] at answer
          cases found with
          | some y => cases answer
          | none =>
            have lacks := (Host.search_obj w (w.plugin p).host o n).trans real
            have later := (Host.search_obj t (w.plugin p).host o n).trans ((has.search_eq resolves n).trans real)
            refine ⟨(Except.error.inj answer).symm, ?_⟩
            refine (Plugin.read_absent (n := Name.ofText n) rfl has.plain lacks later asked).trans ?_
            change (served _ _ <$> supply t s (Name.ofText n), t) = _
            rw [supplied]
            change (Except.ok (served (w.plugin p).config (Name.ofText n) none), t) = _
            rw [served, Option.getD_none, ite_self]

/-! ## Declaring an outer name -/

/-- How the answer for a name may change when another one is declared: not at all, unless it is the same name and was
reported, which is then bound to undefined. -/
def Declares (n m : Text) (before after : Except Fault Value) : Prop :=
  after = before ∨ m = n ∧ before = .error (.unreachable n) ∧ after = .ok .undefined

namespace HasOuters
variable {s : Value} {m : Text}

theorem withProperty (has : HasOuters w p o) (is_open : (w.heap.get o).bag.frozen = false) (n : Text) {y : Value}
    (below : y.Below w.heap.size) : HasOuters (Plugin.withProperty w o n y) p o := by
  have put : exec (putProperty o (.str n) y true) w = (.ok (), Plugin.withProperty w o n y) :=
    exec_putProperty y true is_open (Name.of?_str n)
  have execution := (putProperty_execution (T := .all) o (.str n) y true w).world
  rw [put] at execution
  refine ⟨has.reachable.execution execution, has.intact.setBag ?_, has.bound, has.outers,
    (isCallable_setBag w o _ _).trans has.plain⟩
  exact (has.intact.objects o).bag.put Datum.below_str below

/-- Bindings with the same supplement answer in the same way for a name, if they reach and are supplied with the same
under it. -/
theorem same_answer {t' : World} (has : HasOuters w p o) (has' : HasOuters u p o)
    (config : (u.plugin p).config = (w.plugin p).config) (real : u.heap.search o m = w.heap.search o m)
    (asked : exec (supplementOf p (.obj o)) w = (.ok s, t)) (asked' : exec (supplementOf p (.obj o)) u = (.ok s, t'))
    (supplied : supply t' s (Name.ofText m) = supply t s (Name.ofText m)) :
    (exec (readOuter p (.str m)) u).1 = (exec (readOuter p (.str m)) w).1 := by
  cases found : w.heap.search o m with
  | error e => rw [readOuter_stopped has.outers found, readOuter_stopped has'.outers (real.trans found)]
  | ok answer =>
    cases answer with
    | some y =>
      rw [readOuter_real has.outers has.plain found, readOuter_real has'.outers has'.plain (real.trans found)]
    | none =>
      rw [has.read_absent found asked, has'.read_absent (real.trans found) asked', config]
      change supply t' s (Name.ofText m) >>= _ = supply t s (Name.ofText m) >>= _
      rw [supplied]

/-- Once the supplement is there, it is given again. -/
theorem supplement_again (has : HasOuters w p o) (asked : exec (supplementOf p (.obj o)) w = (.ok s, t)) :
    exec (supplementOf p (.obj o)) t = (.ok s, t) :=
  supplementOf_again has.reachable has.intact has.bound (Datum.below_obj.2 has.inside) asked

theorem answers_again (has : HasOuters w p o) (asked : exec (supplementOf p (.obj o)) w = (.ok s, t)) (m : Text) :
    (exec (readOuter p (.str m)) t).1 = (exec (readOuter p (.str m)) w).1 := by
  obtain ⟨has', resolves, -⟩ := has.supplement asked
  exact has.same_answer has' (resolves.advances.settings has.bound).2 (has.search_eq resolves m) asked
    (has.supplement_again asked) rfl

/-- Bindings that get undefined under a name which they do not reach are supplied as before. -/
theorem supplement_declared (has : HasOuters w p o) (absent : w.heap.search o n = .ok none)
    (asked : exec (supplementOf p (.obj o)) w = (.ok s, w)) :
    exec (supplementOf p (.obj o)) (Plugin.withProperty w o n .undefined) =
      (.ok s, Plugin.withProperty w o n .undefined) := by
  let u := Plugin.withProperty w o n .undefined
  have back (a : ObjId) : (w.heap.get a).proto.Below a := (has.intact.objects a).link
  have shown (a : ObjId) (k : Key) : u.heap.lookup a k = w.heap.lookup a k :=
    Heap.lookup_put_undefined (m := Name.ofText n) back has.inside absent a k
  have callable_eq (x : Value) : u.isCallable x = w.isCallable x := isCallable_setBag w o _ x
  have ctor_eq : Host.directConstructor u (u.plugin p).host (.obj o) =
      Host.directConstructor w (w.plugin p).host (.obj o) := by
    have link : (u.heap.get o).proto = (w.heap.get o).proto := (Heap.get_setBag_shape w.heap o o _).1
    change Host.ownConstructor u.heap (u.heap.get o).proto = Host.ownConstructor w.heap (w.heap.get o).proto
    have older := back o
    rw [link]
    unfold Host.ownConstructor
    split
    · rfl
    · next q proto =>
      rw [proto] at older
      have other : q ≠ o := Nat.ne_of_lt (Datum.below_obj.1 older)
      have same : u.heap.get q = w.heap.get q := Heap.get_setBag_other w.heap _ other
      rw [Heap.owns, same, Heap.owns]
    · rfl
  rw [exec_supplementOf_plain has.plain] at asked
  obtain ⟨c, ctor, asked⟩ := exists_of_exec_lift_bind asked
  rw [exec_supplementOf_plain ((callable_eq _).trans has.plain)]
  change exec (liftM (Host.directConstructor u (u.plugin p).host (.obj o)) >>= pseudoPrototype p) u = (.ok s, u)
  rw [ctor_eq, ctor, exec_lift_ok_bind]
  cases callable : w.isCallable c with
  | true =>
    unfold pseudoPrototype at asked
    rw [exec_get_bind, callable, if_pos rfl] at asked
    obtain ⟨a, t, given, looked⟩ := exists_of_exec_bind asked
    rw [exec_get_bind, exec_lift] at looked
    obtain ⟨found, rfl⟩ := Prod.mk.inj looked
    obtain ⟨-, k, known, rfl⟩ := registered_of_shadowOf has.reachable given
    exact exec_pseudoPrototype_known ((shadow?_setBag t p o _ c).trans known) ((shown _ _).trans found)
  | false =>
    unfold pseudoPrototype at asked ⊢
    rw [exec_get_bind, callable, if_neg Bool.false_ne_true] at asked
    rw [exec_get_bind, callable_eq, callable, if_neg Bool.false_ne_true]
    split at asked
    · next a =>
      rw [exec_get_bind, exec_lift] at asked
      rw [exec_get_bind, exec_lift, shown, (Prod.mk.inj asked).1]
    · exact congrArg (·, u) (Prod.mk.inj asked).1

theorem read_declared (has : HasOuters w p o) :
    exec (readOuter p (.str n)) (Plugin.withProperty w o n x) = (.ok x, Plugin.withProperty w o n x) := by
  have member : (Plugin.withProperty w o n x).heap.member? o n = some x :=
    Heap.member?_put_same (Name.ofText n) x true has.inside
  exact readOuter_real has.outers ((isCallable_setBag w o _ _).trans has.plain)
    (Heap.search_of_owner? (Heap.owner?_of_member? member) member)

end HasOuters

/-- The world after a name was declared: the bindings really reach the name, or their supplement has it, or neither, and
then it is put. -/
inductive Declared (w : World) (p : PluginId) (o : ObjId) (n : Text) : World → Prop
  | real {y : Value} (found : w.heap.search o n = .ok (some y)) : Declared w p o n w
  | supplied {s y : Value} {t : World} (absent : w.heap.search o n = .ok none)
      (asked : exec (supplementOf p (.obj o)) w = (.ok s, t)) (has : supply t s (Name.ofText n) = .ok (some y)) :
      Declared w p o n t
  | put {s : Value} {t : World} (absent : w.heap.search o n = .ok none)
      (asked : exec (supplementOf p (.obj o)) w = (.ok s, t)) (lacks : supply t s (Name.ofText n) = .ok none)
      (is_open : (t.heap.get o).bag.frozen = false) : Declared w p o n (Plugin.withProperty t o n .undefined)

namespace HasOuters

theorem declared (has : HasOuters w p o) (run : exec (initOuter p (.str n)) w = (.ok (), u)) : Declared w p o n u := by
  rw [initOuter, exec_get_bind, has.outers] at run
  obtain ⟨there, t, reached, run⟩ := exists_of_exec_bind run
  cases real : w.heap.search o n with
  | error e =>
    rw [canRead_stopped real] at reached
    cases reached
  | ok found =>
    cases found with
    | some y =>
      rw [canRead_found real] at reached
      cases reached
      cases run
      exact .real real
    | none =>
      rcases asked : exec (supplementOf p (.obj o)) w with ⟨r, v⟩
      have lacks := (Host.search_obj w (w.plugin p).host o n).trans real
      have question := canRead_absent (n := Name.ofText n) rfl lacks asked
      obtain ⟨answer, rfl⟩ := Prod.mk.inj (question.symm.trans reached)
      cases r with
      | error e => cases answer
      | ok s =>
        change (·.isSome) <$> supply v s (Name.ofText n) = .ok there at answer
        cases supplied : supply v s (Name.ofText n) with
        | error e =>
          rw [supplied] at answer
          cases answer
        | ok found =>
          rw [supplied] at answer
          obtain rfl : found.isSome = there := Except.ok.inj answer
          cases found with
          | some y =>
            cases run
            exact .supplied real asked supplied
          | none =>
            obtain ⟨z, u', written, ended⟩ := exists_of_exec_bind run
            obtain ⟨-, rfl⟩ := Prod.mk.inj ended
            rw [exec_write, exec_edit_target (has.supplement asked).1.target] at written
            obtain ⟨is_open, -, rfl⟩ := setting_ok written
            exact .put real asked supplied is_open

/-- A name that was declared can be read. -/
theorem read_after (has : HasOuters w p o) (declared : Declared w p o n u) :
    ∃ y, exec (readOuter p (.str n)) u = (.ok y, u) := by
  cases declared with
  | real found => exact ⟨_, readOuter_real has.outers has.plain found⟩
  | @supplied s y _ absent asked supplied =>
    obtain ⟨has', resolves, -⟩ := has.supplement asked
    refine ⟨served (u.plugin p).config (Name.ofText n) (some y), ?_⟩
    rw [has'.read_absent ((has.search_eq resolves n).trans absent) (has.supplement_again asked)]
    change (supply u s (Name.ofText n) >>= _, u) = _
    rw [supplied]
    rfl
  | put absent asked => exact ⟨_, (has.supplement asked).1.read_declared⟩

/-- Declaring a name changes no answer for another one. -/
theorem other_answer {m : Text} (has : HasOuters w p o) (declared : Declared w p o n u) (other : m ≠ n) :
    (exec (readOuter p (.str m)) u).1 = (exec (readOuter p (.str m)) w).1 := by
  cases declared with
  | real => rfl
  | supplied _ asked => exact has.answers_again asked m
  | @put s t absent asked lacks is_open =>
    obtain ⟨has', resolves, -⟩ := has.supplement asked
    have differ : (Name.ofText n).key ≠ Key.text m := fun equal => other (Key.text.inj equal).symm
    have supplied : supply (Plugin.withProperty t o n .undefined) s (Name.ofText m) = supply t s (Name.ofText m) := by
      unfold supply
      split
      · exact Heap.search_put_other differ _
      · rfl
    exact has.same_answer (has'.withProperty is_open n Datum.below_undefined) (resolves.advances.settings has.bound).2
      ((Heap.search_put_other differ o).trans (has.search_eq resolves m)) asked
      (has'.supplement_declared ((has.search_eq resolves n).trans absent) (has.supplement_again asked)) supplied

theorem declares (has : HasOuters w p o) (declared : Declared w p o n u) (m : Text) :
    Declares n m (exec (readOuter p (.str m)) w).1 (exec (readOuter p (.str m)) u).1 := by
  by_cases same : m = n
  · subst same
    cases declared with
    | real => exact .inl rfl
    | supplied _ asked => exact .inl (has.answers_again asked m)
    | @put s t absent asked lacks =>
      refine .inr ⟨rfl, ?_, by rw [(has.supplement asked).1.read_declared]⟩
      rw [has.read_absent absent asked]
      change supply t s (Name.ofText m) >>= suppliedOuter (w.plugin p).config m = _
      rw [lacks]
      rfl
  · exact .inl (has.other_answer declared same)

/-- What was read, or reported, is so again. -/
theorem reads_again {m : Text} {a : Except Fault Value} (has : HasOuters w p o)
    (run : exec (readOuter p (.str m)) w = (a, u)) (known : ∀ e, a = .error e → e = .unreachable m) :
    HasOuters u p o ∧ (exec (readOuter p (.str m)) u).1 = a := by
  cases real : w.heap.search o m with
  | error e =>
    have ended := readOuter_stopped has.outers real
    obtain ⟨rfl, rfl⟩ := Prod.mk.inj (ended.symm.trans run)
    exact ⟨has, congrArg Prod.fst ended⟩
  | ok found =>
    cases found with
    | some y =>
      have ended := readOuter_real has.outers has.plain real
      obtain ⟨rfl, rfl⟩ := Prod.mk.inj (ended.symm.trans run)
      exact ⟨has, congrArg Prod.fst ended⟩
    | none =>
      rcases asked : exec (supplementOf p (.obj o)) w with ⟨r, t⟩
      obtain ⟨has', -, unreported⟩ := has.supplement asked
      have ended := has.read_absent real asked
      obtain ⟨answer, rfl⟩ := Prod.mk.inj (ended.symm.trans run)
      cases r with
      | error e =>
        have report := known e answer.symm
        have plain := unreported e rfl
        rw [report] at plain
        cases plain
      | ok s =>
        refine ⟨has', (has.answers_again asked m).trans ?_⟩
        rw [run]

end HasOuters

/-- Outer names, for a plugin whose bindings are an object that is no callable. What was set is read next. A name is
reported only where reading it off the bindings gives undefined. When a name was declared it can be read, and every name
is read, or fails, as it would have been before, unless it is the declared one and was reported: this one is undefined
then. The same holds for a name that was in fact read, or reported, before the declaration. -/
theorem outer_bindings (reachable : ReachableUnder (fun u d => d.Given False u) w) (bound : p < w.plugins.size)
    (outers : (w.plugin p).outers = .obj o) (plain : w.isCallable (.obj o) = false) (n : Text) :
    (∀ x y u, exec (setOuter p (.str n) x) w = (.ok y, u) → exec (readOuter p (.str n)) u = (.ok x, u)) ∧
    (∀ m u, exec (readOuter p (.str n)) w = (.error (.unreachable m), u) →
      m = n ∧ exec (read p (.obj o) (.str n)) w = (.ok .undefined, u)) ∧
    (∀ u, exec (initOuter p (.str n)) w = (.ok (), u) → (∃ y, exec (readOuter p (.str n)) u = (.ok y, u)) ∧
      ∀ m, Declares n m (exec (readOuter p (.str m)) w).1 (exec (readOuter p (.str m)) u).1) ∧
    ∀ m a v u, exec (readOuter p (.str m)) w = (a, v) → (∀ e, a = .error e → e = .unreachable m) →
      exec (initOuter p (.str n)) v = (.ok (), u) → Declares n m a (exec (readOuter p (.str m)) u).1 := by
  have has : HasOuters w p o := ⟨reachable.reachable, reachable.intact, bound, outers, plain⟩
  refine ⟨fun x y u run => ?_, fun m u run => ?_, fun u run => ?_, fun m a v u read known run => ?_⟩
  · rw [setOuter, exec_get_bind, outers] at run
    obtain ⟨-, -, rfl⟩ := setting_ok run
    exact has.read_declared
  · obtain ⟨report, undefined⟩ := has.reported run rfl
    exact ⟨Fault.unreachable.inj report, undefined⟩
  · have declared := has.declared run
    exact ⟨has.read_after declared, has.declares declared⟩
  · obtain ⟨has', again⟩ := has.reads_again read known
    have changes := has'.declares (has'.declared run) m
    rwa [again] at changes

/-- A name that is declared over the bindings of a family was reported, is undefined then, and is read back when it is
set; what the bindings inherit is read as before. -/
theorem outer_bindings_family : ∃ w u v, ReachableUnder (fun u d => d.Given False u) w ∧ 0 < w.plugins.size ∧
    (w.plugin 0).outers = .obj 11 ∧ w.isCallable (.obj 11) = false ∧
    exec (initOuter 0 (.str "x")) w = (.ok (), u) ∧ (exec (readOuter 0 (.str "x")) w).1 = .error (.unreachable "x") ∧
    (exec (readOuter 0 (.str "x")) u).1 = .ok .undefined ∧
    (exec (readOuter 0 (.str "valueOf")) u).1 = (exec (readOuter 0 (.str "valueOf")) w).1 ∧
    exec (setOuter 0 (.str "x") (.int 1)) w = (.ok (.int 1), v) ∧ exec (readOuter 0 (.str "x")) v = (.ok (.int 1), v) := by
  let w := World.after Effect.family
  have reachable : ReachableUnder (fun u d => d.Given False u) w :=
    (reachableUnder_of_allowed (Effect.family_lawful fun _ => True)).loosen fun _ _ allowed => allowed.1.given
  have facts : 0 < w.plugins.size ∧ (w.plugin 0).outers = .obj 11 ∧ w.isCallable (.obj 11) = false ∧
      (exec (initOuter 0 (.str "x")) w).1.toOption = some () ∧ (exec (readOuter 0 (.str "x")) w).1.toOption = none ∧
      (exec (readOuter 0 (.str "x")) (exec (initOuter 0 (.str "x")) w).2).1.toOption = some .undefined ∧
      (exec (setOuter 0 (.str "x") (.int 1)) w).1.toOption = some (.int 1) := by
    decide +kernel
  clear_value w
  obtain ⟨bound, outers, plain, declared, before, after, set⟩ := facts
  have run : exec (initOuter 0 (.str "x")) w = (.ok (), _) := Prod.ext (eq_ok_of_toOption declared) rfl
  have put : exec (setOuter 0 (.str "x") (.int 1)) w = (.ok (.int 1), _) := Prod.ext (eq_ok_of_toOption set) rfl
  obtain ⟨reads, -, declares, -⟩ := outer_bindings reachable bound outers plain "x"
  have changes := (declares _ run).2
  obtain ⟨-, reported, undefined⟩ := (changes "x").resolve_left fun same => by
    rw [same, before] at after
    cases after
  have other := (changes "valueOf").resolve_right fun same => absurd same.1 (by decide)
  exact ⟨w, _, _, reachable, bound, outers, plain, run, reported, undefined, other, put, reads _ _ _ put⟩

end Plugin

end Overlay
