import Overlay.Proofs.Contents
import Overlay.Proofs.OneShadow

/-!
# The names that are listed

An enumeration through a plugin lists the real names of a value and then those of its supplement that the value really
lacks. Each of the two lists is free of duplicates, because a walk along a path leaves out what a nearer object owns,
be it hidden or not; and they are disjoint, because the second is filtered by the whole real path and not by what the
first one shows.
-/

namespace Overlay
set_option autoImplicit false

open Act World

/-! ## Lists without duplicates -/

namespace Heap
variable {h : Heap} {o : ObjId} {m : Name}

/-- An enumeration leaves out what was seen. -/
theorem not_seen_of_mem {seen : List Name} {bags : List Bag} (listed : m ∈ enumerableFrom seen bags) :
    m.key ∉ seen.map (·.key) := by
  induction bags generalizing seen with
  | nil => cases listed
  | cons b rest ih =>
    rw [enumerableFrom] at listed
    rcases List.mem_append.1 listed with here | later
    · obtain ⟨q, kept, rfl⟩ := List.mem_map.1 here
      have unseen := (List.mem_filter.1 kept).2
      intro among
      obtain ⟨k, before, same⟩ := List.mem_map.1 among
      have contained : seen.contains q.name = true := by
        rw [List.contains_iff_exists_mem_beq]
        refine ⟨k, before, ?_⟩
        show (q.name.key == k.key) = true
        rw [same, beq_self_eq_true]
      rw [contained] at unseen
      simp at unseen
    · intro among
      apply ih later
      rw [List.map_append]
      exact List.mem_append_left _ among

/-- The enumeration of bags with distinct names lists no name twice. -/
theorem nodup_enumerableFrom {bags : List Bag} (distinct : ∀ b ∈ bags, b.keys.Nodup) (seen : List Name) :
    ((enumerableFrom seen bags).map (·.key)).Nodup := by
  induction bags generalizing seen with
  | nil => exact List.nodup_nil
  | cons b rest ih =>
    rw [enumerableFrom, List.map_append]
    have own : (((b.props.filter fun q => q.enumerable && !seen.contains q.name).map (·.name)).map (·.key)).Nodup := by
      rw [List.map_map]
      exact (distinct b List.mem_cons_self).sublist (List.filter_sublist.map _)
    refine own.append (ih (fun c among => distinct c (List.mem_cons_of_mem b among)) _) ?_
    -- what comes later was not seen here, and all that is listed here was
    intro k here later
    obtain ⟨m, listed, rfl⟩ := List.mem_map.1 later
    apply not_seen_of_mem listed
    obtain ⟨n, among, same⟩ := List.mem_map.1 here
    obtain ⟨q, kept, rfl⟩ := List.mem_map.1 among
    rw [List.map_append]
    apply List.mem_append_right
    rw [← same, Bag.names, List.map_map]
    exact List.mem_map.2 ⟨q, (List.mem_filter.1 kept).1, rfl⟩

theorem Distinct.nodup_enumerableKeys {names : List Name} (distinct : h.Distinct)
    (answer : h.enumerableKeys o = .ok names) : (names.map (·.key)).Nodup := by
  obtain ⟨-, rfl⟩ := enumerableKeys_ok answer
  apply nodup_enumerableFrom
  intro b among
  obtain ⟨a, -, rfl⟩ := List.mem_map.1 among
  exact distinct a

end Heap

namespace Host
variable {w : World} {h : HostId} {x : Value}

/-- The name is reachable on the real path of a value. -/
def reaches (w : World) (h : HostId) (x : Value) (n : Name) : Bool :=
  match search w h x n.value with
  | .ok found => found.isSome
  | .error _ => false

theorem reaches_of_search {n : Name} {found : Option Value} (answer : search w h x n.value = .ok found) :
    reaches w h x n = found.isSome := by
  rw [reaches, answer]

theorem reaches_of_key {m n : Name} (same : m.key = n.key) : reaches w h x m = reaches w h x n := by
  rw [reaches, search_of_key same, reaches]

theorem reaches_of_listed {names : List Name} {m : Name} (listing : enumerableKeys w h x = .ok names)
    (listed : m ∈ names) : reaches w h x m = true := by
  obtain ⟨found, answer, there⟩ := search_of_listing listing m
  rw [reaches_of_search answer]
  exact Option.isSome_iff_ne_none.2 (there listed)

theorem nodup_enumerableKeys {names : List Name} (distinct : w.heap.Distinct)
    (listing : enumerableKeys w h x = .ok names) : (names.map (·.key)).Nodup := by
  rw [enumerableKeys] at listing
  cases start : searchStart w h x with
  | error e =>
    rw [start] at listing
    cases listing
  | ok found =>
    rw [start] at listing
    cases found with
    | none =>
      cases listing
      exact List.nodup_nil
    | some o => exact distinct.nodup_enumerableKeys listing

end Host

/-! ## Supplements -/

/-- A plugin keeps its host and its settings. -/
theorem World.Advances.settings {w u : World} {p : PluginId} (advances : Advances w u) (bound : p < w.plugins.size) :
    (u.plugin p).host = (w.plugin p).host ∧ (u.plugin p).config = (w.plugin p).config := by
  obtain ⟨more, grown⟩ := advances.shadows p bound
  rw [grown]
  exact ⟨rfl, rfl⟩

namespace Plugin
variable {w t : World} {p : PluginId} {x s : Value} {strict : Prop}

theorem exec_supplementOf_callable (callable : w.isCallable x = true) :
    exec (supplementOf p x) w = exec (do return .obj (← shadowOf p x)) w := by
  rw [supplementOf, exec_get_bind]
  simp only [callable, if_true]

theorem exec_supplementOf_plain (plain : w.isCallable x = false) : exec (supplementOf p x) w =
    exec (liftM (Host.directConstructor w (w.plugin p).host x) >>= pseudoPrototype p) w := by
  rw [supplementOf, exec_get_bind]
  simp only [plain, Bool.false_eq_true, if_false]

/-- A supplement that was given is given again, and nothing more is made. -/
theorem supplementOf_again (reachable : Reachable w) (intact : w.Intact strict) (bound : p < w.plugins.size)
    (there : x.Below w.heap.size) (run : exec (supplementOf p x) w = (.ok s, t)) :
    exec (supplementOf p x) t = (.ok s, t) := by
  have resolves := (supplementOf_asking p x w).world reachable.sound
  rw [run] at resolves
  have callable_eq := resolves.sameLinks.isCallable there
  cases callable : w.isCallable x with
  | true =>
    rw [exec_supplementOf_callable callable] at run
    obtain ⟨o, u, given, ended⟩ := exists_of_exec_bind run
    obtain ⟨answer, rfl⟩ := Prod.mk.inj ended
    obtain ⟨-, k, known, rfl⟩ := registered_of_shadowOf reachable given
    rw [exec_supplementOf_known known]
    exact congrArg (·, _) answer
  | false =>
    have again := run
    rw [exec_supplementOf_plain callable] at run
    obtain ⟨c, ctor, run⟩ := exists_of_exec_lift_bind run
    unfold pseudoPrototype at run
    rw [exec_get_bind] at run
    split at run
    · next function =>
      obtain ⟨o, u, given, looked⟩ := exists_of_exec_bind run
      rw [exec_get_bind, exec_lift] at looked
      obtain ⟨shown, rfl⟩ := Prod.mk.inj looked
      obtain ⟨-, k, known, rfl⟩ := registered_of_shadowOf reachable given
      obtain ⟨host, -⟩ := resolves.advances.settings bound
      rw [exec_supplementOf_plain (callable_eq.trans callable), host, resolves.directConstructor intact there, ctor,
        exec_lift_ok_bind]
      exact exec_pseudoPrototype_known known shown
    · -- nothing is made for what is no callable
      have same : t = w := by
        split at run
        · exact (congrArg Prod.snd run).symm
        · exact (congrArg Prod.snd run).symm
      rw [same] at again ⊢
      exact again

/-- The names that an enumeration of a supplement lists. -/
def supplementKeys (w : World) (supplement : Value) : Except Fault (List Name) :=
  match supplement with
  | .obj o => w.heap.enumerableKeys o
  | _ => .ok []

theorem nodup_supplementKeys {names : List Name} (distinct : w.heap.Distinct)
    (listing : supplementKeys w s = .ok names) : (names.map (·.key)).Nodup := by
  unfold supplementKeys at listing
  split at listing
  · exact distinct.nodup_enumerableKeys listing
  · cases listing
    exact List.nodup_nil

/-- What a supplement lists it has. -/
theorem supply_of_listed {names : List Name} {m : Name} (listing : supplementKeys w s = .ok names) (listed : m ∈ names) :
    ∃ y, supply w s m = .ok (some y) := by
  unfold supplementKeys at listing
  split at listing
  · exact Heap.search_of_enumerable listing listed
  · cases listing
    cases listed

/-! ## Names through a plugin -/

/-- The name is one that an enumeration takes from the supplement: the value really lacks it, and it is not hidden. -/
def isSupplied (w : World) (p : PluginId) (x : Value) (m : Name) : Bool :=
  !Host.reaches w (w.plugin p).host x m && !(w.plugin p).config.isHiddenName m.key

/-- Where every name has an answer, the names of the supplement are filtered. Of null and undefined nothing can be asked,
so that the filter ends for them only if there is no name. -/
theorem suppliedKeys_eq {names extra : List Name} {u : World}
    (answers : ∀ m : Name, ∃ found, Host.search w (w.plugin p).host x m.value = .ok found)
    (run : exec (suppliedKeys p x names) w = (.ok extra, u)) : u = w ∧ extra = names.filter (isSupplied w p x) := by
  cases nil : x.isNil with
  | true =>
    cases names with
    | nil =>
      obtain ⟨answer, rfl⟩ := Prod.mk.inj run
      exact ⟨rfl, (Except.ok.inj answer).symm⟩
    | cons n rest =>
      obtain ⟨e, stopped⟩ := suppliedKeys_nil (w := w) (p := p) nil n rest
      rw [stopped] at run
      cases run
  | false =>
    have tests (m : Name) : (do
        let found ← Host.search w (w.plugin p).host x m.value
        return !found.isSome && !(w.plugin p).config.isHiddenName m.key : Except Fault Bool) =
          .ok (isSupplied w p x m) := by
      obtain ⟨found, answer⟩ := answers m
      rw [isSupplied, Host.reaches_of_search answer, answer]
      rfl
    rw [suppliedKeys_still nil, filterM_ok tests] at run
    obtain ⟨answer, rfl⟩ := Prod.mk.inj run
    exact ⟨rfl, (Except.ok.inj answer).symm⟩

/-- A listing is made of the real names and of those of the supplement that are supplied. -/
theorem keys_parts {l : List Name} (sound : w.Sound) (intact : w.Intact strict) (bound : p < w.plugins.size)
    (there : x.Below w.heap.size) (listed : exec (keys p x) w = (.ok l, t)) :
    ∃ own names s, Host.enumerableKeys w (w.plugin p).host x = .ok own ∧ exec (supplementOf p x) w = (.ok s, t) ∧
      supplementKeys t s = .ok names ∧ l = own ++ names.filter (isSupplied w p x) := by
  rw [keys, exec_get_bind] at listed
  obtain ⟨own, real, listed⟩ := exists_of_exec_lift_bind listed
  obtain ⟨s, u, run, listed⟩ := exists_of_exec_bind listed
  split at listed
  · next o =>
    rw [exec_get_bind] at listed
    obtain ⟨names, listing, listed⟩ := exists_of_exec_lift_bind listed
    obtain ⟨extra, v, filtered, ended⟩ := exists_of_exec_bind listed
    -- the filter asks where the supplement is there, and gets the answers from before
    have resolves := (supplementOf_asking p x w).world sound
    rw [run] at resolves
    obtain ⟨host, config⟩ := resolves.advances.settings bound
    have same (m : Name) := resolves.hostSearch intact (w.plugin p).host there m
    have tests : isSupplied u p x = isSupplied w p x := by
      funext m
      rw [isSupplied, isSupplied, host, config, Host.reaches, same m, Host.reaches]
    obtain ⟨rfl, rfl⟩ := suppliedKeys_eq (fun m => by
      obtain ⟨found, answer, -⟩ := Host.search_of_listing real m
      exact ⟨found, by rw [host, same m, answer]⟩) filtered
    obtain ⟨answer, rfl⟩ := Prod.mk.inj ended
    refine ⟨own, names, _, real, run, listing, ?_⟩
    rw [← tests]
    exact (Except.ok.inj answer).symm
  · next other =>
    obtain ⟨answer, rfl⟩ := Prod.mk.inj listed
    refine ⟨own, [], s, real, run, ?_, ?_⟩
    · unfold supplementKeys
      split
      · next o => exact absurd rfl (other o)
      · rfl
    · rw [List.filter_nil, List.append_nil]
      exact (Except.ok.inj answer).symm

/-- A name that the value really has can be reached, whatever its supplement. -/
theorem canRead_real {m : Name} (base : x.isNil = false) (real : Host.reaches w (w.plugin p).host x m = true) :
    exec (canRead p m.value x) w = (.ok true, w) := by
  unfold Host.reaches at real
  split at real
  · next found answer =>
    have asked := Host.exec_has (w := w) (h := (w.plugin p).host) base m.value
    rw [answer] at asked
    rw [canRead, exec_get_bind, exec_bind_ok asked]
    simp only [real, if_true]
    rfl
  · cases real

/-- A name that the value really lacks and its supplement has can be reached. -/
theorem canRead_supplied {m : Name} {y : Value} (base : x.isNil = false)
    (absent : Host.search w (w.plugin p).host x m.value = .ok none) (run : exec (supplementOf p x) w = (.ok s, t))
    (found : supply t s m = .ok (some y)) : exec (canRead p m.value x) w = (.ok true, t) := by
  rw [canRead_absent base absent run]
  change ((·.isSome) <$> supply t s m, t) = _
  rw [found]
  rfl

/-- The names that an enumeration through a plugin lists, for every value and all settings. They are the real names, and
after them just those names of the supplement, in its own order, that are not reachable on the real path and not hidden
by the settings; no name is listed twice. Every name that is listed for a value that has properties can be reached,
where the listing was asked for and where it was given. -/
theorem listing_exact (reachable : ReachableUnder (fun u d => d.Given False u) w) (bound : p < w.plugins.size)
    (there : x.Below w.heap.size) {l : List Name} (listed : exec (keys p x) w = (.ok l, t)) :
    ∃ own names s, Host.enumerableKeys w (w.plugin p).host x = .ok own ∧
      exec (supplementOf p x) w = (.ok s, t) ∧ supplementKeys t s = .ok names ∧
      l = own ++ names.filter (fun m =>
        !Host.reaches w (w.plugin p).host x m && !(w.plugin p).config.isHiddenName m.key) ∧
      (l.map (·.key)).Nodup ∧
      (x.isNil = false → ∀ m ∈ l, exec (canRead p m.value x) t = (.ok true, t) ∧
        ∃ u, exec (canRead p m.value x) w = (.ok true, u)) := by
  have sound := reachable.reachable.sound
  have intact := reachable.intact
  obtain ⟨own, names, s, real, run, listing, rfl⟩ := keys_parts sound intact bound there listed
  have resolves := (supplementOf_asking p x w).world sound
  rw [run] at resolves
  have distinct := reachable.reachable.distinct
  have distinct' : t.heap.Distinct := resolves.advances.trail.distinct distinct
  refine ⟨own, names, s, real, run, listing, rfl, ?_, fun base m here => ?_⟩
  · rw [List.map_append]
    have supplied : ((names.filter (isSupplied w p x)).map (·.key)).Nodup :=
      (nodup_supplementKeys distinct' listing).sublist (List.filter_sublist.map _)
    refine (Host.nodup_enumerableKeys distinct real).append supplied ?_
    intro k before after
    obtain ⟨m, shown, rfl⟩ := List.mem_map.1 before
    obtain ⟨n, kept, same⟩ := List.mem_map.1 after
    have lacking := (List.mem_filter.1 kept).2
    rw [isSupplied, Host.reaches_of_key same, Host.reaches_of_listed real shown] at lacking
    cases lacking
  · obtain ⟨host, -⟩ := resolves.advances.settings bound
    have same := resolves.hostSearch intact (w.plugin p).host there m
    rcases List.mem_append.1 here with shown | kept
    · have reached := Host.reaches_of_listed real shown
      have reached' : Host.reaches t (t.plugin p).host x m = true := by
        rw [host, Host.reaches, same]
        exact reached
      exact ⟨canRead_real base reached', w, canRead_real base reached⟩
    · obtain ⟨among, lacking⟩ := List.mem_filter.1 kept
      obtain ⟨y, found⟩ := supply_of_listed listing among
      obtain ⟨reached, answer, -⟩ := Host.search_of_listing real m
      rw [isSupplied, Host.reaches_of_search answer] at lacking
      have absent : Host.search w (w.plugin p).host x m.value = .ok none := by
        cases reached with
        | none => exact answer
        | some z => cases lacking
      refine ⟨canRead_supplied base (by rw [host, same, absent]) ?_ found, t, canRead_supplied base absent run found⟩
      exact supplementOf_again reachable.reachable intact bound there run

/-- An object with a visible name on its real path and another one on its supplement lists the two, and both can be
reached. -/
theorem listing_exact_detached : ∃ w l t,
    ReachableUnder (fun u d => d.Given False u) w ∧ 0 < w.plugins.size ∧ (Datum.obj 21).Below w.heap.size ∧
    exec (keys 0 (.obj 21)) w = (.ok l, t) ∧ l.map (·.key) = [.text "constructor", .text "extra"] ∧
    (l.map (·.key)).Nodup ∧ ∀ m ∈ l, exec (canRead 0 m.value (.obj 21)) t = (.ok true, t) := by
  let w := World.after detachedFamily
  have reachable : ReachableUnder (fun u d => d.Given False u) w := detachedFamily_given
  have facts : 0 < w.plugins.size ∧ 21 < w.heap.size ∧
      (exec (keys 0 (.obj 21)) w).1.toOption.map (·.map (·.key)) = some [.text "constructor", .text "extra"] := by
    decide +kernel
  clear_value w
  obtain ⟨bound, inside, answer⟩ := facts
  obtain ⟨l, listing, same⟩ := Option.map_eq_some_iff.1 answer
  have listed : exec (keys 0 (.obj 21)) w = (.ok l, _) := Prod.ext (eq_ok_of_toOption listing) rfl
  obtain ⟨own, names, s, -, -, -, -, distinct, reached⟩ :=
    listing_exact reachable bound (Datum.below_obj.2 inside) listed
  exact ⟨w, l, _, reachable, bound, Datum.below_obj.2 inside, listed, same, distinct, fun m here => (reached rfl m here).1⟩

end Plugin

end Overlay
