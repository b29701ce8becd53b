import Overlay.Proofs.Failure
import Overlay.Proofs.Isolation

/-!
# What the views show

A plugin's code sees the properties of a value in three ways: it reads one, it asks whether a name can be reached, and
it lists the names. Each view looks at the real value and at its supplement by itself. Coercion members are the one
point on which they differ over the supplement: reading does not serve them, while the other two views show them. For a
callable they differ over the real function as well, which reading does not look at.
-/

namespace Overlay
set_option autoImplicit false

open Act World

/-! ## Lists and questions -/

section Filters
variable {α : Type} {w : World}

/-- A filter whose test changes nothing asks one question. -/
theorem Act.exec_filterM {test : α → Act Bool} {q : α → Except Fault Bool} (still : ∀ a, exec (test a) w = (q a, w))
    (l : List α) : exec (l.filterM test) w = (l.filterM q, w) := by
  have loop : ∀ kept, exec (List.filterAuxM test l kept) w = (List.filterAuxM q l kept, w) := by
    induction l with
    | nil => exact fun kept => rfl
    | cons a rest ih =>
      intro kept
      rw [List.filterAuxM, List.filterAuxM, exec_bind, still a]
      cases q a with
      | error e => rfl
      | ok keep => exact ih _
  rw [List.filterM, List.filterM, exec_bind, loop]
  cases List.filterAuxM q l [] <;> rfl

theorem mem_of_filterM {q : α → Except Fault Bool} {l r : List α} (answer : l.filterM q = .ok r) {a : α}
    (kept : a ∈ r) : a ∈ l ∧ q a = .ok true := by
  have loop : ∀ before after, List.filterAuxM q l before = .ok after → ∀ b ∈ after,
      b ∈ before ∨ b ∈ l ∧ q b = .ok true := by
    clear answer
    induction l with
    | nil =>
      intro before after same b listed
      cases same
      exact .inl listed
    | cons c rest ih =>
      intro before after same b listed
      rw [List.filterAuxM] at same
      cases asked : q c with
      | error e =>
        rw [asked] at same
        cases same
      | ok keep =>
        rw [asked] at same
        rcases ih _ after same b listed with old | ⟨later, passed⟩
        · cases keep with
          | false => exact .inl old
          | true =>
            rcases List.mem_cons.1 old with rfl | older
            · exact .inr ⟨List.mem_cons_self, asked⟩
            · exact .inl older
        · exact .inr ⟨List.mem_cons_of_mem c later, passed⟩
  rw [List.filterM] at answer
  cases found : List.filterAuxM q l [] with
  | error e =>
    rw [found] at answer
    cases answer
  | ok after =>
    rw [found] at answer
    cases answer
    exact (loop [] after found a (List.mem_reverse.1 kept)).resolve_left (List.not_mem_nil)

end Filters

namespace Heap
variable {h : Heap} {o : ObjId} {k : Key} {m : Name}

/-- A name that an enumeration lists is owned by one of the bags. -/
theorem mem_enumerableFrom {seen : List Name} {bags : List Bag} (listed : m ∈ enumerableFrom seen bags) :
    ∃ b ∈ bags, b.owns m.key = true := by
  induction bags generalizing seen with
  | nil => cases listed
  | cons b rest ih =>
    rw [enumerableFrom] at listed
    rcases List.mem_append.1 listed with here | later
    · obtain ⟨q, kept, rfl⟩ := List.mem_map.1 here
      refine ⟨b, List.mem_cons_self, ?_⟩
      exact List.any_eq_true.2 ⟨q, (List.mem_filter.1 kept).1, beq_self_eq_true _⟩
    · obtain ⟨b', among, owned⟩ := ih later
      exact ⟨b', List.mem_cons_of_mem b among, owned⟩

theorem enumerableKeys_ok {names : List Name} (answer : h.enumerableKeys o = .ok names) :
    h.isWhole o = true ∧ names = enumerableFrom [] ((h.path o).map fun p => (h.get p).bag) := by
  rw [enumerableKeys, atEnd] at answer
  split at answer
  · next whole => exact ⟨whole, (Except.ok.inj answer).symm⟩
  · cases answer

/-- A name that an enumeration lists is found by a look-up. -/
theorem search_of_enumerable {names : List Name} (answer : h.enumerableKeys o = .ok names) (listed : m ∈ names) :
    ∃ y, h.search o m.key = .ok (some y) := by
  obtain ⟨-, rfl⟩ := enumerableKeys_ok answer
  obtain ⟨b, among, owned⟩ := mem_enumerableFrom listed
  obtain ⟨a, on, rfl⟩ := List.mem_map.1 among
  have there : (h.owner? o m.key).isSome = true := List.find?_isSome.2 ⟨a, on, owned⟩
  obtain ⟨q, owner⟩ := Option.isSome_iff_exists.1 there
  exact ⟨_, by rw [search, owner]⟩

/-- A name that no object on a whole path owns is not found. -/
theorem search_of_not_owned (whole : h.isWhole o = true) (lacking : ∀ a ∈ h.path o, h.owns a k = false) :
    h.search o k = .ok none := by
  have owner : h.owner? o k = none := List.find?_eq_none.2 fun a on => by simp [lacking a on]
  rw [search, owner, atEnd, if_pos whole]

/-- A path on which a name is not found is whole. -/
theorem whole_of_search (absent : h.search o k = .ok none) : h.isWhole o = true := by
  rw [search] at absent
  split at absent
  · cases absent
  · rw [atEnd] at absent
    split at absent
    · next whole => exact whole
    · cases absent

end Heap

/-! ## Real properties -/

namespace Host
variable {w u : World} {h : HostId} {x : Value} {o : ObjId}

theorem search_of_start (start : searchStart w h x = .ok (some o)) (n : Name) :
    search w h x n.value = w.heap.search o n.key := by
  rw [search, start]
  change (Key.ofValue n.value >>= fun k => w.heap.search o k) = _
  rw [n.key_ofValue]
  rfl

theorem search_of_no_start (start : searchStart w h x = .ok none) (name : Value) : search w h x name = .ok none := by
  rw [search, start]
  rfl

theorem search_of_key {m n : Name} (same : m.key = n.key) : search w h x m.value = search w h x n.value := by
  cases start : searchStart w h x with
  | error e =>
    rw [search, search, start]
    rfl
  | ok found =>
    cases found with
    | none => rw [search_of_no_start start, search_of_no_start start]
    | some o => rw [search_of_start start, search_of_start start, same]

/-- Where names can be listed, every look-up has an answer, and finds what is listed. -/
theorem search_of_listing {names : List Name} (listing : enumerableKeys w h x = .ok names) (m : Name) :
    ∃ found, search w h x m.value = .ok found ∧ (m ∈ names → found ≠ none) := by
  rw [enumerableKeys] at listing
  cases start : searchStart w h x with
  | error e =>
    rw [start] at listing
    cases listing
  | ok found =>
    rw [start] at listing
    cases found with
    | none =>
      cases listing
      exact ⟨none, search_of_no_start start _, by rintro ⟨⟩⟩
    | some o =>
      have listed : w.heap.enumerableKeys o = .ok names := listing
      obtain ⟨found, answer⟩ := Heap.search_ends (Heap.enumerableKeys_ok listed).1 m.key
      refine ⟨found, (search_of_start start m).trans answer, fun here missing => ?_⟩
      obtain ⟨y, there⟩ := Heap.search_of_enumerable listed here
      rw [there] at answer
      rw [← Except.ok.inj answer] at missing
      cases missing

/-- Where a look-up finds that a name is missing, names can be listed. -/
theorem listing_of_search {n : Name} (absent : search w h x n.value = .ok none) :
    ∃ names, enumerableKeys w h x = .ok names := by
  cases start : searchStart w h x with
  | error e =>
    rw [search, start] at absent
    cases absent
  | ok found =>
    rw [enumerableKeys, start]
    cases found with
    | none => exact ⟨[], rfl⟩
    | some o =>
      rw [search_of_start start] at absent
      exact Heap.enumerableKeys_ends (Heap.whole_of_search absent)

end Host

namespace World
variable {strict : Prop} {w u : World} {p : PluginId} {x : Value}

/-- The objects below `n` have the same links and host functions in both worlds, and the hosts are the same. -/
structure SameLinks (n : Nat) (w u : World) : Prop where
  links : ∀ o, o < n → (u.heap.get o).proto = (w.heap.get o).proto
  functions : ∀ o, o < n → u.heap.hostFn? o = w.heap.hostFn? o
  hosts : u.hosts = w.hosts

namespace SameLinks

theorem hostFn? (same : SameLinks w.heap.size w u) (below : x.Below w.heap.size) : u.hostFn? x = w.hostFn? x := by
  rcases x with _ | _ | _ | _ | _ | _ | _ | _ | _ | (o | _ | _ | _ | _)
  case ref.object => exact same.functions o (Datum.below_obj.1 below)
  all_goals rfl

theorem isCallable (same : SameLinks w.heap.size w u) (below : x.Below w.heap.size) :
    u.isCallable x = w.isCallable x := by
  have function := same.hostFn? below
  unfold World.isCallable
  split
  · rfl
  · rw [function]

theorem prototypeOf (same : SameLinks w.heap.size w u) (intact : w.Intact strict) (h : HostId)
    (below : x.Below w.heap.size) : Host.prototypeOf u h x = Host.prototypeOf w h x := by
  have host : u.host h = w.host h := by rw [World.host, same.hosts, World.host]
  unfold Host.prototypeOf
  split
  · next o => rw [same.links o (Datum.below_obj.1 below)]
  · rw [same.isCallable below, host]
    split
    · rfl
    · split
      · next ctor listed =>
        obtain ⟨kind, -, entry⟩ := Option.bind_eq_some_iff.1 listed
        have given := intact.primitives h _ (Host.mem_primitives entry)
        rw [Host.primitivePrototype, Host.primitivePrototype, same.hostFn? given]
      · rfl

theorem searchStart (same : SameLinks w.heap.size w u) (intact : w.Intact strict) (h : HostId)
    (below : x.Below w.heap.size) : Host.searchStart u h x = Host.searchStart w h x := by
  unfold Host.searchStart
  split
  · rfl
  · rw [same.prototypeOf intact h below]

end SameLinks

theorem Resolves.sameLinks (resolves : Resolves p w.heap.size w u) : SameLinks w.heap.size w u where
  links := fun o old => by rw [resolves.old o old]
  functions := fun o old => by rw [Heap.hostFn?, resolves.old o old, Heap.hostFn?]
  hosts := resolves.hosts

theorem Intact.searchStart (intact : w.Intact strict) (h : HostId) (below : x.Below w.heap.size) :
    Yields (fun start => ∀ o, start = some o → o < w.heap.size) (Host.searchStart w h x) := by
  unfold Host.searchStart
  split
  · next o =>
    refine .ok fun a same => ?_
    cases same
    exact Datum.below_obj.1 below
  · refine .bind (intact.prototypeOf h x) fun proto inside => ?_
    split
    · exact .ok (by rintro o ⟨⟩)
    · refine .ok fun a same => ?_
      cases same
      exact Datum.below_obj.1 inside
    · exact .error _

/-- Making shadows changes no real property of what was there. -/
theorem Resolves.hostSearch (resolves : Resolves p w.heap.size w u) (intact : w.Intact strict) (h : HostId)
    (below : x.Below w.heap.size) (n : Name) : Host.search u h x n.value = Host.search w h x n.value := by
  have same := resolves.sameLinks.searchStart intact h below
  cases start : Host.searchStart w h x with
  | error e =>
    rw [start] at same
    rw [Host.search, Host.search, same, start]
    rfl
  | ok found =>
    rw [start] at same
    cases found with
    | none => rw [Host.search_of_no_start same, Host.search_of_no_start start]
    | some o =>
      have inside := intact.searchStart h below _ start o rfl
      rw [Host.search_of_start same, Host.search_of_start start]
      exact Heap.search_congr (fun a on => resolves.old a (Nat.lt_of_le_of_lt (Heap.le_of_mem_path on) inside)) n.key

end World

theorem Effect.Lawful.given {w : World} {d : Effect} (lawful : d.Lawful w) : d.Given False w := by
  cases d with
  | newObject proto members => exact ⟨lawful.1, lawful.2.1, nofun⟩
  | newFunction impl s proto prototype =>
    exact ⟨lawful.1, lawful.2.1, lawful.2.2.1, lawful.2.2.2.1, nofun⟩
  | _ => exact lawful

/-! ## Views -/

namespace Plugin
variable {w u : World} {p : PluginId} {x : Value} {n : Name} {r : Except Fault Value}

/-- What a supplement has for a name. -/
def supply (w : World) (supplement : Value) (n : Name) : Except Fault (Option Value) :=
  match supplement with
  | .obj o => w.heap.search o n.key
  | _ => .ok none

/-- What reading makes of it: it serves no coercion members. -/
def served (config : Config) (n : Name) (found : Option Value) : Value :=
  if config.isCoercionMember n.key then .undefined else found.getD .undefined

theorem supply_other {s : Value} (other : ∀ o, s ≠ .obj o) : supply w s n = .ok none := by
  unfold supply
  split
  · next o => exact absurd rfl (other o)
  · rfl

/-- For what is no coercion member, the supplement has something just if reading serves it. -/
theorem reached_iff_served {config : Config} (proper : config.isCoercionMember n.key = false) :
    (r >>= fun s => (·.isSome) <$> supply u s n) = .ok true ↔
      ∃ s y, r = .ok s ∧ supply u s n = .ok (some y) ∧ (r >>= fun s => served config n <$> supply u s n) = .ok y := by
  constructor
  · intro reached
    cases r with
    | error e => cases reached
    | ok s =>
      change (·.isSome) <$> supply u s n = .ok true at reached
      cases answer : supply u s n with
      | error e =>
        rw [answer] at reached
        cases reached
      | ok found =>
        rw [answer] at reached
        cases found with
        | none => cases reached
        | some y =>
          refine ⟨s, y, rfl, answer, ?_⟩
          change served config n <$> supply u s n = .ok y
          rw [answer]
          simp [served, proper]
  · rintro ⟨s, y, rfl, answer, -⟩
    change (·.isSome) <$> supply u s n = .ok true
    rw [answer]
    rfl

theorem supplied_eq (w : World) (config : Config) (s : Value) (n : Name) :
    supplied w config s n.value =
      (fun found => if config.isCoercionMember n.key then none else found) <$> supply w s n := by
  unfold supplied
  split
  · rw [n.key_ofValue]
    rfl
  · next other =>
    rw [supply_other other]
    cases config.isCoercionMember n.key <;> rfl

/-- A name that the value really lacks can be reached if the supplement has it. -/
theorem canRead_absent (base : x.isNil = false) (absent : Host.search w (w.plugin p).host x n.value = .ok none)
    (run : exec (supplementOf p x) w = (r, u)) :
    exec (canRead p n.value x) w = (r >>= fun s => (·.isSome) <$> supply u s n, u) := by
  have lacks : exec (Host.has (w.plugin p).host x n.value) w = (.ok false, w) := by
    rw [Host.exec_has base, absent]
    rfl
  rw [canRead, exec_get_bind, exec_bind_ok lacks]
  simp only [Bool.false_eq_true, if_false]
  rw [exec_bind, run]
  cases r with
  | error e => rfl
  | ok s =>
    dsimp only
    split
    · rw [exec_get_bind, n.key_ofValue]
      rfl
    · next other =>
      change _ = ((·.isSome) <$> supply u s n, u)
      rw [supply_other other]
      rfl

/-- A name that the value really lacks is read off the supplement, unless it is a coercion member. -/
theorem read_absent (base : x.isNil = false) (plain : w.isCallable x = false)
    (absent : Host.search w (w.plugin p).host x n.value = .ok none)
    (later : Host.search u (w.plugin p).host x n.value = .ok none) (run : exec (supplementOf p x) w = (r, u)) :
    exec (read p x n.value) w = (r >>= fun s => served (w.plugin p).config n <$> supply u s n, u) := by
  have lacks : exec (Host.has (w.plugin p).host x n.value) w = (.ok false, w) := by
    rw [Host.exec_has base, absent]
    rfl
  rw [supplementOf, exec_get_bind] at run
  simp only [plain, Bool.false_eq_true, if_false] at run
  rw [read, exec_get_bind]
  simp only [plain, Bool.false_eq_true, if_false]
  rw [exec_bind_ok lacks]
  simp only [Bool.false_eq_true, if_false]
  cases ctor : Host.directConstructor w (w.plugin p).host x with
  | error e =>
    rw [ctor] at run
    cases run
    rfl
  | ok c =>
    rw [ctor, exec_lift_ok_bind] at run
    rw [exec_lift_ok_bind, exec_bind, run]
    cases r with
    | error e => rfl
    | ok s =>
      dsimp only
      rw [exec_get_bind, supplied_eq]
      change _ = (served (w.plugin p).config n <$> supply u s n, u)
      unfold served
      cases supply u s n with
      | error e => rfl
      | ok found =>
        have unserved : exec (Host.read (w.plugin p).host x n.value) u = (.ok .undefined, u) := by
          rw [Host.exec_read base, later]
          rfl
        cases (w.plugin p).config.isCoercionMember n.key with
        | true => exact unserved
        | false =>
          cases found with
          | none => exact unserved
          | some y => rfl

theorem suppliedKeys_still (base : x.isNil = false) (names : List Name) :
    exec (suppliedKeys p x names) w = (names.filterM fun m => do
      let found ← Host.search w (w.plugin p).host x m.value
      return !found.isSome && !(w.plugin p).config.isHiddenName m.key, w) := by
  rw [suppliedKeys, exec_get_bind]
  refine exec_filterM (fun m => ?_) names
  rw [exec_bind, Host.exec_has base]
  cases Host.search w (w.plugin p).host x m.value <;> rfl

/-- What the names of a value have beside its real ones are names that it really lacks and its supplement has. -/
theorem keys_ok {l : List Name} {t : World} {s : Value} (base : x.isNil = false)
    (run : exec (supplementOf p x) w = (.ok s, u)) (listed : exec (keys p x) w = (.ok l, t)) :
    ∃ own extra, l = own ++ extra ∧ Host.enumerableKeys w (w.plugin p).host x = .ok own ∧
      ∀ m ∈ extra, Host.search u (u.plugin p).host x m.value = .ok none ∧
        ∃ o y, s = .obj o ∧ u.heap.search o m.key = .ok (some y) := by
  rw [keys, exec_get_bind] at listed
  cases real : Host.enumerableKeys w (w.plugin p).host x with
  | error e =>
    rw [real] at listed
    cases listed
  | ok own =>
    rw [real, exec_lift_ok_bind, exec_bind_ok run] at listed
    split at listed
    · next o =>
      rw [exec_get_bind] at listed
      cases enumerated : u.heap.enumerableKeys o with
      | error e =>
        rw [enumerated] at listed
        cases listed
      | ok names =>
        rw [enumerated, exec_lift_ok_bind, exec_bind, suppliedKeys_still base] at listed
        cases filtered : (names.filterM fun m => do
            let found ← Host.search u (u.plugin p).host x m.value
            return !found.isSome && !(u.plugin p).config.isHiddenName m.key : Except Fault (List Name)) with
        | error e =>
          rw [filtered] at listed
          cases listed
        | ok extra =>
          rw [filtered] at listed
          cases listed
          refine ⟨own, extra, rfl, rfl, fun m kept => ?_⟩
          obtain ⟨among, passed⟩ := mem_of_filterM filtered kept
          obtain ⟨y, found⟩ := Heap.search_of_enumerable enumerated among
          refine ⟨?_, o, y, rfl, found⟩
          cases there : Host.search u (u.plugin p).host x m.value with
          | error e =>
            rw [there] at passed
            cases passed
          | ok found =>
            rw [there] at passed
            cases found with
            | none => rfl
            | some z => cases passed
    · cases listed
      exact ⟨l, [], (List.append_nil l).symm, rfl, nofun⟩

/-- The three views of the supplement of a value that is no callable. A name that the value really lacks can be reached
just if the supplement has it, and reading serves what the supplement has, unless the name is a coercion member: for
any other name it can be reached just if reading serves the supplement's value. Each name that is listed beside the real
ones can be reached, and is read off the supplement unless it is a coercion member. Where there is no supplement because
a question about it has no answer, no view has one. -/
theorem supplement_views (reachable : ReachableUnder (fun u d => d.Given False u) w) (bound : p < w.plugins.size)
    (there : x.Below w.heap.size) (plain : w.isCallable x = false) (base : x.isNil = false)
    (run : exec (supplementOf p x) w = (r, u)) :
    (∀ n : Name, Host.search w (w.plugin p).host x n.value = .ok none →
      exec (canRead p n.value x) w = (r >>= fun s => (·.isSome) <$> supply u s n, u) ∧
      exec (read p x n.value) w = (r >>= fun s => served (w.plugin p).config n <$> supply u s n, u) ∧
      ((w.plugin p).config.isCoercionMember n.key = false →
        ((exec (canRead p n.value x) w).1 = .ok true ↔
          ∃ s y, r = .ok s ∧ supply u s n = .ok (some y) ∧ (exec (read p x n.value) w).1 = .ok y))) ∧
    ∀ s l t, r = .ok s → exec (keys p x) w = (.ok l, t) →
      ∃ own extra, l = own ++ extra ∧ Host.enumerableKeys w (w.plugin p).host x = .ok own ∧ ∀ m ∈ extra, ∃ o y,
        s = .obj o ∧ u.heap.lookup o m.key = .ok y ∧ exec (canRead p m.value x) w = (.ok true, u) ∧
        exec (read p x m.value) w =
          (.ok (if (w.plugin p).config.isCoercionMember m.key then .undefined else y), u) := by
  have sound := reachable.reachable.sound
  have intact := reachable.intact
  have resolves : Resolves p w.heap.size w u := by
    have asking := (supplementOf_asking p x w).world sound
    rwa [run] at asking
  have unchanged (h : HostId) (n : Name) := resolves.hostSearch intact h there n
  have reached {n : Name} (absent : Host.search w (w.plugin p).host x n.value = .ok none) :=
    canRead_absent base absent run
  have shown {n : Name} (absent : Host.search w (w.plugin p).host x n.value = .ok none) :=
    read_absent base plain absent ((unchanged _ n).trans absent) run
  refine ⟨fun n absent => ⟨reached absent, shown absent, fun proper => ?_⟩, fun s l t same listed => ?_⟩
  · rw [reached absent, shown absent]
    exact reached_iff_served proper
  · subst same
    obtain ⟨own, extra, split, real, beside⟩ := keys_ok base run listed
    refine ⟨own, extra, split, real, fun m kept => ?_⟩
    obtain ⟨absent, o, y, rfl, found⟩ := beside m kept
    obtain ⟨more, grown⟩ := resolves.advances.shadows p bound
    have host : (u.plugin p).host = (w.plugin p).host := by
      rw [grown]
      rfl
    rw [host, unchanged] at absent
    have here : supply u (.obj o) m = .ok (some y) := found
    refine ⟨o, y, rfl, by rw [Heap.lookup, found]; rfl, ?_, ?_⟩
    · rw [reached absent]
      change ((·.isSome) <$> supply u (.obj o) m, u) = _
      rw [here]
      rfl
    · rw [shown absent]
      change (served (w.plugin p).config m <$> supply u (.obj o) m, u) = _
      rw [here]
      rfl

/-- The effects that make a family and patch the prototype of all objects, and an object whose prototype owns the host's
object constructor and has no link. -/
def detachedFamily : List Effect :=
  Effect.family ++ [.put 12 (.str "extra") .null true, .newObject .null [(Name.ofText "constructor", .obj 3)],
    .newObject (.obj 20) []]

theorem detachedFamily_given :
    ReachableUnder (fun u d => d.Given False u) (World.after detachedFamily) := by
  refine ReachableUnder.loosen (reachableUnder_of_allowed ((Effect.family_lawful fun _ => True).append
    ⟨⟨⟨Datum.below_str, Datum.below_null⟩, trivial⟩, ⟨⟨Datum.below_null, ?_, fun _ => .inl rfl⟩, .inl trivial⟩,
      ⟨⟨Datum.below_obj.2 ?_, nofun, fun _ => .inr ⟨20, rfl⟩⟩, .inl trivial⟩, trivial⟩))
    fun u d allowed => allowed.1.given
  · intro m listed
    cases List.mem_singleton.1 listed
    exact ⟨Datum.below_str, Datum.below_obj.2 (by decide +kernel)⟩
  · decide +kernel

/-- A name that the object really lacks and that its supplement has can be reached, and reading serves it. -/
theorem supplement_views_detached : ∃ w,
    ReachableUnder (fun u d => d.Given False u) w ∧ 0 < w.plugins.size ∧ (Datum.obj 21).Below w.heap.size ∧
    w.isCallable (.obj 21) = false ∧ Host.search w (w.plugin 0).host (.obj 21) (.str "extra") = .ok none ∧
    ∃ s y u, exec (supplementOf 0 (.obj 21)) w = (.ok s, u) ∧ supply u s (Name.ofText "extra") = .ok (some y) ∧
      (exec (read 0 (.obj 21) (.str "extra")) w).1 = .ok y := by
  let w := World.after detachedFamily
  have reachable : ReachableUnder (fun u d => d.Given False u) w := detachedFamily_given
  have facts : 0 < w.plugins.size ∧ 21 < w.heap.size ∧ w.isCallable (.obj 21) = false ∧
      (Host.search w (w.plugin 0).host (.obj 21) (.str "extra")).toOption = some none ∧
      (w.plugin 0).config.isCoercionMember (.text "extra") = false ∧
      (exec (canRead 0 (.str "extra") (.obj 21)) w).1.toOption = some true := by
    decide +kernel
  clear_value w
  obtain ⟨bound, inside, plain, lacking, proper, reached⟩ := facts
  have absent : Host.search w (w.plugin 0).host (.obj 21) (.str "extra") = .ok none := eq_ok_of_toOption lacking
  obtain ⟨views, -⟩ := supplement_views reachable bound (Datum.below_obj.2 inside) plain rfl
    (Prod.eta (exec (supplementOf 0 (.obj 21)) w)).symm
  obtain ⟨s, y, same, found, served⟩ := ((views (Name.ofText "extra") absent).2.2 proper).1 (eq_ok_of_toOption reached)
  exact ⟨w, reachable, bound, Datum.below_obj.2 inside, plain, absent, s, y, _, Prod.ext same rfl, found, served⟩

/-- A coercion member that the object really lacks and its supplement has can be reached, but reading does not serve
it. -/
theorem coercion_member_reached_not_served : ∃ w,
    ReachableUnder (fun u d => d.Given False u) w ∧ 0 < w.plugins.size ∧ (Datum.obj 21).Below w.heap.size ∧
    w.isCallable (.obj 21) = false ∧ Host.search w (w.plugin 0).host (.obj 21) (.str "valueOf") = .ok none ∧
    (w.plugin 0).config.isCoercionMember (.text "valueOf") = true ∧
    (exec (canRead 0 (.str "valueOf") (.obj 21)) w).1 = .ok true ∧
    (exec (read 0 (.obj 21) (.str "valueOf")) w).1 = .ok .undefined := by
  let w := World.after detachedFamily
  have reachable : ReachableUnder (fun u d => d.Given False u) w := detachedFamily_given
  have facts : 0 < w.plugins.size ∧ 21 < w.heap.size ∧ w.isCallable (.obj 21) = false ∧
      (Host.search w (w.plugin 0).host (.obj 21) (.str "valueOf")).toOption = some none ∧
      (w.plugin 0).config.isCoercionMember (.text "valueOf") = true ∧
      (exec (canRead 0 (.str "valueOf") (.obj 21)) w).1.toOption = some true ∧
      (exec (read 0 (.obj 21) (.str "valueOf")) w).1.toOption = some .undefined := by
    decide +kernel
  clear_value w
  obtain ⟨bound, inside, plain, lacking, coercion, reached, unserved⟩ := facts
  exact ⟨w, reachable, bound, Datum.below_obj.2 inside, plain, eq_ok_of_toOption lacking, coercion,
    eq_ok_of_toOption reached, eq_ok_of_toOption unserved⟩

/-! ## Views of a callable -/

section Callable
variable {v : World} {f : Value} {s : Shadow} {n : Text}

theorem isNil_of_callable (callable : w.isCallable f = true) : f.isNil = false := by
  cases nil : f.isNil with
  | false => rfl
  | true =>
    rw [(plain_of_nil nil).1] at callable
    cases callable

theorem exec_supplementOf_known (known : shadow? w p f = some s) :
    exec (supplementOf p f) w = (.ok (.obj s.object), w) := by
  obtain ⟨c, category, -⟩ := Option.bind_eq_some_iff.1 known
  have callable : w.isCallable f = true := isCallable_iff.2 ⟨c, category⟩
  rw [supplementOf, exec_get_bind]
  simp only [callable, if_true]
  rw [exec_bind_ok (exec_shadowOf_known known)]
  rfl

/-- A callable from which a property was removed has its shadow. -/
theorem remove_known (sound : w.Sound) (callable : w.isCallable f = true) {b : Bool}
    (removed : exec (remove p f (.str n)) w = (.ok b, u)) : u.Sound ∧ ∃ s, shadow? u p f = some s := by
  rw [remove, exec_get_bind] at removed
  simp only [callable, if_true] at removed
  have leaves := shadowOf_leaves (p := p) (f := f) sound (Nat.le_refl _)
  rw [exec_bind] at removed
  cases run : exec (shadowOf p f) w with
  | mk r v =>
    rw [run] at removed
    have resolves := leaves.world sound
    rw [run] at resolves
    cases r with
    | error e => cases removed
    | ok o =>
      obtain ⟨⟨s, known, -⟩, -⟩ := leaves.value o (by rw [run])
      rw [run] at known
      have erased : exec (eraseProperty o (.str n)) v = (.ok b, u) := removed
      have edits := eraseProperty_edits o n v
      rw [erased] at edits
      refine ⟨(resolves.advances.sound.advances edits.grows.1).sound, s, ?_⟩
      cases edits with
      | nothing => exact known
      | one b _ _ => rw [shadow?_setBag, known]

/-- A name that the shadow of a callable lacks can be reached if the callable really has it. -/
theorem canRead_known (known : shadow? w p f = some s) (callable : w.isCallable f = true) {m : Name}
    (lacking : w.heap.search s.object m.key = .ok none) :
    exec (canRead p m.value f) w = ((·.isSome) <$> Host.search w (w.plugin p).host f m.value, w) := by
  have base := isNil_of_callable callable
  cases answer : Host.search w (w.plugin p).host f m.value with
  | error e =>
    have stopped : exec (Host.has (w.plugin p).host f m.value) w = (.error e, w) := by
      rw [Host.exec_has base, answer]
      rfl
    rw [canRead, exec_get_bind, exec_bind_error stopped]
    rfl
  | ok found =>
    cases found with
    | some y =>
      have there : exec (Host.has (w.plugin p).host f m.value) w = (.ok true, w) := by
        rw [Host.exec_has base, answer]
        rfl
      rw [canRead, exec_get_bind, exec_bind_ok there]
      rfl
    | none =>
      rw [canRead_absent base answer (exec_supplementOf_known known)]
      change ((·.isSome) <$> supply w (.obj s.object) m, w) = _
      rw [supply, lacking]

/-- Where the real names of a callable can be listed, all its names can. -/
theorem keys_known (known : shadow? w p f = some s) (callable : w.isCallable f = true)
    (whole : w.heap.isWhole s.object = true) {own : List Name}
    (real : Host.enumerableKeys w (w.plugin p).host f = .ok own) : ∃ l, exec (keys p f) w = (.ok l, w) := by
  obtain ⟨names, listed⟩ := Heap.enumerableKeys_ends whole
  rw [keys, exec_get_bind, real, exec_lift_ok_bind, exec_bind_ok (exec_supplementOf_known known), exec_get_bind, listed,
    exec_lift_ok_bind, exec_bind, suppliedKeys_still (isNil_of_callable callable)]
  rw [filterM_ok fun m => ?_]
  · exact ⟨_, rfl⟩
  · exact fun m => !((Host.search w (w.plugin p).host f m.value).toOption.getD none).isSome &&
      !(w.plugin p).config.isHiddenName m.key
  · obtain ⟨found, answer, -⟩ := Host.search_of_listing real m
    rw [answer]
    rfl

/-- What is removed from a callable is gone from its shadow. If nothing that the shadow descends from has the name, then
reading does not find it any more. The other two views still look at the real function: the name can be reached just if
it can be reached there, and no more names are listed than those listed there. So a name that the real function lacks is
gone from every view. -/
theorem removed_member_views (reachable : Reachable w) (callable : w.isCallable f = true)
    (removed : exec (remove p f (.str n)) w = (.ok true, u)) :
    ∃ s, exec (shadowOf p f) u = (.ok s, u) ∧ ((∀ a ∈ u.heap.path s, u.heap.owns a n = false) →
      exec (read p f (.str n)) u = (.ok .undefined, u) ∧
      exec (canRead p (.str n) f) u = ((·.isSome) <$> Host.search u (u.plugin p).host f (.str n), u) ∧
      (∀ own, Host.enumerableKeys u (u.plugin p).host f = .ok own →
        ∃ extra, exec (keys p f) u = (.ok (own ++ extra), u) ∧ ∀ m ∈ extra, m.key ≠ n) ∧
      (Host.search u (u.plugin p).host f (.str n) = .ok none → exec (canRead p (.str n) f) u = (.ok false, u) ∧
        ∃ l, exec (keys p f) u = (.ok l, u) ∧ ∀ m ∈ l, m.key ≠ n)) := by
  obtain ⟨sound, s, known⟩ := remove_known reachable.sound callable removed
  obtain ⟨c, category, entry⟩ := Option.bind_eq_some_iff.1 known
  have callable' : u.isCallable f = true := isCallable_iff.2 ⟨c, category⟩
  have base := isNil_of_callable callable'
  have ordered := sound.plugins p (lt_size_of_shadow? known)
  obtain ⟨linked, above⟩ := ordered.shadows _ (Registry.mem_of_find? entry)
  have whole := ordered.whole linked above
  refine ⟨s.object, exec_shadowOf_known known, fun gone => ?_⟩
  have lacking : u.heap.search s.object n = .ok none := Heap.search_of_not_owned whole gone
  have reached := canRead_known (m := Name.ofText n) known callable' lacking
  have listing (own : List Name) (real : Host.enumerableKeys u (u.plugin p).host f = .ok own) :
      ∃ extra, exec (keys p f) u = (.ok (own ++ extra), u) ∧ ∀ m ∈ extra, m.key ≠ n := by
    obtain ⟨l, listed⟩ := keys_known known callable' whole real
    obtain ⟨own', extra, rfl, real', beside⟩ := keys_ok base (exec_supplementOf_known known) listed
    obtain rfl := Except.ok.inj (real.symm.trans real')
    refine ⟨extra, listed, fun m kept same => ?_⟩
    obtain ⟨-, o, y, same', found⟩ := beside m kept
    cases same'
    rw [same, lacking] at found
    cases found
  refine ⟨?_, reached, listing, fun absent => ⟨?_, ?_⟩⟩
  · rw [exec_read_known known]
    change (u.heap.lookup s.object n, u) = _
    rw [Heap.lookup, lacking]
    rfl
  · refine reached.trans ?_
    change ((·.isSome) <$> Host.search u (u.plugin p).host f (.str n), u) = _
    rw [absent]
    rfl
  · obtain ⟨own, real⟩ := Host.listing_of_search (n := Name.ofText n) absent
    obtain ⟨extra, listed, others⟩ := listing own real
    refine ⟨own ++ extra, listed, fun m there same => ?_⟩
    rcases List.mem_append.1 there with here | beside
    · obtain ⟨found, answer, some_found⟩ := Host.search_of_listing real m
      rw [Host.search_of_key (n := Name.ofText n) same] at answer
      exact some_found here (Except.ok.inj (answer.symm.trans absent))
    · exact others m beside same

end Callable

/-- A property that only the shadow of a constructor has had is gone when it is removed. -/
theorem removed_member_views_origin : ∃ w u l, Reachable w ∧ w.isCallable (.obj 17) = true ∧
    exec (remove 0 (.obj 17) (.str "origin")) w = (.ok true, u) ∧
    exec (read 0 (.obj 17) (.str "origin")) u = (.ok .undefined, u) ∧
    exec (canRead 0 (.str "origin") (.obj 17)) u = (.ok false, u) ∧ exec (keys 0 (.obj 17)) u = (.ok l, u) ∧
    ∀ m ∈ l, m.key ≠ (.text "origin") := by
  let w := World.after (Effect.family ++ [.shadowOf 0 (.obj 17), .put 20 (.str "origin") .null true])
  let u := (exec (remove 0 (.obj 17) (.str "origin")) w).2
  have under : ReachableUnder (fun _ _ => True) w := reachableUnder_after fun _ _ _ => trivial
  have reachable : Reachable w := under.reachable
  have facts : w.isCallable (.obj 17) = true ∧
      (exec (remove 0 (.obj 17) (.str "origin")) w).1.toOption = some true ∧
      (exec (shadowOf 0 (.obj 17)) u).1.toOption = some 20 ∧
      (∀ a ∈ u.heap.path 20, u.heap.owns a "origin" = false) ∧
      (Host.search u (u.plugin 0).host (.obj 17) (.str "origin")).toOption = some none := by
    decide +kernel
  have removed : exec (remove 0 (.obj 17) (.str "origin")) w = ((exec (remove 0 (.obj 17) (.str "origin")) w).1, u) :=
    (Prod.eta _).symm
  clear_value u w
  obtain ⟨callable, true_, shadow, gone, lacking⟩ := facts
  rw [eq_ok_of_toOption true_] at removed
  obtain ⟨s, known, views⟩ := removed_member_views reachable callable removed
  obtain rfl : s = 20 := by
    rw [known] at shadow
    exact Option.some.inj shadow
  have absent : Host.search u (u.plugin 0).host (.obj 17) (.str "origin") = .ok none := eq_ok_of_toOption lacking
  obtain ⟨unread, -, -, lost⟩ := views gone
  obtain ⟨unreached, l, listed, others⟩ := lost absent
  exact ⟨w, u, l, reachable, callable, removed, unread, unreached, listed, others⟩

/-- A property that the real constructor has can still be reached, and is still listed, when it was removed and nothing
that the shadow descends from has it. -/
theorem removed_static_still_listed : ∃ w u l, Reachable w ∧ w.isCallable (.obj 21) = true ∧
    exec (remove 0 (.obj 21) (.str "dimensions")) w = (.ok true, u) ∧ shadow? u 0 (.obj 21) = some ⟨22, 23⟩ ∧
    (∀ a ∈ u.heap.path 22, u.heap.owns a "dimensions" = false) ∧
    (exec (canRead 0 (.str "dimensions") (.obj 21)) u).1 = .ok true ∧ (exec (keys 0 (.obj 21)) u).1 = .ok l ∧
    ∃ m ∈ l, m.key = (.text "dimensions") := by
  let w := World.after (Effect.family ++
    [.defineConstructor 0 { name := .str "Point" } .null .null [] [(Name.ofText "dimensions", .int 2)]])
  let u := (exec (remove 0 (.obj 21) (.str "dimensions")) w).2
  have under : ReachableUnder (fun _ _ => True) w := reachableUnder_after fun _ _ _ => trivial
  have reachable : Reachable w := under.reachable
  have facts : w.isCallable (.obj 21) = true ∧
      (exec (remove 0 (.obj 21) (.str "dimensions")) w).1.toOption = some true ∧
      shadow? u 0 (.obj 21) = some ⟨22, 23⟩ ∧ (∀ a ∈ u.heap.path 22, u.heap.owns a "dimensions" = false) ∧
      (exec (canRead 0 (.str "dimensions") (.obj 21)) u).1.toOption = some true ∧
      (exec (keys 0 (.obj 21)) u).1.toOption.map (·.map (·.key)) = some [.text "dimensions"] := by
    decide +kernel
  have removed : exec (remove 0 (.obj 21) (.str "dimensions")) w =
      ((exec (remove 0 (.obj 21) (.str "dimensions")) w).1, u) := (Prod.eta _).symm
  clear_value u w
  obtain ⟨callable, true_, shadow, gone, reached, listing⟩ := facts
  rw [eq_ok_of_toOption true_] at removed
  obtain ⟨l, listed, same⟩ := Option.map_eq_some_iff.1 listing
  refine ⟨w, u, l, reachable, callable, removed, shadow, gone, eq_ok_of_toOption reached, eq_ok_of_toOption listed, ?_⟩
  exact List.mem_map.1 (same ▸ List.mem_singleton.2 rfl)

end Plugin

end Overlay
