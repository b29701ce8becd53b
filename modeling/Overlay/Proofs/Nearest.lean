import Overlay.Proofs.Listing

/-!
# The nearest owner decides

Of the objects that can be reached along the links from an object, the nearest one that owns a name decides what the name
means there: that it is found, which value it has, and whether enumerations show it. `Heap.Climbs` says which object
stands how many links away, and `Heap.Nearest` which one is the nearest owner. A walk visits the objects in the order of
their distance (`Heap.climbs_iff`), and an enumeration lists a name where it is owned for the first time
(`Bag.Foremost`), so names come in the order of the distance of their owners, and those of one owner in its own order.
-/

namespace Overlay
set_option autoImplicit false

/-! ## Bags in a row -/

/-- The bag at a position is the first of the bags that owns the key. -/
structure Bag.Foremost (bags : List Bag) (k : Key) (d : Nat) (b : Bag) : Prop where
  at_position : bags[d]? = some b
  owns : b.owns k = true
  before : ∀ e c, e < d → bags[e]? = some c → c.owns k = false

namespace Bag.Foremost
variable {b c : Bag} {bags : List Bag} {k : Key} {d : Nat}

theorem head (owned : b.owns k = true) : Foremost (b :: bags) k 0 b :=
  ⟨rfl, owned, fun e _ nearer => absurd nearer (Nat.not_lt_zero e)⟩

theorem tail (lacking : b.owns k = false) (foremost : Foremost bags k d c) : Foremost (b :: bags) k (d + 1) c := by
  refine ⟨foremost.at_position, foremost.owns, fun e a nearer here => ?_⟩
  cases e with
  | zero =>
    cases here
    exact lacking
  | succ e => exact foremost.before e a (Nat.lt_of_succ_lt_succ nearer) here

/-- The first of some bags owns a key, or what is foremost stands among the others. -/
theorem cons_iff : Foremost (b :: bags) k d c ↔
    b.owns k = true ∧ d = 0 ∧ c = b ∨ b.owns k = false ∧ ∃ e, d = e + 1 ∧ Foremost bags k e c := by
  constructor
  · intro foremost
    cases d with
    | zero =>
      obtain rfl : b = c := Option.some.inj foremost.at_position
      exact .inl ⟨foremost.owns, rfl, rfl⟩
    | succ e =>
      refine .inr ⟨foremost.before 0 b (Nat.succ_pos e) rfl, e, rfl, foremost.at_position, foremost.owns, ?_⟩
      exact fun i a nearer here => foremost.before (i + 1) a (Nat.succ_lt_succ nearer) here
  · rintro (⟨owned, rfl, rfl⟩ | ⟨lacking, e, rfl, foremost⟩)
    · exact head owned
    · exact foremost.tail lacking

end Bag.Foremost

/-- A bag with distinct names shows a key exactly if it has a property of the key that is to be shown. -/
theorem Bag.isEnumerable_iff {b : Bag} (distinct : b.keys.Nodup) {k : Key} :
    b.isEnumerable k = true ↔ ∃ p ∈ b.props, p.name.key = k ∧ p.enumerable = true := by
  constructor
  · intro shown
    rw [isEnumerable, Option.any_eq_true] at shown
    obtain ⟨p, found, visible⟩ := shown
    exact ⟨p, List.mem_of_find?_eq_some found, by simpa using List.find?_some found, visible⟩
  · rintro ⟨p, listed, rfl, visible⟩
    rw [isEnumerable, find?_of_mem distinct listed]
    exact visible

theorem Bag.owns_of_isEnumerable {b : Bag} {k : Key} (shown : b.isEnumerable k = true) : b.owns k = true := by
  rw [isEnumerable, Option.any_eq_true] at shown
  obtain ⟨p, found, -⟩ := shown
  rw [owns_eq, found]
  rfl

namespace Heap

/-- The first name is listed before the second: the first bag that owns it comes earlier, or the two are in this order in
one bag. -/
def ListedBefore (bags : List Bag) (m n : Name) : Prop :=
  ∃ d b e c, Bag.Foremost bags m.key d b ∧ Bag.Foremost bags n.key e c ∧
    (d < e ∨ d = e ∧ [m, n].Sublist b.names)

section Enumeration
variable {seen : List Name} {b : Bag} {bags : List Bag} {k : Key}

/-- What is listed of one bag: the names that it shows and that were not seen. -/
def listedOf (seen : List Name) (b : Bag) : List Name :=
  (b.props.filter fun p => p.enumerable && !seen.contains p.name).map (·.name)

theorem enumerableFrom_cons : enumerableFrom seen (b :: bags) = listedOf seen b ++ enumerableFrom (seen ++ b.names) bags :=
  rfl

theorem listedOf_sublist (seen : List Name) (b : Bag) : (listedOf seen b).Sublist b.names :=
  List.filter_sublist.map _

theorem contains_iff {n : Name} : seen.contains n = true ↔ n.key ∈ seen.map (·.key) := by
  rw [List.contains_iff_exists_mem_beq, List.mem_map]
  constructor
  · rintro ⟨m, listed, same⟩
    exact ⟨m, listed, (eq_of_beq (show (n.key == m.key) = true from same)).symm⟩
  · rintro ⟨m, listed, same⟩
    exact ⟨m, listed, show (n.key == m.key) = true by rw [same, beq_self_eq_true]⟩

theorem mem_listedOf_iff (distinct : b.keys.Nodup) :
    k ∈ (listedOf seen b).map (·.key) ↔ k ∉ seen.map (·.key) ∧ b.isEnumerable k = true := by
  rw [Bag.isEnumerable_iff distinct]
  constructor
  · intro listed
    obtain ⟨n, among, rfl⟩ := List.mem_map.1 listed
    obtain ⟨p, kept, rfl⟩ := List.mem_map.1 among
    obtain ⟨here, shown⟩ := List.mem_filter.1 kept
    rw [Bool.and_eq_true, Bool.not_eq_true', ← Bool.not_eq_true, contains_iff] at shown
    exact ⟨shown.2, p, here, rfl, shown.1⟩
  · rintro ⟨unseen, p, here, rfl, visible⟩
    refine List.mem_map.2 ⟨p.name, List.mem_map.2 ⟨p, List.mem_filter.2 ⟨here, ?_⟩, rfl⟩, rfl⟩
    rw [Bool.and_eq_true, Bool.not_eq_true', ← Bool.not_eq_true, contains_iff]
    exact ⟨visible, unseen⟩

/-- An enumeration lists just the names that were not seen and that the first bag which owns them shows. -/
theorem mem_enumerableFrom_iff (distinct : ∀ b ∈ bags, b.keys.Nodup) (seen : List Name) :
    k ∈ (enumerableFrom seen bags).map (·.key) ↔
      k ∉ seen.map (·.key) ∧ ∃ d b, Bag.Foremost bags k d b ∧ b.isEnumerable k = true := by
  induction bags generalizing seen with
  | nil =>
    constructor
    · exact fun listed => absurd listed List.not_mem_nil
    · rintro ⟨-, d, b, foremost, -⟩
      cases foremost.at_position
  | cons b bags ih =>
    rw [enumerableFrom_cons, List.map_append, List.mem_append, mem_listedOf_iff (distinct b List.mem_cons_self),
      ih (fun c among => distinct c (List.mem_cons_of_mem b among)), List.map_append, List.mem_append, not_or,
      Bag.mem_names_iff, Bool.not_eq_true]
    constructor
    · rintro (⟨unseen, shown⟩ | ⟨⟨unseen, lacking⟩, d, c, foremost, shown⟩)
      · exact ⟨unseen, 0, b, .head (Bag.owns_of_isEnumerable shown), shown⟩
      · exact ⟨unseen, d + 1, c, foremost.tail lacking, shown⟩
    · rintro ⟨unseen, d, c, foremost, shown⟩
      rcases Bag.Foremost.cons_iff.1 foremost with ⟨-, -, rfl⟩ | ⟨lacking, e, -, later⟩
      · exact .inl ⟨unseen, shown⟩
      · exact .inr ⟨⟨unseen, lacking⟩, e, c, later, shown⟩

/-- An enumeration lists names in the order of the first bags that own them, and those of one bag in its order. -/
theorem pairwise_enumerableFrom (distinct : ∀ b ∈ bags, b.keys.Nodup) (seen : List Name) :
    (enumerableFrom seen bags).Pairwise (ListedBefore bags) := by
  induction bags generalizing seen with
  | nil => exact .nil
  | cons b bags ih =>
    have distinct' : ∀ c ∈ bags, c.keys.Nodup := fun c among => distinct c (List.mem_cons_of_mem b among)
    have owned {n : Name} (listed : n ∈ listedOf seen b) : b.owns n.key = true :=
      Bag.mem_names_iff.1 (List.mem_map.2 ⟨n, (listedOf_sublist seen b).subset listed, rfl⟩)
    have later {n : Name} (listed : n ∈ enumerableFrom (seen ++ b.names) bags) :
        b.owns n.key = false ∧ ∃ d c, Bag.Foremost bags n.key d c := by
      obtain ⟨unseen, d, c, foremost, -⟩ := (mem_enumerableFrom_iff distinct' _).1 (List.mem_map.2 ⟨n, listed, rfl⟩)
      rw [List.map_append, List.mem_append, not_or, Bag.mem_names_iff, Bool.not_eq_true] at unseen
      exact ⟨unseen.2, d, c, foremost⟩
    rw [enumerableFrom_cons, List.pairwise_append]
    refine ⟨List.pairwise_iff_forall_sublist.2 fun {m n} two => ?_, ?_, fun m here n there => ?_⟩
    · have first : m ∈ listedOf seen b := two.subset (List.mem_cons_self ..)
      have second : n ∈ listedOf seen b := two.subset (List.mem_cons_of_mem m List.mem_cons_self)
      exact ⟨0, b, 0, b, .head (owned first), .head (owned second), .inr ⟨rfl, two.trans (listedOf_sublist seen b)⟩⟩
    · refine (ih distinct' _).imp_of_mem fun {m n} here there before => ?_
      obtain ⟨d, c, e, a, foremost, foremost', order⟩ := before
      refine ⟨d + 1, c, e + 1, a, foremost.tail (later here).1, foremost'.tail (later there).1, ?_⟩
      exact order.imp Nat.succ_lt_succ (And.imp_left (congrArg (· + 1)))
    · obtain ⟨lacking, e, c, foremost⟩ := later there
      exact ⟨0, b, e + 1, c, .head (owned here), foremost.tail lacking, .inl (Nat.succ_pos e)⟩

end Enumeration

/-! ## Distances -/

/-- So many links lead from the first object up to the second. -/
inductive Climbs (h : Heap) : ObjId → Nat → ObjId → Prop
  | here (o : ObjId) : Climbs h o 0 o
  | up {o q p : ObjId} {d : Nat} (link : (h.get o).proto = .obj q) (rest : Climbs h q d p) : Climbs h o (d + 1) p

/-- The object so many links up owns the key, and none that is nearer does. -/
structure Nearest (h : Heap) (k : Key) (o : ObjId) (d : Nat) (p : ObjId) : Prop where
  climbs : h.Climbs o d p
  owns : h.owns p k = true
  nearer : ∀ e q, e < d → h.Climbs o e q → h.owns q k = false

variable {h : Heap} {o p : ObjId} {k : Key} {d : Nat}

section Back
variable (back : ∀ a, (h.get a).proto.Below a)
include back

theorem path_of_link {q : ObjId} (link : (h.get o).proto = .obj q) : h.path o = o :: h.path q := by
  have below := back o
  rw [link] at below
  rw [path, ancestors, link]
  exact congrArg (o :: ·) (if_pos (Datum.below_obj.1 below))

/-- The path of an object has the others at their distances. -/
theorem climbs_iff : h.Climbs o d p ↔ (h.path o)[d]? = some p := by
  constructor
  · intro climbs
    induction climbs with
    | here o => rfl
    | up link rest ih =>
      rw [path_of_link back link]
      exact ih
  · intro listed
    induction d generalizing o with
    | zero =>
      obtain rfl : o = p := Option.some.inj listed
      exact .here o
    | succ d ih =>
      cases link : (h.get o).proto with
      | ref r =>
        cases r with
        | object q =>
          rw [path_of_link back link] at listed
          exact .up link (ih listed)
        | _ =>
          rw [path, ancestors, link] at listed
          cases listed
      | _ =>
        rw [path, ancestors, link] at listed
        cases listed

theorem nearest_iff_foremost {b : Bag} : Bag.Foremost ((h.path o).map fun p => (h.get p).bag) k d b ↔
    ∃ p, h.Nearest k o d p ∧ (h.get p).bag = b := by
  constructor
  · rintro ⟨here, owned, before⟩
    rw [List.getElem?_map, Option.map_eq_some_iff] at here
    obtain ⟨p, listed, rfl⟩ := here
    refine ⟨p, ⟨(climbs_iff back).2 listed, owned, fun e q nearer climbs => ?_⟩, rfl⟩
    refine before e _ nearer ?_
    rw [List.getElem?_map, (climbs_iff back).1 climbs]
    rfl
  · rintro ⟨p, ⟨climbs, owned, nearer⟩, rfl⟩
    refine ⟨?_, owned, fun e c before here => ?_⟩
    · rw [List.getElem?_map, (climbs_iff back).1 climbs]
      rfl
    · rw [List.getElem?_map, Option.map_eq_some_iff] at here
      obtain ⟨q, listed, rfl⟩ := here
      exact nearer e q before ((climbs_iff back).2 listed)

/-- The owner that a look-up finds is the nearest one. -/
theorem owner?_eq_some_iff : h.owner? o k = some p ↔ ∃ d, h.Nearest k o d p := by
  rw [owner?, List.find?_eq_some_iff_getElem]
  constructor
  · rintro ⟨owned, d, inside, here, before⟩
    refine ⟨d, (climbs_iff back).2 (List.getElem?_eq_some_iff.2 ⟨inside, here⟩), owned, fun e q nearer climbs => ?_⟩
    obtain ⟨_, there⟩ := List.getElem?_eq_some_iff.1 ((climbs_iff back).1 climbs)
    have lacking := before e nearer
    rw [there] at lacking
    simpa using lacking
  · rintro ⟨d, climbs, owned, nearer⟩
    obtain ⟨inside, here⟩ := List.getElem?_eq_some_iff.1 ((climbs_iff back).1 climbs)
    refine ⟨owned, d, inside, here, fun e before => ?_⟩
    have lacking := nearer e _ before ((climbs_iff back).2 (List.getElem?_eq_getElem (Nat.lt_trans before inside)))
    rw [lacking]
    rfl

theorem owner?_eq_none_iff : h.owner? o k = none ↔ ∀ d p, h.Climbs o d p → h.owns p k = false := by
  rw [owner?, List.find?_eq_none]
  constructor
  · intro lacking d p climbs
    simpa using lacking p (List.mem_of_getElem? ((climbs_iff back).1 climbs))
  · intro lacking p on
    obtain ⟨d, here⟩ := List.mem_iff_getElem?.1 on
    simp [lacking d p ((climbs_iff back).2 here)]

/-- A walk that ends at null is whole. -/
theorem Walk.isWhole {l : List ObjId} (walk : h.Walk o l) : h.isWhole o = true := by
  induction walk with
  | last link => rw [Heap.isWhole, link]
  | @next o p l link rest ih =>
    have below := back o
    rw [link] at below
    rw [Heap.isWhole, link]
    exact (if_pos (Datum.below_obj.1 below)).trans ih

end Back

theorem has_eq_true_iff : h.has o k = .ok true ↔ (h.owner? o k).isSome = true := by
  rw [has, search]
  cases h.owner? o k with
  | some p => exact iff_of_true rfl rfl
  | none =>
    refine iff_of_false (fun answer => ?_) Bool.false_ne_true
    rw [atEnd] at answer
    cases whole : h.isWhole o with
    | true =>
      rw [whole] at answer
      cases answer
    | false =>
      rw [whole] at answer
      cases answer

end Heap

/-- The nearest owner decides. In every world to which a run leads whose effects are given values of their worlds, and for
every object of it, a name is found exactly if the object or an object up its links owns it, and its value is then that of
the nearest owner. Where the links end at null, as they all do if objects are given no other links, a name without an
owner is not found and undefined, and an enumeration lists exactly the names that their nearest owners show, each once,
in the order of the distance of the nearest owner and then in its own order. -/
theorem nearest_owner_decides {w : World} (reachable : ReachableUnder (fun u d => d.Given False u) w) (o : ObjId) :
    (∀ k, w.heap.has o k = .ok true ↔ ∃ d p, w.heap.Climbs o d p ∧ w.heap.owns p k = true) ∧
    (∀ k, w.heap.has o k = .ok true →
      ∃ d p, w.heap.Nearest k o d p ∧ w.heap.lookup o k = .ok ((w.heap.get p).bag.get k)) ∧
    (ReachableUnder Effect.Lawful w → ∃ l, w.heap.Walk o l) ∧
    ∀ l, w.heap.Walk o l →
      (∀ k, (∀ d p, w.heap.Climbs o d p → w.heap.owns p k = false) →
        w.heap.has o k = .ok false ∧ w.heap.lookup o k = .ok .undefined) ∧
      ∃ names, w.heap.enumerableKeys o = .ok names ∧
        (∀ k, k ∈ names.map (·.key) ↔
          ∃ d p, w.heap.Nearest k o d p ∧ (w.heap.get p).bag.isEnumerable k = true) ∧
        (names.map (·.key)).Nodup ∧
        names.Pairwise fun m n => ∃ d p e q, w.heap.Nearest m.key o d p ∧ w.heap.Nearest n.key o e q ∧
          (d < e ∨ d = e ∧ [m, n].Sublist (w.heap.get p).bag.names) := by
  have back (a : ObjId) : (w.heap.get a).proto.Below a := (reachable.intact.objects a).link
  have distinct := reachable.reachable.distinct
  have owned (k : Key) : (w.heap.owner? o k).isSome = true ↔ ∃ d p, w.heap.Climbs o d p ∧ w.heap.owns p k = true := by
    rw [← not_iff_not, Option.not_isSome_iff_eq_none, Heap.owner?_eq_none_iff back]
    simp
  refine ⟨fun k => Heap.has_eq_true_iff.trans (owned k), fun k found => ?_, fun lawful => ?_, fun l walk => ⟨fun k lacking => ?_, ?_⟩⟩
  · obtain ⟨p, owner⟩ := Option.isSome_iff_exists.1 (Heap.has_eq_true_iff.1 found)
    obtain ⟨d, nearest⟩ := (Heap.owner?_eq_some_iff back).1 owner
    refine ⟨d, p, nearest, ?_⟩
    rw [Heap.lookup, Heap.search, owner]
    rfl
  · exact ⟨_, (lawful.wellFormed o).walk⟩
  · have absent : w.heap.search o k = .ok none := by
      rw [Heap.search, (Heap.owner?_eq_none_iff back).2 lacking, Heap.atEnd, if_pos (walk.isWhole back)]
    rw [Heap.has, Heap.lookup, absent]
    exact ⟨rfl, rfl⟩
  · have distinct' : ∀ b ∈ (w.heap.path o).map (fun p => (w.heap.get p).bag), b.keys.Nodup := by
      intro b among
      obtain ⟨p, -, rfl⟩ := List.mem_map.1 among
      exact distinct p
    refine ⟨_, by rw [Heap.enumerableKeys, Heap.atEnd, if_pos (walk.isWhole back)], fun k => ?_,
      Heap.nodup_enumerableFrom distinct' [], (Heap.pairwise_enumerableFrom distinct' []).imp fun {m n} before => ?_⟩
    · rw [Heap.mem_enumerableFrom_iff distinct']
      constructor
      · rintro ⟨-, d, b, foremost, shown⟩
        obtain ⟨p, nearest, rfl⟩ := (Heap.nearest_iff_foremost back).1 foremost
        exact ⟨d, p, nearest, shown⟩
      · rintro ⟨d, p, nearest, shown⟩
        exact ⟨List.not_mem_nil, d, _, (Heap.nearest_iff_foremost back).2 ⟨p, nearest, rfl⟩, shown⟩
    · obtain ⟨d, b, e, c, foremost, foremost', order⟩ := before
      obtain ⟨p, nearest, rfl⟩ := (Heap.nearest_iff_foremost back).1 foremost
      obtain ⟨q, nearest', rfl⟩ := (Heap.nearest_iff_foremost back).1 foremost'
      exact ⟨d, p, e, q, nearest, nearest', order⟩

/-- The effects that make an object with two names and another one below it, which has a name of its own and hides one of
those two. -/
def hidingEffects : List Effect :=
  [.newObject .null [(Name.ofText "a", .int 1), (Name.ofText "b", .int 2)],
    .newObject (.obj 1) [(Name.ofText "c", .int 3)], .put 2 (.str "b") (.int 4) false]

theorem hidingEffects_lawful : ReachableUnder Effect.Lawful (World.after hidingEffects) := by
  refine reachableUnder_of_allowed ⟨⟨Datum.below_null, ?_, fun _ => .inl rfl⟩,
    ⟨Datum.below_obj.2 (by decide +kernel), ?_, fun _ => .inr ⟨1, rfl⟩⟩, ⟨Datum.below_str, Datum.below_int⟩, trivial⟩
  · intro m listed
    rcases List.mem_cons.1 listed with rfl | last
    · exact ⟨Datum.below_str, Datum.below_int⟩
    · cases List.mem_singleton.1 last
      exact ⟨Datum.below_str, Datum.below_int⟩
  · intro m listed
    cases List.mem_singleton.1 listed
    exact ⟨Datum.below_str, Datum.below_int⟩

/-- The object below lists its own name and then one of the other object; the hidden name decides the look-up of the third,
and keeps it out of the list. -/
theorem nearest_owner_decides_hiding : ∃ w names, ReachableUnder Effect.Lawful w ∧
    w.heap.enumerableKeys 2 = .ok names ∧ names.map (·.key) = [.text "c", .text "a"] ∧
    (∃ d p, w.heap.Nearest (.text "a") 2 d p ∧ (w.heap.get p).bag.isEnumerable (.text "a") = true) ∧
    ∃ d p, w.heap.Nearest (.text "b") 2 d p ∧ w.heap.lookup 2 (.text "b") = .ok ((w.heap.get p).bag.get (.text "b")) := by
  let w := World.after hidingEffects
  have lawful : ReachableUnder Effect.Lawful w := hidingEffects_lawful
  have facts : (w.heap.enumerableKeys 2).toOption.map (·.map (·.key)) = some [.text "c", .text "a"] ∧
      (w.heap.has 2 (.text "b")).toOption = some true := by
    decide +kernel
  clear_value w
  obtain ⟨listing, reached⟩ := facts
  obtain ⟨-, found, ends, decided⟩ := nearest_owner_decides (lawful.loosen fun _ _ allowed => allowed.given) 2
  obtain ⟨l, walk⟩ := ends lawful
  obtain ⟨-, names, listed, shown, -, -⟩ := decided l walk
  rw [listed] at listing
  have keys : names.map (·.key) = [.text "c", .text "a"] := Option.some.inj listing
  have second : Key.text "a" ∈ names.map (·.key) := by
    rw [keys]
    exact List.mem_cons_of_mem _ List.mem_cons_self
  exact ⟨w, names, lawful, listed, keys, (shown _).1 second, found _ (eq_ok_of_toOption reached)⟩

end Overlay
