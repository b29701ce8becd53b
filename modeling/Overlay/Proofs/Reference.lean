import Overlay.Proofs.Restraint

/-!
# What values refer to

Objects are numbered in the order in which they were made, so that a value refers to nothing that is still to be made
is said by a bound: `Datum.Below n` holds of a value all of whose objects stand before position `n`. A world is
`Intact` when everything it holds, in bags, links, functions, hosts and plugins, refers to objects that are there, and
when the link of an object refers to objects made before it. In a intact world every question about values answers
with values that are there as well.
-/

namespace Overlay
set_option autoImplicit false

/-! ## Values -/

namespace Datum

mutual

/-- Every object that the value refers to stands before position `n`. -/
def Below (n : Nat) : Value → Prop
  | .ref (.object o) => o < n
  | .list _ items => ItemsBelow n items
  | .record entries => EntriesBelow n entries
  | _ => True

/-- Every object that some values refer to stands before position `n`. -/
def ItemsBelow (n : Nat) : List Value → Prop
  | [] => True
  | v :: rest => Below n v ∧ ItemsBelow n rest

/-- Every object that some entries refer to stands before position `n`. -/
def EntriesBelow (n : Nat) : List (Value × Value) → Prop
  | [] => True
  | (k, v) :: rest => Below n k ∧ Below n v ∧ EntriesBelow n rest

end

variable {n m : Nat}

theorem itemsBelow_iff {items : List Value} : ItemsBelow n items ↔ ∀ v ∈ items, v.Below n := by
  induction items with
  | nil => simp [ItemsBelow]
  | cons v rest ih => simp [ItemsBelow, ih]

theorem entriesBelow_iff {entries : List (Value × Value)} :
    EntriesBelow n entries ↔ ∀ e ∈ entries, e.1.Below n ∧ e.2.Below n := by
  induction entries with
  | nil => simp [EntriesBelow]
  | cons e rest ih =>
    obtain ⟨k, v⟩ := e
    simp only [EntriesBelow, ih, List.forall_mem_cons, and_assoc]

@[simp] theorem below_obj {o : ObjId} : (obj o).Below n ↔ o < n :=
  Iff.rfl

@[simp] theorem below_list {mark : Option Nat} {items : List Value} :
    (list mark items).Below n ↔ ∀ v ∈ items, v.Below n :=
  itemsBelow_iff

@[simp] theorem below_record {entries : List (Value × Value)} :
    (record entries).Below n ↔ ∀ e ∈ entries, e.1.Below n ∧ e.2.Below n :=
  entriesBelow_iff

@[simp] theorem below_null : (null : Value).Below n := trivial
@[simp] theorem below_undefined : (undefined : Value).Below n := trivial
@[simp] theorem below_bool {b : Bool} : (bool b : Value).Below n := trivial
@[simp] theorem below_int {i : Int} : (int i : Value).Below n := trivial
@[simp] theorem below_float {x : Binary64} : (float x : Value).Below n := trivial
@[simp] theorem below_nan {mark : Option Nat} : (nan mark : Value).Below n := trivial
@[simp] theorem below_str {s : Text} : (str s : Value).Below n := trivial
@[simp] theorem below_fn {f : FnId} : (fn f).Below n := trivial
@[simp] theorem below_table {t : TableId} : (ref (.table t)).Below n := trivial
@[simp] theorem below_host {h : HostId} : (ref (.host h)).Below n := trivial
@[simp] theorem below_plugin {p : PluginId} : (ref (.plugin p)).Below n := trivial

mutual

theorem Below.mono (more : m ≤ n) : {v : Value} → v.Below m → v.Below n
  | .ref (.object _), h => below_obj.2 (Nat.lt_of_lt_of_le (below_obj.1 h) more)
  | .ref (.function _), _ => below_fn
  | .ref (.table _), _ => below_table
  | .ref (.host _), _ => below_host
  | .ref (.plugin _), _ => below_plugin
  | .list _ _, h => by rw [Below] at h ⊢; exact h.mono more
  | .record _, h => by rw [Below] at h ⊢; exact h.mono more
  | .null, _ => below_null
  | .undefined, _ => below_undefined
  | .bool _, _ => below_bool
  | .int _, _ => below_int
  | .float _, _ => below_float
  | .nan _, _ => below_nan
  | .str _, _ => below_str

theorem ItemsBelow.mono (more : m ≤ n) : {items : List Value} → ItemsBelow m items → ItemsBelow n items
  | [], _ => by rw [ItemsBelow]; trivial
  | _ :: _, h => by
    rw [ItemsBelow] at h ⊢
    exact ⟨h.1.mono more, h.2.mono more⟩

theorem EntriesBelow.mono (more : m ≤ n) : {entries : List (Value × Value)} →
    EntriesBelow m entries → EntriesBelow n entries
  | [], _ => by rw [EntriesBelow]; trivial
  | (_, _) :: _, h => by
    rw [EntriesBelow] at h ⊢
    exact ⟨h.1.mono more, h.2.1.mono more, h.2.2.mono more⟩

end

mutual

/-- Data without references refer to nothing. -/
theorem below_mapRefs (f : Empty → Ref) : (d : PlainDatum) → (d.mapRefs f).Below n
  | .null => by rw [mapRefs]; exact below_null
  | .undefined => by rw [mapRefs]; exact below_undefined
  | .bool _ => by rw [mapRefs]; exact below_bool
  | .int _ => by rw [mapRefs]; exact below_int
  | .float _ => by rw [mapRefs]; exact below_float
  | .nan _ => by rw [mapRefs]; exact below_nan
  | .str _ => by rw [mapRefs]; exact below_str
  | .list _ items => by rw [mapRefs, Below]; exact below_mapItems f items
  | .record entries => by rw [mapRefs, Below]; exact below_mapEntries f entries
  | .ref r => nomatch r

theorem below_mapItems (f : Empty → Ref) : (items : List PlainDatum) → ItemsBelow n (mapItems f items)
  | [] => by rw [mapItems, ItemsBelow]; trivial
  | d :: rest => by rw [mapItems, ItemsBelow]; exact ⟨below_mapRefs f d, below_mapItems f rest⟩

theorem below_mapEntries (f : Empty → Ref) : (entries : List (PlainDatum × PlainDatum)) →
    EntriesBelow n (mapEntries f entries)
  | [] => by rw [mapEntries, EntriesBelow]; trivial
  | (k, d) :: rest => by
    rw [mapEntries, EntriesBelow]
    exact ⟨below_mapRefs f k, below_mapRefs f d, below_mapEntries f rest⟩

end

theorem below_toValue (d : PlainDatum) : d.toValue.Below n :=
  below_mapRefs _ d

/-- The parts of a value refer to nothing that the value does not refer to. -/
theorem Below.parts {v : Value} {parts : List Value} (below : v.Below n) (falls : v.parts? = some parts) :
    ∀ x ∈ parts, x.Below n := by
  unfold parts? at falls
  split at falls <;> cases falls
  · exact below_list.1 below
  · intro x listed
    obtain ⟨r, -, rfl⟩ := List.mem_map.1 listed
    exact below_str
  · intro x listed
    obtain ⟨e, here, rfl⟩ := List.mem_map.1 listed
    exact (below_record.1 below e here).1

end Datum

theorem Name.value_of? {v : Value} {k : Name} (named : Name.of? v = some k) : k.value = v := by
  unfold Name.of? at named
  split at named <;> cases named
  rfl

theorem Name.value_ofValue {v : Value} {k : Name} (named : Name.ofValue v = .ok k) : k.value = v := by
  unfold Name.ofValue at named
  split at named <;> cases named
  rename_i found
  exact Name.value_of? found

/-- Every object that some named values refer to stands before position `n`. -/
def MembersBelow (n : Nat) (members : List (Name × Value)) : Prop :=
  ∀ m ∈ members, m.1.value.Below n ∧ m.2.Below n

theorem MembersBelow.mono {n m : Nat} {members : List (Name × Value)} (below : MembersBelow m members)
    (more : m ≤ n) : MembersBelow n members :=
  fun e listed => ⟨(below e listed).1.mono more, (below e listed).2.mono more⟩

/-! ## Bags, functions and scripts -/

namespace Bag
variable {n m : Nat} {b : Bag}

/-- Every object that a bag refers to stands before position `n`. -/
def Below (n : Nat) (b : Bag) : Prop :=
  ∀ p ∈ b.props, p.name.value.Below n ∧ p.value.Below n

theorem Below.mono (below : b.Below m) (more : m ≤ n) : b.Below n :=
  fun p listed => ⟨(below p listed).1.mono more, (below p listed).2.mono more⟩

theorem below_insert {props : List Property} {q : Property}
    (below : ∀ p ∈ props, p.name.value.Below n ∧ p.value.Below n) (name : q.name.value.Below n)
    (value : q.value.Below n) : ∀ p ∈ insert props q, p.name.value.Below n ∧ p.value.Below n := by
  intro p listed
  unfold insert at listed
  split at listed
  · obtain ⟨r, here, rfl⟩ := List.mem_map.1 listed
    split
    · exact ⟨(below r here).1, value⟩
    · exact below r here
  · rcases List.mem_append.1 listed with here | last
    · exact below p here
    · rw [List.mem_singleton.1 last]
      exact ⟨name, value⟩

theorem Below.put {k : Name} {x : Value} {e : Bool} (below : b.Below n) (name : k.value.Below n)
    (value : x.Below n) : (b.put k x e).Below n :=
  below_insert below name value

theorem Below.erase {k : Key} (below : b.Below n) : (b.erase k).Below n :=
  fun p listed => below p (List.mem_filter.1 listed).1

theorem below_ofMembers {members : List (Name × Value)} (below : MembersBelow n members) :
    (Bag.ofMembers members).Below n := by
  have fold (props : List Property) (start : ∀ p ∈ props, p.name.value.Below n ∧ p.value.Below n) :
      ∀ p ∈ members.foldl (fun props m => insert props ⟨m.1, m.2, true⟩) props,
        p.name.value.Below n ∧ p.value.Below n := by
    induction members generalizing props with
    | nil => exact start
    | cons m rest ih =>
      obtain ⟨name, value⟩ := below m List.mem_cons_self
      exact ih (fun e listed => below e (List.mem_cons_of_mem m listed)) _ (below_insert start name value)
  exact fold [] fun p listed => nomatch listed

theorem Below.get {k : Key} (below : b.Below n) : (b.get k).Below n := by
  rw [Bag.get]
  cases found : b.find? k with
  | none => exact Datum.below_undefined
  | some p => exact (below p (List.mem_of_find?_eq_some found)).2

theorem Below.names (below : b.Below n) : ∀ k ∈ b.names, k.value.Below n := by
  intro k listed
  obtain ⟨p, here, rfl⟩ := List.mem_map.1 listed
  exact (below p here).1

end Bag

namespace Script

mutual

/-- The data in an argument refer to no object. -/
def Expr.Plain : Expr → Prop
  | .datum v => v.Below 0
  | .list items => PlainArgs items
  | .step s => s.Plain
  | _ => True

/-- The data in some arguments refer to no object. -/
def PlainArgs : List Expr → Prop
  | [] => True
  | e :: rest => e.Plain ∧ PlainArgs rest

/-- The data in some named arguments refer to no object. -/
def PlainMembers : List (Value × Expr) → Prop
  | [] => True
  | (name, e) :: rest => name.Below 0 ∧ e.Plain ∧ PlainMembers rest

/-- The data in a step refer to no object: a script names objects by its variables only. -/
def Step.Plain : Step → Prop
  | .named _ s => s.Plain
  | .compute _ args => PlainArgs args
  | .function _ _ body source => source.Below 0 ∧ PlainSteps body
  | .new proto props hidden => proto.Plain ∧ PlainMembers props ∧ PlainMembers hidden
  | .nest start _ => start.Plain
  | .defineFunction _ name impl arity source => name.Below 0 ∧ impl.Plain ∧ arity.Below 0 ∧ source.Below 0
  | .defineConstructor _ name init parent methods statics arity source =>
    name.Below 0 ∧ init.Plain ∧ parent.Plain ∧ PlainMembers methods ∧ PlainMembers statics ∧ arity.Below 0 ∧
      source.Below 0
  | .hostFunction name impl proto prototype arity source =>
    name.Below 0 ∧ impl.Plain ∧ proto.Plain ∧ prototype.Plain ∧ arity.Below 0 ∧ source.Below 0
  | .makeHost _ => True
  | .makePlugin _ outers _ _ => outers.Plain

/-- The data in some steps refer to no object. -/
def PlainSteps : List Step → Prop
  | [] => True
  | s :: rest => s.Plain ∧ PlainSteps rest

end

end Script

/-- Every object that an implementation refers to stands before position `n`. -/
def Impl.Below (n : Nat) : Impl → Prop
  | .value v => v.Below n
  | .makeObject prototype => prototype < n
  | _ => True

/-- Every object that a signature refers to stands before position `n`. -/
structure Host.Signature.Below (n : Nat) (s : Host.Signature) : Prop where
  name : s.name.Below n
  arity : s.arity.Below n
  source : s.source.Below n

/-- Every object that a host function refers to stands before position `n`. -/
structure HostFn.Below (n : Nat) (f : HostFn) : Prop where
  impl : f.impl.Below n
  prototype : f.prototype.Below n
  arity : f.arity.Below n
  source : f.source.Below n

/-- Every object that a function refers to stands before position `n`, and the body of one that a script defines
refers to none. -/
def Fn.Below (n : Nat) : Fn → Prop
  | .user d => d.source.Below n ∧ Script.PlainSteps d.body
  | .applier raw => raw.Below n
  | .binder raw => raw.Below n
  | .bound raw left => raw.Below n ∧ ∀ v ∈ left, v.Below n
  | .rootPrinter answer => answer.Below n
  | .forward _ name => name.Below n
  | .size | .maximum | .printer _ => True

theorem Impl.Below.mono {n m : Nat} {impl : Impl} (below : impl.Below m) (more : m ≤ n) : impl.Below n := by
  cases impl with
  | value v => exact Datum.Below.mono more below
  | makeObject prototype => exact Nat.lt_of_lt_of_le below more
  | _ => trivial

theorem Host.Signature.Below.mono {n m : Nat} {s : Host.Signature} (below : s.Below m) (more : m ≤ n) : s.Below n :=
  ⟨below.name.mono more, below.arity.mono more, below.source.mono more⟩

theorem HostFn.Below.mono {n m : Nat} {f : HostFn} (below : f.Below m) (more : m ≤ n) : f.Below n :=
  ⟨below.impl.mono more, below.prototype.mono more, below.arity.mono more, below.source.mono more⟩

theorem Fn.Below.mono {n m : Nat} {f : Fn} (below : f.Below m) (more : m ≤ n) : f.Below n := by
  cases f with
  | user d => exact ⟨below.1.mono more, below.2⟩
  | applier raw => exact Datum.Below.mono more below
  | binder raw => exact Datum.Below.mono more below
  | bound raw left => exact ⟨below.1.mono more, fun v listed => (below.2 v listed).mono more⟩
  | rootPrinter answer => exact Datum.Below.mono more below
  | forward h name => exact Datum.Below.mono more below
  | _ => trivial

theorem Fn.Below.source {n : Nat} {f : Fn} (below : f.Below n) : f.source.Below n := by
  cases f with
  | user d => exact below.1
  | _ => simp [Fn.source]

/-! ## Intact worlds -/

/-- The object at position `o` of `n` objects refers to objects that are there, and its link to objects made before
it. Where the makers are `strict`, its link, and the prototype of a host function, is null or an object. -/
structure Obj.Intact (strict : Prop) (n o : Nat) (x : Obj) : Prop where
  link : x.proto.Below o
  bag : x.bag.Below n
  host : ∀ f, x.host = some f → f.Below n
  linked : strict → IsLink x.proto
  prototype : strict → ∀ f, x.host = some f → IsLink f.prototype

theorem Obj.Intact.mono {strict : Prop} {n m o : Nat} {x : Obj} (intact : x.Intact strict m o) (more : m ≤ n) :
    x.Intact strict n o :=
  ⟨intact.link, intact.bag.mono more, fun f made => (intact.host f made).mono more, intact.linked, intact.prototype⟩

/-- Everything that the world holds refers to objects that are there, and links refer to objects made before. -/
structure World.Intact (strict : Prop) (w : World) : Prop where
  objects : ∀ o, (w.heap.get o).Intact strict w.heap.size o
  fns : ∀ i : FnId, (w.fns[i]?.getD default).Below w.heap.size
  roots : ∀ h, ∀ o ∈ (w.host h).roots, o < w.heap.size
  primitives : ∀ h, ∀ e ∈ (w.host h).primitives, e.2.Below w.heap.size
  owned : ∀ p, ∀ o ∈ (w.plugin p).owned, o < w.heap.size
  outers : ∀ p, (w.plugin p).outers.Below w.heap.size

/-- Where the answer of a question is a value, `P` holds of it. -/
def Yields {α : Type} (P : α → Prop) (q : Except Fault α) : Prop :=
  ∀ a, q = .ok a → P a

namespace Yields
variable {α β : Type} {P : α → Prop} {Q : β → Prop}

protected theorem ok {a : α} (h : P a) : Yields P (.ok a) := by
  intro b same
  cases same
  exact h

protected theorem error (e : Fault) : Yields P (.error e) :=
  fun _ h => nomatch h

protected theorem bind {q : Except Fault α} {f : α → Except Fault β} (first : Yields P q)
    (next : ∀ a, P a → Yields Q (f a)) : Yields Q (q >>= f) := by
  cases q with
  | error e => exact .error e
  | ok a => exact next a (first a rfl)

protected theorem map {q : Except Fault α} {f : α → β} (h : Yields P q) (next : ∀ a, P a → Q (f a)) :
    Yields Q (f <$> q) := by
  cases q with
  | error e => exact .error e
  | ok a => exact .ok (next a (h a rfl))

theorem any {q : Except Fault α} : Yields (fun _ => True) q :=
  fun _ _ => trivial

protected theorem mapM {items : List α} {f : α → Except Fault β} (h : ∀ a ∈ items, Yields Q (f a)) :
    Yields (fun l => ∀ b ∈ l, Q b) (items.mapM f) := by
  induction items with
  | nil => exact .ok fun b listed => nomatch listed
  | cons a rest ih =>
    rw [List.mapM_cons]
    refine .bind (h a List.mem_cons_self) fun b first => ?_
    refine .bind (ih fun c listed => h c (List.mem_cons_of_mem a listed)) fun l later => ?_
    exact .ok (List.forall_mem_cons.2 ⟨first, later⟩)

/-- A filter yields nothing new. -/
protected theorem filterM {items : List α} {test : α → Except Fault Bool} (h : ∀ a ∈ items, P a) :
    Yields (fun l => ∀ a ∈ l, P a) (items.filterM test) := by
  have loop : ∀ kept : List α, (∀ a ∈ kept, P a) → Yields (fun l => ∀ a ∈ l, P a) (List.filterAuxM test items kept) := by
    induction items with
    | nil => exact fun kept holds => .ok holds
    | cons a rest ih =>
      intro kept holds
      refine .bind .any fun keep _ => ih (fun b listed => h b (List.mem_cons_of_mem a listed)) _ ?_
      cases keep with
      | true => exact List.forall_mem_cons.2 ⟨h a List.mem_cons_self, holds⟩
      | false => exact holds
  refine .bind (loop [] fun a listed => nomatch listed) fun l holds => .ok fun a listed => ?_
  exact holds a (List.mem_reverse.1 listed)

end Yields

namespace World.Intact
variable {strict : Prop} {w : World}

/-- There is at least the object that stands for a missing receiver. -/
theorem size_pos (intact : w.Intact strict) : 0 < w.heap.size :=
  Nat.lt_of_le_of_lt (Nat.zero_le _) (intact.roots 0 (w.host 0).object (by simp [Host.roots]))

theorem hostFn? (intact : w.Intact strict) {v : Value} {f : HostFn} (found : w.hostFn? v = some f) :
    f.Below w.heap.size ∧ (strict → IsLink f.prototype) := by
  unfold World.hostFn? at found
  split at found
  · rename_i o
    exact ⟨(intact.objects o).host f found, fun h => (intact.objects o).prototype h f found⟩
  · cases found

/-- What can be called is there. -/
theorem callable (_ : w.Intact strict) {v : Value} (callable : w.isCallable v = true) : v.Below w.heap.size := by
  unfold World.isCallable at callable
  split at callable
  · exact Datum.below_fn
  · obtain ⟨f, found⟩ := Option.isSome_iff_exists.1 callable
    unfold World.hostFn? at found
    split at found
    · exact Datum.below_obj.2 (Heap.lt_size_of_hostFn? found)
    · cases found

theorem search (intact : w.Intact strict) (o : ObjId) (k : Key) :
    Yields (fun found => ∀ x, found = some x → x.Below w.heap.size) (w.heap.search o k) := by
  unfold Heap.search
  split
  · refine .ok fun x same => ?_
    cases same
    exact (intact.objects _).bag.get
  · unfold Heap.atEnd
    split
    · exact .ok fun x none => nomatch none
    · exact .error _

theorem lookup (intact : w.Intact strict) (o : ObjId) (k : Key) :
    Yields (fun x => x.Below w.heap.size) (w.heap.lookup o k) := by
  refine .map (intact.search o k) fun found below => ?_
  cases found with
  | none => exact Datum.below_undefined
  | some x => exact below x rfl

theorem enumerableKeys (intact : w.Intact strict) (o : ObjId) :
    Yields (fun names => ∀ m ∈ names, m.value.Below w.heap.size) (w.heap.enumerableKeys o) := by
  have listed (bags : List Bag) (below : ∀ b ∈ bags, b.Below w.heap.size) (seen : List Name) :
      ∀ m ∈ Heap.enumerableFrom seen bags, m.value.Below w.heap.size := by
    induction bags generalizing seen with
    | nil => exact fun m none => nomatch none
    | cons b rest ih =>
      intro m here
      rcases List.mem_append.1 here with own | later
      · obtain ⟨p, kept, rfl⟩ := List.mem_map.1 own
        exact (below b List.mem_cons_self p (List.mem_filter.1 kept).1).1
      · exact ih (fun c more => below c (List.mem_cons_of_mem b more)) _ m later
  unfold Heap.enumerableKeys Heap.atEnd
  split
  · refine .ok (listed _ (fun b here => ?_) [])
    obtain ⟨p, -, rfl⟩ := List.mem_map.1 here
    exact (intact.objects p).bag
  · exact .error _

theorem prototypeOf (intact : w.Intact strict) (h : HostId) (v : Value) :
    Yields (fun x => x.Below w.heap.size) (Host.prototypeOf w h v) := by
  unfold Host.prototypeOf
  split
  · rename_i o
    refine .ok ?_
    by_cases inside : o < w.heap.size
    · exact (intact.objects o).link.mono (Nat.le_of_lt inside)
    · rw [Heap.get_of_size_le (Nat.le_of_not_lt inside)]
      exact Datum.below_null
  · split
    · exact .ok (Datum.below_obj.2 (intact.roots h _ (by simp [Host.roots])))
    · split
      · unfold Host.primitivePrototype
        split
        · exact .ok Datum.below_null
        · split
          · rename_i found
            exact .ok (intact.hostFn? found).1.prototype
          · exact .error _
      · exact .ok Datum.below_null

theorem searchFrom (intact : w.Intact strict) (h : HostId) (v name : Value) :
    Yields (fun found => ∀ x, found = some x → x.Below w.heap.size) (Host.search w h v name) := by
  refine .bind .any fun start _ => ?_
  split
  · exact .bind .any fun k _ => intact.search _ k
  · exact .ok fun x none => nomatch none

theorem enumerableNames (intact : w.Intact strict) (h : HostId) (v : Value) :
    Yields (fun names => ∀ m ∈ names, m.value.Below w.heap.size) (Host.enumerableKeys w h v) := by
  refine .bind .any fun start _ => ?_
  split
  · exact intact.enumerableKeys _
  · exact .ok fun m none => nomatch none

theorem prototypeMember (intact : w.Intact strict) (f : Value) :
    (Host.prototypeMember w f).Below w.heap.size := by
  unfold Host.prototypeMember
  cases found : w.hostFn? f with
  | none => exact Datum.below_null
  | some fn => exact (intact.hostFn? found).1.prototype

theorem directConstructor (intact : w.Intact strict) (h : HostId) (v : Value) :
    Yields (fun x => x.Below w.heap.size) (Host.directConstructor w h v) := by
  refine .bind .any fun proto _ => ?_
  unfold Host.ownConstructor
  split
  · exact .ok Datum.below_null
  · refine .ok ?_
    split
    · exact (intact.objects _).bag.get
    · exact Datum.below_null
  · exact .error _

theorem superConstructor (intact : w.Intact strict) (h : HostId) (f : Value) :
    Yields (fun x => x.Below w.heap.size) (Host.superConstructor w h f) := by
  unfold Host.superConstructor
  split
  · exact .ok Datum.below_null
  · refine .bind (intact.directConstructor h _) fun ctor below => .ok ?_
    split
    · exact below
    · exact Datum.below_null

theorem ownNames (intact : w.Intact strict) (v : Value) (exclude : Host.Exclusion) :
    Yields (fun names => ∀ m ∈ names, m.value.Below w.heap.size) (Host.ownNames w v exclude) := by
  unfold Host.ownNames
  split
  · exact .filterM (intact.objects _).bag.names
  · exact .ok (List.forall_mem_nil _)

theorem methodNames (intact : w.Intact strict) (v : Value) (exclude : Host.Exclusion) :
    Yields (fun names => ∀ m ∈ names, m.value.Below w.heap.size) (Host.methodNames w v exclude) := by
  unfold Host.methodNames
  split
  · exact .ok fun m none => nomatch none
  · rename_i o _
    refine .map (.filterM (intact.objects o).bag) fun kept below m listed => ?_
    obtain ⟨p, here, rfl⟩ := List.mem_map.1 listed
    exact (below p here).1
  · exact .error _

theorem arity (intact : w.Intact strict) (v : Value) : (Host.arity w v).Below w.heap.size := by
  unfold Host.arity
  split
  · rename_i found
    exact (intact.hostFn? found).1.arity
  · exact Datum.below_int

theorem source (intact : w.Intact strict) (v : Value) : (Host.source w v).Below w.heap.size := by
  unfold Host.source
  split
  · rename_i found
    exact (intact.hostFn? found).1.source
  · split
    · exact (intact.fns _).source
    · exact Datum.below_null

theorem supplied (intact : w.Intact strict) (config : Config) (supplement name : Value) :
    Yields (fun found => ∀ x, found = some x → x.Below w.heap.size) (Plugin.supplied w config supplement name) := by
  unfold Plugin.supplied
  split
  · refine .bind .any fun k _ => .bind (intact.search _ k) fun found below => .ok fun x same => ?_
    split at same
    · cases same
    · exact below x same
  · exact .ok (by rintro x ⟨⟩)

theorem parentPrototype (intact : w.Intact strict) (h : HostId) (parent : Value) :
    Yields (fun x => x.Below w.heap.size ∧ (strict → IsLink x)) (Host.parentPrototype w h parent) := by
  unfold Host.parentPrototype
  split
  · exact .ok ⟨Datum.below_obj.2 (intact.roots h _ (by simp [Host.roots])), fun _ => .inr ⟨_, rfl⟩⟩
  · split
    · rename_i found
      exact .ok ⟨(intact.hostFn? found).1.prototype, (intact.hostFn? found).2⟩
    · exact .error _

end World.Intact

end Overlay
