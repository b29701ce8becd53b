import Overlay.Proofs.Lookup
import Overlay.Proofs.Reference

/-!
# Renaming objects

Two runs that make the same objects at different times number them differently. A renaming `β` takes the position of
an object in one run to its position in the other. `Heap.Alike` says of two heaps that their first `n` objects are the
same and refer to nothing later, so that a renaming leaves them alone; a later object is `Twinned` when the object
that `β` takes it to is the same up to `β`, and so on along the links. Every look-up that starts at a twinned object
finds the same in both heaps, up to the renaming.
-/

namespace Overlay
set_option autoImplicit false

/-! ## Values and bags -/

/-- The reference, with an object renamed. -/
def Ref.rename (β : ObjId → ObjId) : Ref → Ref
  | .object o => .object (β o)
  | r => r

namespace Datum
variable {β γ : ObjId → ObjId} {n : Nat}

/-- The value with all objects renamed that it refers to. -/
def rename (β : ObjId → ObjId) (v : Value) : Value :=
  v.mapRefs (Ref.rename β)

@[simp] theorem rename_obj (o : ObjId) : (obj o).rename β = obj (β o) := by simp [rename, mapRefs, Ref.rename]
@[simp] theorem rename_undefined : (undefined : Value).rename β = undefined := by simp [rename, mapRefs]

/-- A renaming makes objects of objects only. -/
theorem rename_cases (β : ObjId → ObjId) (x : Value) :
    (∃ o, x = .obj o) ∨ (∀ o, x ≠ .obj o) ∧ ∀ o, x.rename β ≠ .obj o := by
  cases x with
  | ref r =>
    cases r with
    | object o => exact .inl ⟨o, rfl⟩
    | _ => simp [rename, mapRefs, Ref.rename]
  | _ => simp [rename, mapRefs]

mutual

/-- Renamings that agree on the objects of a value rename it alike. -/
theorem mapRefs_congr (agree : ∀ o, o < n → β o = γ o) : {v : Value} → v.Below n →
    v.mapRefs (Ref.rename β) = v.mapRefs (Ref.rename γ)
  | .ref (.object o), h => by
    rw [mapRefs, mapRefs, Ref.rename, Ref.rename, agree o (below_obj.1 h)]
  | .ref (.function _), _ | .ref (.table _), _ | .ref (.host _), _ | .ref (.plugin _), _ => by
    simp [mapRefs, Ref.rename]
  | .list _ _, h => by
    rw [Below] at h
    rw [mapRefs, mapRefs, mapItems_congr agree h]
  | .record _, h => by
    rw [Below] at h
    rw [mapRefs, mapRefs, mapEntries_congr agree h]
  | .null, _ | .undefined, _ | .bool _, _ | .int _, _ | .float _, _ | .nan _, _ | .str _, _ => by simp [mapRefs]

theorem mapItems_congr (agree : ∀ o, o < n → β o = γ o) : {items : List Value} → ItemsBelow n items →
    mapItems (Ref.rename β) items = mapItems (Ref.rename γ) items
  | [], _ => by rw [mapItems, mapItems]
  | _ :: _, h => by
    rw [ItemsBelow] at h
    rw [mapItems, mapItems, mapRefs_congr agree h.1, mapItems_congr agree h.2]

theorem mapEntries_congr (agree : ∀ o, o < n → β o = γ o) : {entries : List (Value × Value)} →
    EntriesBelow n entries → mapEntries (Ref.rename β) entries = mapEntries (Ref.rename γ) entries
  | [], _ => by rw [mapEntries, mapEntries]
  | (_, _) :: _, h => by
    rw [EntriesBelow] at h
    rw [mapEntries, mapEntries, mapRefs_congr agree h.1, mapRefs_congr agree h.2.1, mapEntries_congr agree h.2.2]

end

mutual

theorem mapRefs_id : (v : Value) → v.mapRefs (Ref.rename id) = v
  | .ref (.object _) | .ref (.function _) | .ref (.table _) | .ref (.host _) | .ref (.plugin _) => by
    simp [mapRefs, Ref.rename]
  | .list _ items => by rw [mapRefs, mapItems_id items]
  | .record entries => by rw [mapRefs, mapEntries_id entries]
  | .null | .undefined | .bool _ | .int _ | .float _ | .nan _ | .str _ => by simp [mapRefs]

theorem mapItems_id : (items : List Value) → mapItems (Ref.rename id) items = items
  | [] => by rw [mapItems]
  | v :: rest => by rw [mapItems, mapRefs_id v, mapItems_id rest]

theorem mapEntries_id : (entries : List (Value × Value)) → mapEntries (Ref.rename id) entries = entries
  | [] => by rw [mapEntries]
  | (k, v) :: rest => by rw [mapEntries, mapRefs_id k, mapRefs_id v, mapEntries_id rest]

end

theorem Below.rename_congr {v : Value} (below : v.Below n) (agree : ∀ o, o < n → β o = γ o) :
    v.rename β = v.rename γ :=
  mapRefs_congr agree below

/-- A renaming that leaves the objects of a value alone leaves the value alone. -/
theorem Below.rename_eq {v : Value} (below : v.Below n) (fixed : ∀ o, o < n → β o = o) : v.rename β = v :=
  (below.rename_congr fixed).trans (mapRefs_id v)

end Datum

namespace Bag
variable {β γ : ObjId → ObjId} {n : Nat} {b : Bag}

/-- The bag with all objects renamed that its values refer to. -/
def rename (β : ObjId → ObjId) (b : Bag) : Bag :=
  { b with props := b.props.map fun q => { q with value := q.value.rename β } }

@[simp] theorem frozen_rename : (b.rename β).frozen = b.frozen := rfl

@[simp] theorem names_rename : (b.rename β).names = b.names := by
  simp [rename, names]

theorem find?_rename (k : Key) :
    (b.rename β).find? k = (b.find? k).map fun q => { q with value := q.value.rename β } := by
  rw [find?, rename, List.find?_map]
  rfl

@[simp] theorem owns_rename (k : Key) : (b.rename β).owns k = b.owns k := by
  rw [owns_eq, owns_eq, find?_rename, Option.isSome_map]

theorem get_rename (k : Key) : (b.rename β).get k = (b.get k).rename β := by
  rw [get, get, find?_rename]
  cases b.find? k with
  | none => exact Datum.rename_undefined.symm
  | some q => rfl

theorem put_rename (k : Name) (x : Value) (e : Bool) :
    (b.put k x e).rename β = (b.rename β).put k (x.rename β) e := by
  have there : (b.rename β).props.any (·.name.key == k.key) = b.props.any (·.name.key == k.key) := owns_rename k.key
  rw [put, put, rename, insert, insert, there]
  congr 1
  split
  · simp only [rename, List.map_map]
    refine List.map_congr_left fun q _ => ?_
    simp only [Function.comp_apply]
    split <;> rfl
  · simp [rename]

theorem erase_rename (k : Key) : (b.erase k).rename β = (b.rename β).erase k := by
  simp only [erase, rename, List.filter_map]
  rfl

theorem Below.rename_congr (below : b.Below n) (agree : ∀ o, o < n → β o = γ o) : b.rename β = b.rename γ := by
  have same : b.props.map (fun q => { q with value := q.value.rename β }) =
      b.props.map fun q => { q with value := q.value.rename γ } :=
    List.map_congr_left fun q listed => by rw [(below q listed).2.rename_congr agree]
  rw [rename, rename, same]

theorem Below.rename_eq (below : b.Below n) (fixed : ∀ o, o < n → β o = o) : b.rename β = b := by
  have same : b.props.map (fun q => { q with value := q.value.rename β }) = b.props.map id :=
    List.map_congr_left fun q listed => by rw [(below q listed).2.rename_eq fixed]; rfl
  rw [rename, same, List.map_id]

end Bag

namespace Bag
variable {Q R : Value → Prop} {b : Bag}

/-- All values of the bag are such. -/
def Holds (Q : Value → Prop) (b : Bag) : Prop :=
  ∀ q ∈ b.props, Q q.value

theorem Holds.mono (held : b.Holds Q) (weaker : ∀ x, Q x → R x) : b.Holds R :=
  fun q listed => weaker _ (held q listed)

theorem Holds.put {k : Name} {x : Value} {e : Bool} (held : b.Holds Q) (value : Q x) : (b.put k x e).Holds Q := by
  intro q listed
  rw [Bag.put, insert] at listed
  split at listed
  · obtain ⟨r, here, rfl⟩ := List.mem_map.1 listed
    split
    · exact value
    · exact held r here
  · rcases List.mem_append.1 listed with here | last
    · exact held q here
    · rw [List.mem_singleton.1 last]
      exact value

theorem Holds.erase {k : Key} (held : b.Holds Q) : (b.erase k).Holds Q :=
  fun q listed => held q (List.mem_filter.1 listed).1

theorem Holds.get {k : Key} (held : b.Holds Q) (none : Q .undefined) : Q (b.get k) := by
  rw [Bag.get]
  cases found : b.find? k with
  | none => exact none
  | some q => exact held q (List.mem_of_find?_eq_some found)

end Bag

/-- An enumeration does not look at values. -/
theorem Heap.enumerableFrom_rename (β : ObjId → ObjId) (bags : List Bag) (seen : List Name) :
    enumerableFrom seen (bags.map (Bag.rename β)) = enumerableFrom seen bags := by
  induction bags generalizing seen with
  | nil => rfl
  | cons b rest ih =>
    rw [List.map_cons, enumerableFrom, enumerableFrom, Bag.names_rename, ih]
    simp only [Bag.rename, List.filter_map, List.map_map]
    rfl

/-- The object with all objects renamed that it is linked to or that its members refer to. -/
def Obj.rename (β : ObjId → ObjId) (x : Obj) : Obj :=
  { x with proto := x.proto.rename β, bag := x.bag.rename β }

theorem Obj.rename_congr {β γ : ObjId → ObjId} {x : Obj} {n : Nat} (link : x.proto.Below n) (bag : x.bag.Below n)
    (agree : ∀ o, o < n → β o = γ o) : x.rename β = x.rename γ := by
  rw [rename, rename, link.rename_congr agree, bag.rename_congr agree]

/-! ## Heaps -/

namespace Heap

/-- The first `n` objects of both heaps are the same and refer to nothing later; links lead back. -/
structure Alike (n : Nat) (β : ObjId → ObjId) (h k : Heap) : Prop where
  fixed : ∀ o, o < n → β o = o
  old : ∀ o, o < n → k.get o = h.get o
  held : ∀ o, o < n → (h.get o).bag.Below n
  back : ∀ o, (h.get o).proto.Below o
  back' : ∀ o, (k.get o).proto.Below o

/-- The object is one of the first `n`, or it is renamed to the object that it is up to renaming, and is linked to
such an object. -/
inductive Twinned (n : Nat) (β : ObjId → ObjId) (h k : Heap) : ObjId → Prop
  | old {o : ObjId} (below : o < n) : Twinned n β h k o
  | new {o q : ObjId} (paired : k.get (β o) = (h.get o).rename β) (linked : (h.get o).proto = .obj q)
      (further : Twinned n β h k q) : Twinned n β h k o

/-- If the value is an object, the object is twinned. -/
def Settled (n : Nat) (β : ObjId → ObjId) (h k : Heap) (x : Value) : Prop :=
  ∀ o, x = .obj o → Twinned n β h k o

theorem settled_of_below {n : Nat} {β : ObjId → ObjId} {h k : Heap} {x : Value} (below : x.Below n) :
    Settled n β h k x := by
  rintro o rfl
  exact .old (Datum.below_obj.1 below)

theorem settled_undefined {n : Nat} {β : ObjId → ObjId} {h k : Heap} : Settled n β h k .undefined :=
  fun _ => nofun

namespace Twinned
variable {n : Nat} {β γ : ObjId → ObjId} {h k h' k' : Heap} {o : ObjId}

theorem lt_size (twinned : Twinned n β h k o) (size : n ≤ h.size) : o < h.size := by
  cases twinned with
  | old below => exact Nat.lt_of_lt_of_le below size
  | new _ linked _ =>
    by_contra out
    rw [get_of_size_le (Nat.le_of_not_lt out)] at linked
    cases linked

/-- Objects stay twinned while objects keep their links and twins stay twins. -/
theorem later (twinned : Twinned n β h k o) (size : n ≤ h.size)
    (links : ∀ a, a < h.size → (h'.get a).proto = (h.get a).proto)
    (pairs : ∀ a, a < h.size → k.get (β a) = (h.get a).rename β → k'.get (γ a) = (h'.get a).rename γ) :
    Twinned n γ h' k' o := by
  induction twinned with
  | old below => exact .old below
  | @new o q paired linked further ih =>
    have inside : o < h.size := (Twinned.new paired linked further).lt_size size
    exact .new (pairs o inside paired) ((links o inside).trans linked) ih

end Twinned

namespace Alike
variable {n : Nat} {β : ObjId → ObjId} {h k : Heap} {o : ObjId}

theorem paired (alike : Alike n β h k) (twinned : Twinned n β h k o) : k.get (β o) = (h.get o).rename β := by
  cases twinned with
  | new paired _ _ => exact paired
  | old below =>
    rw [alike.fixed o below, alike.old o below, Obj.rename, (alike.held o below).rename_eq alike.fixed,
      ((alike.back o).mono (Nat.le_of_lt below)).rename_eq alike.fixed]

theorem path_old (alike : Alike n β h k) (below : o < n) :
    k.path o = h.path o ∧ k.isWhole o = h.isWhole o ∧ ∀ a ∈ h.path o, a < n := by
  have on (a : ObjId) (listed : a ∈ h.path o) : a < n := Nat.lt_of_le_of_lt (le_of_mem_path listed) below
  obtain ⟨same, whole⟩ := path_congr fun a listed => congrArg Obj.proto (alike.old a (on a listed))
  exact ⟨same, whole, on⟩

/-- The path of a twinned object is the path of its twin. -/
theorem path (alike : Alike n β h k) (twinned : Twinned n β h k o) :
    k.path (β o) = (h.path o).map β ∧ k.isWhole (β o) = h.isWhole o ∧ ∀ a ∈ h.path o, Twinned n β h k a := by
  induction twinned with
  | @old o below =>
    obtain ⟨same, whole, on⟩ := alike.path_old below
    have unmoved : (h.path o).map β = h.path o := by
      rw [List.map_congr_left fun a listed => alike.fixed a (on a listed), List.map_id']
    rw [alike.fixed o below, unmoved]
    exact ⟨same, whole, fun a listed => .old (on a listed)⟩
  | @new o q paired linked further ih =>
    obtain ⟨same, whole, on⟩ := ih
    have linked' : (k.get (β o)).proto = .obj (β q) := by
      rw [paired, Obj.rename, linked, Datum.rename_obj]
    have back : q < o := Datum.below_obj.1 (linked ▸ alike.back o)
    have back' : β q < β o := Datum.below_obj.1 (linked' ▸ alike.back' (β o))
    have here : h.ancestors o = h.path q := by
      rw [ancestors, linked]
      exact if_pos back
    have there : k.ancestors (β o) = k.path (β q) := by
      rw [ancestors, linked']
      exact if_pos back'
    refine ⟨?_, ?_, fun a listed => ?_⟩
    · rw [Heap.path, Heap.path, there, here, same, List.map_cons]
    · rw [isWhole, isWhole.eq_1 h, linked, linked']
      simp only [if_pos back, if_pos back', whole]
    · rcases List.mem_cons.1 listed with rfl | later
      · exact .new paired linked further
      · exact on a (here ▸ later)

/-- What a name reaches from an old object is old. -/
theorem below_of_search (alike : Alike n β h k) (below : o < n) {key : Key} {x : Value}
    (answer : h.search o key = .ok (some x)) : x.Below n := by
  rw [Heap.search] at answer
  split at answer
  · rename_i a found
    cases answer
    have listed : a ∈ h.path o := List.mem_of_find?_eq_some found
    exact (alike.held a ((alike.path_old below).2.2 a listed)).get
  · rw [atEnd] at answer
    split at answer <;> cases answer

/-- What a name reaches from a twinned object, it reaches from its twin, up to the renaming. -/
theorem search (alike : Alike n β h k) (twinned : Twinned n β h k o) (key : Key) :
    k.search (β o) key = (·.map (Datum.rename β)) <$> h.search o key := by
  obtain ⟨same, whole, on⟩ := alike.path twinned
  have owner : k.owner? (β o) key = (h.owner? o key).map β := by
    rw [owner?, owner?, same, List.find?_map]
    refine congrArg (Option.map β) (List.find?_congr fun a listed => ?_)
    rw [Function.comp_apply, owns, owns, alike.paired (on a listed)]
    exact Bag.owns_rename key
  rw [Heap.search, Heap.search, owner]
  cases found : h.owner? o key with
  | none =>
    simp only [Option.map_none, atEnd, whole]
    split <;> rfl
  | some a =>
    have listed : a ∈ h.path o := List.mem_of_find?_eq_some found
    simp only [Option.map_some, alike.paired (on a listed), Obj.rename, Bag.get_rename]
    rfl

theorem lookup (alike : Alike n β h k) (twinned : Twinned n β h k o) (key : Key) :
    k.lookup (β o) key = Datum.rename β <$> h.lookup o key := by
  rw [Heap.lookup, Heap.lookup, alike.search twinned]
  cases h.search o key with
  | error e => rfl
  | ok found =>
    cases found with
    | none => exact congrArg Except.ok Datum.rename_undefined.symm
    | some x => rfl

theorem has (alike : Alike n β h k) (twinned : Twinned n β h k o) (key : Key) : k.has (β o) key = h.has o key := by
  rw [Heap.has, Heap.has, alike.search twinned]
  cases h.search o key with
  | error e => rfl
  | ok found => cases found <;> rfl

theorem enumerableKeys (alike : Alike n β h k) (twinned : Twinned n β h k o) :
    k.enumerableKeys (β o) = h.enumerableKeys o := by
  obtain ⟨same, whole, on⟩ := alike.path twinned
  have bags : (k.path (β o)).map (fun a => (k.get a).bag) =
      ((h.path o).map fun a => (h.get a).bag).map (Bag.rename β) := by
    rw [same, List.map_map, List.map_map]
    refine List.map_congr_left fun a listed => ?_
    rw [Function.comp_apply, alike.paired (on a listed)]
    rfl
  rw [Heap.enumerableKeys, Heap.enumerableKeys, bags, enumerableFrom_rename, atEnd, atEnd, whole]

end Alike

end Heap

end Overlay
