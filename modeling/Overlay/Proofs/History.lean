import Mathlib.Data.List.Induction
import Overlay.Proofs.Containers

/-!
# Bags over a history

An object is asked again and again to put a property, to delete one, or to freeze. The revisions that it carries out are
known from its answers, and the bag is what they make of the first one (`Revision.bagAfter_eq`), so a key is there if its
last edit was a put. Names are kept in the order in which they came in, where a name that was deleted comes in anew
(`Revision.Since`). From the first freezing on nothing is carried out but freezing once more, which changes nothing.
Two containers that take the same revisions answer them alike and make up the same bag all along
(`Revision.runIn_after`).
-/

namespace Overlay
set_option autoImplicit false

open Act World

/-! ## One revision -/

/-- What an object can be asked that is to change it. -/
inductive Revision where
  | put (n : Text) (x : Value) (visible : Bool)
  | delete (n : Text)
  | freeze

namespace Bag
variable {b c : Bag} {k : Key}

theorem names_erase (b : Bag) (k : Key) : (b.erase k).names = b.names.filter (·.key != k) := by
  rw [names, names, erase, List.filter_map]
  rfl

theorem contents_put_same (b : Bag) (n : Name) (x : Value) (e : Bool) :
    ((b.put n x e).get n.key, (b.put n x e).isEnumerable n.key) = (x, e) := by
  obtain ⟨q, found, rfl, rfl⟩ := find?_insert_same b.props ⟨n, x, e⟩
  have here : (b.put n q.value q.enumerable).find? n.key = some q := found
  rw [get, isEnumerable, here]
  rfl

theorem contents_congr (same : b.find? k = c.find? k) :
    b.owns k = c.owns k ∧ (b.get k, b.isEnumerable k) = (c.get k, c.isEnumerable k) := by
  rw [owns_eq, owns_eq, get, get, isEnumerable, isEnumerable, same]
  exact ⟨rfl, rfl⟩

/-- The names of a bag are some of those of another in the same order, with at most one new name at the end. -/
def NamesFrom (c b : Bag) : Prop :=
  ∃ kept new, c.names = kept ++ new ∧ kept.Sublist b.names ∧ new.length ≤ 1 ∧ ∀ n ∈ new, b.owns n.key = false

theorem NamesFrom.of_sublist (sublist : c.names.Sublist b.names) : c.NamesFrom b :=
  ⟨c.names, [], (List.append_nil _).symm, sublist, Nat.zero_le 1, List.forall_mem_nil _⟩

/-- All properties of a bag of members are shown. -/
theorem isEnumerable_ofMembers {members : List (Name × Value)} (owned : (ofMembers members).owns k = true) :
    (ofMembers members).isEnumerable k = true := by
  have fold (props : List Property) (visible : ∀ p ∈ props, p.enumerable = true) :
      ∀ p ∈ members.foldl (fun props m => insert props ⟨m.1, m.2, true⟩) props, p.enumerable = true := by
    clear owned
    induction members generalizing props with
    | nil => exact visible
    | cons m rest ih =>
      refine ih _ fun p (listed : p ∈ insert props ⟨m.1, m.2, true⟩) => ?_
      unfold insert at listed
      split at listed
      · obtain ⟨q, among, rfl⟩ := List.mem_map.1 listed
        split
        · rfl
        · exact visible q among
      · rcases List.mem_append.1 listed with old | new
        · exact visible p old
        · rw [List.mem_singleton.1 new]
  rw [owns_eq] at owned
  obtain ⟨p, found⟩ := Option.isSome_iff_exists.1 owned
  rw [isEnumerable, found]
  exact fold [] (List.forall_mem_nil _) p (List.mem_of_find?_eq_some found)

end Bag

namespace Revision
variable {o : ObjId} {w : World} {k : Key} {r : Revision} {rs : List Revision} {b : Bag}

/-- Asks an object for a revision. -/
def run (o : ObjId) : Revision → Act Value
  | .put n x visible => Script.ObjectOp.run .put [.obj o, .str n, x, .bool visible]
  | .delete n => Script.ObjectOp.run .delete [.obj o, .str n]
  | .freeze => Script.ObjectOp.run .freeze [.obj o]

/-- The key that is put or deleted. -/
def key? : Revision → Option Key
  | .put n _ _ => some n
  | .delete n => some n
  | .freeze => none

/-- Something is put. -/
def isPut : Revision → Bool
  | .put _ _ _ => true
  | _ => false

/-- The key is deleted. -/
def deletes (k : Key) : Revision → Bool
  | .delete n => decide (.text n = k)
  | _ => false

/-- The value and the visibility with which the key is put, if it is. -/
def putAt? (k : Key) : Revision → Option (Value × Bool)
  | .put n x visible => if .text n = k then some (x, visible) else none
  | _ => none

/-- What an open bag becomes. -/
def applyTo (b : Bag) : Revision → Bag
  | .put n x visible => b.put (Name.ofText n) x visible
  | .delete n => b.erase n
  | .freeze => b.freeze

/-- What an open object answers. -/
def reply (o : ObjId) (b : Bag) : Revision → Value
  | .put _ x _ => x
  | .delete n => .bool (b.owns n)
  | .freeze => .obj o

/-- What a frozen object answers: it takes and loses no property, and is frozen already. -/
def refusal (o : ObjId) : Revision → Except Fault Value
  | .put n _ _ => .error (.frozen .set n)
  | .delete n => .error (.frozen .delete n)
  | .freeze => .ok (.obj o)

theorem exec_run_open (is_open : (w.heap.get o).bag.frozen = false) (r : Revision) :
    exec (r.run o) w = (.ok (r.reply o (w.heap.get o).bag),
      { w with heap := w.heap.setBag o (r.applyTo (w.heap.get o).bag) }) := by
  cases r with
  | put n x visible =>
    change exec (putProperty o (.str n) x visible >>= fun _ => pure x) w = _
    rw [exec_bind_ok (exec_putProperty x visible is_open (Name.of?_str n))]
    rfl
  | delete n =>
    change exec (eraseProperty o (.str n) >>= fun gone => pure (Datum.bool gone)) w = _
    rw [exec_bind_ok (exec_eraseProperty is_open (Name.of?_str n))]
    rfl
  | freeze => rfl

theorem exec_run_frozen (frozen : (w.heap.get o).bag.frozen = true) (r : Revision) :
    exec (r.run o) w = (r.refusal o, w) := by
  cases r with
  | put n x visible =>
    change exec (putProperty o (.str n) x visible >>= fun _ => pure x) w = _
    rw [exec_bind_error (exec_putProperty_frozen n x visible frozen)]
    rfl
  | delete n =>
    change exec (eraseProperty o (.str n) >>= fun gone => pure (Datum.bool gone)) w = _
    rw [exec_bind_error (exec_eraseProperty_frozen n frozen)]
    rfl
  | freeze =>
    have same : w.heap.setBag o (w.heap.get o).bag.freeze = w.heap := by
      have closed : (w.heap.get o).bag.freeze = (w.heap.get o).bag := by
        rw [Bag.freeze, ← frozen]
      rw [closed]
      exact w.heap.setBag_self o
    change (Except.ok (Datum.obj o), { w with heap := w.heap.setBag o (w.heap.get o).bag.freeze }) = _
    rw [same]
    rfl

theorem find?_applyTo_other (b : Bag) (other : r.key? ≠ some k) : (r.applyTo b).find? k = b.find? k := by
  cases r with
  | put n x visible => exact Bag.find?_put_other b x visible fun same => other (congrArg some same)
  | delete n => exact Bag.find?_erase_other b fun same => other (congrArg some same)
  | freeze => rfl

theorem owns_applyTo_same (b : Bag) (same : r.key? = some k) : (r.applyTo b).owns k = r.isPut := by
  cases r with
  | put n x visible =>
    cases same
    exact Bag.owns_put_same b (Name.ofText n) x visible
  | delete n =>
    cases same
    exact Bag.owns_erase b n
  | freeze => cases same

theorem names_applyTo (b : Bag) (r : Revision) : (r.applyTo b).NamesFrom b := by
  cases r with
  | put n x visible =>
    have names := Bag.names_put b (Name.ofText n) x visible
    cases owned : b.owns (Name.ofText n).key with
    | true =>
      rw [owned, if_pos rfl] at names
      exact .of_sublist (names ▸ List.Sublist.refl _)
    | false =>
      rw [owned, if_neg Bool.false_ne_true] at names
      refine ⟨b.names, [Name.ofText n], names, List.Sublist.refl _, Nat.le_refl 1, fun m listed => ?_⟩
      rw [List.mem_singleton.1 listed]
      exact owned
  | delete n =>
    refine .of_sublist ?_
    rw [applyTo, Bag.names_erase]
    exact List.filter_sublist
  | freeze => exact .of_sublist (List.Sublist.refl b.names)

theorem nodup_applyTo (distinct : b.keys.Nodup) (r : Revision) : (r.applyTo b).keys.Nodup := by
  cases r with
  | put n x visible => exact Bag.nodup_insert _ distinct
  | delete n => exact Bag.nodup_erase n distinct
  | freeze => exact distinct

/-! ## Many revisions -/

/-- The last revision that puts or deletes the key. -/
def lastEdit? (k : Key) (rs : List Revision) : Option Revision :=
  (rs.filter fun r => decide (r.key? = some k)).getLast?

/-- The value and the visibility with which the key was put last. -/
def lastPut? (k : Key) (rs : List Revision) : Option (Value × Bool) :=
  (rs.filterMap (putAt? k)).getLast?

theorem lastEdit?_concat (k : Key) (rs : List Revision) (r : Revision) :
    lastEdit? k (rs ++ [r]) = if r.key? = some k then some r else lastEdit? k rs := by
  rw [lastEdit?, List.filter_append, List.getLast?_append, List.filter_singleton]
  by_cases same : r.key? = some k
  · simp [same]
  · simp [same, lastEdit?]

theorem mem_of_lastEdit? (last : lastEdit? k rs = some r) : r ∈ rs ∧ r.key? = some k := by
  obtain ⟨listed, named⟩ := List.mem_filter.1 (List.mem_of_getLast? last)
  exact ⟨listed, of_decide_eq_true named⟩

theorem lastPut?_concat (k : Key) (rs : List Revision) (r : Revision) :
    lastPut? k (rs ++ [r]) = (r.putAt? k).or (lastPut? k rs) := by
  rw [lastPut?, List.filterMap_append, List.getLast?_append]
  cases put : r.putAt? k with
  | none => simp [put, lastPut?]
  | some entry => simp [put]

/-- A key that was edited is there if its last edit was a put, and any other one if it was there before. -/
theorem owns_foldl (b : Bag) (k : Key) (rs : List Revision) :
    (rs.foldl applyTo b).owns k = (lastEdit? k rs).elim (b.owns k) isPut := by
  induction rs using List.reverseRecOn with
  | nil => rfl
  | append_singleton rs r ih =>
    rw [List.foldl_append, lastEdit?_concat]
    by_cases same : r.key? = some k
    · rw [if_pos same]
      exact owns_applyTo_same _ same
    · rw [if_neg same, ← ih]
      exact (Bag.contents_congr (find?_applyTo_other _ same)).1

/-- A key that is there has the value and the visibility with which it was put last, or those from before. -/
theorem contents_foldl (b : Bag) (k : Key) (rs : List Revision) (owned : (rs.foldl applyTo b).owns k = true) :
    ((rs.foldl applyTo b).get k, (rs.foldl applyTo b).isEnumerable k) =
      (lastPut? k rs).getD (b.get k, b.isEnumerable k) := by
  induction rs using List.reverseRecOn with
  | nil => rfl
  | append_singleton rs r ih =>
    rw [List.foldl_append, List.foldl_cons, List.foldl_nil] at owned ⊢
    rw [lastPut?_concat]
    by_cases same : r.key? = some k
    · rw [owns_applyTo_same _ same] at owned
      cases r with
      | put n x visible =>
        cases same
        have put : (Revision.put n x visible).putAt? (.text n) = some (x, visible) := if_pos rfl
        rw [put]
        exact Bag.contents_put_same _ (Name.ofText n) x visible
      | delete n => cases owned
      | freeze => cases owned
    · obtain ⟨owns, contents⟩ := Bag.contents_congr (find?_applyTo_other (rs.foldl applyTo b) same)
      have unput : r.putAt? k = none := by
        cases r with
        | put n x visible => exact if_neg fun named => same (congrArg some named)
        | delete n => rfl
        | freeze => rfl
      rw [owns] at owned
      rw [contents, ih owned, unput]
      rfl

/-- A key is there if it was there from the first and never deleted, or its last edit was a put. -/
theorem owns_foldl_iff (b : Bag) (k : Key) (rs : List Revision) : (rs.foldl applyTo b).owns k = true ↔
    b.owns k = true ∧ (∀ r ∈ rs, r.deletes k = false) ∨ (lastEdit? k rs).any isPut = true := by
  rw [owns_foldl]
  cases last : lastEdit? k rs with
  | none =>
    have unedited : ∀ r ∈ rs, r.deletes k = false := by
      intro r listed
      have other : r.key? ≠ some k := by
        simpa using List.filter_eq_nil_iff.1 (List.getLast?_eq_none_iff.1 last) r listed
      cases r with
      | delete n => exact decide_eq_false fun same => other (congrArg some same)
      | put n x visible => rfl
      | freeze => rfl
    exact ⟨fun owned => .inl ⟨owned, unedited⟩, fun either => either.elim And.left (absurd · Bool.false_ne_true)⟩
  | some r =>
    obtain ⟨listed, named⟩ := mem_of_lastEdit? last
    refine ⟨.inr, fun either => either.elim (fun kept => ?_) id⟩
    have spared := kept.2 r listed
    cases r with
    | put n x visible => rfl
    | delete n =>
      cases named
      exact absurd spared (by simp [deletes])
    | freeze => cases named

/-- A key that is there without having been put was there from the first. -/
theorem first_of_lastPut? (unput : lastPut? k rs = none) (owned : (rs.foldl applyTo b).owns k = true) :
    b.owns k = true := by
  rcases (owns_foldl_iff b k rs).1 owned with ⟨first, -⟩ | edited
  · exact first
  · obtain ⟨r, last, put⟩ := (Option.any_eq_true _ _).1 edited
    obtain ⟨listed, named⟩ := mem_of_lastEdit? last
    have nothing : r.putAt? k = none := List.filterMap_eq_nil_iff.1 (List.getLast?_eq_none_iff.1 unput) r listed
    cases r with
    | put n x visible =>
      cases named
      exact absurd nothing (by simp [putAt?])
    | delete n => cases put
    | freeze => cases put

/-! ## Histories -/

/-- The world after an object was asked for one revision after the other. -/
def after (o : ObjId) (w : World) (rs : List Revision) : World :=
  rs.foldl (fun w r => (exec (r.run o) w).2) w

/-- The bag of the object then. -/
def bagAfter (o : ObjId) (w : World) (rs : List Revision) : Bag :=
  ((after o w rs).heap.get o).bag

/-- The revisions at which the object did not stop. -/
def carried (o : ObjId) : World → List Revision → List Revision
  | _, [] => []
  | w, r :: rs =>
    match exec (r.run o) w with
    | (.ok _, v) => r :: carried o v rs
    | (.error _, v) => carried o v rs

theorem after_concat (o : ObjId) (w : World) (rs : List Revision) (r : Revision) :
    after o w (rs ++ [r]) = (exec (r.run o) (after o w rs)).2 := by
  rw [after, List.foldl_append]
  rfl

theorem carried_append (o : ObjId) (w : World) (rs ts : List Revision) :
    carried o w (rs ++ ts) = carried o w rs ++ carried o (after o w rs) ts := by
  induction rs generalizing w with
  | nil => rfl
  | cons r rs ih =>
    have further : after o w (r :: rs) = after o (exec (r.run o) w).2 rs := rfl
    rw [List.cons_append, carried, carried, further]
    rcases exec (r.run o) w with ⟨_ | x, v⟩
    · exact ih v
    · exact congrArg (r :: ·) (ih v)

theorem size_after (o : ObjId) (w : World) (rs : List Revision) : (after o w rs).heap.size = w.heap.size := by
  induction rs using List.reverseRecOn with
  | nil => rfl
  | append_singleton rs r ih =>
    rw [after_concat]
    cases frozen : (bagAfter o w rs).frozen with
    | true => rw [exec_run_frozen frozen, ih]
    | false =>
      rw [exec_run_open frozen, ← ih]
      exact Heap.size_setBag _ _ _

theorem after_concat_frozen (frozen : (bagAfter o w rs).frozen = true) (r : Revision) :
    after o w (rs ++ [r]) = after o w rs := by
  rw [after_concat, exec_run_frozen frozen]

theorem bagAfter_concat_open (inside : o < w.heap.size) (is_open : (bagAfter o w rs).frozen = false) (r : Revision) :
    bagAfter o w (rs ++ [r]) = r.applyTo (bagAfter o w rs) := by
  rw [bagAfter, after_concat, exec_run_open is_open, Heap.get_setBag_same _ (by rw [size_after]; exact inside)]
  rfl

/-- One more revision is carried out, or it is refused and changes nothing. -/
theorem concat_cases (inside : o < w.heap.size) (rs : List Revision) (r : Revision) :
    bagAfter o w (rs ++ [r]) = r.applyTo (bagAfter o w rs) ∧ carried o w (rs ++ [r]) = carried o w rs ++ [r] ∨
    bagAfter o w (rs ++ [r]) = bagAfter o w rs ∧ carried o w (rs ++ [r]) = carried o w rs := by
  cases frozen : (bagAfter o w rs).frozen with
  | false =>
    refine .inl ⟨bagAfter_concat_open inside frozen r, ?_⟩
    rw [carried_append, carried, exec_run_open frozen]
    rfl
  | true =>
    have still : bagAfter o w (rs ++ [r]) = bagAfter o w rs := by
      rw [bagAfter, after_concat_frozen frozen, bagAfter]
    rw [still, carried_append, carried, exec_run_frozen frozen]
    cases r with
    | put n x visible => exact .inr ⟨rfl, List.append_nil _⟩
    | delete n => exact .inr ⟨rfl, List.append_nil _⟩
    | freeze =>
      refine .inl ⟨?_, rfl⟩
      rw [applyTo, Bag.freeze, ← frozen]

/-- The bag is what the revisions that were carried out have made of the first one. -/
theorem bagAfter_eq (inside : o < w.heap.size) (rs : List Revision) :
    bagAfter o w rs = (carried o w rs).foldl applyTo (w.heap.get o).bag := by
  induction rs using List.reverseRecOn with
  | nil => rfl
  | append_singleton rs r ih =>
    rcases concat_cases inside rs r with ⟨bag, done⟩ | ⟨bag, done⟩
    · rw [bag, done, List.foldl_append, ← ih]
      rfl
    · rw [bag, done, ih]

theorem nodup_bagAfter (inside : o < w.heap.size) (distinct : (w.heap.get o).bag.keys.Nodup) (rs : List Revision) :
    (bagAfter o w rs).keys.Nodup := by
  induction rs using List.reverseRecOn with
  | nil => exact distinct
  | append_singleton rs r ih =>
    rcases concat_cases inside rs r with ⟨bag, -⟩ | ⟨bag, -⟩
    · rw [bag]
      exact nodup_applyTo ih r
    · rw [bag]
      exact ih

/-- An object is frozen from the first freezing on. -/
theorem frozen_iff (inside : o < w.heap.size) (is_open : (w.heap.get o).bag.frozen = false) (rs : List Revision) :
    (bagAfter o w rs).frozen = true ↔ .freeze ∈ rs := by
  induction rs using List.reverseRecOn with
  | nil =>
    rw [bagAfter, after, List.foldl_nil, is_open]
    simp
  | append_singleton rs r ih =>
    rw [List.mem_append, ← ih, List.mem_singleton]
    cases frozen : (bagAfter o w rs).frozen with
    | true =>
      rw [bagAfter, after_concat_frozen frozen]
      exact iff_of_true frozen (.inl rfl)
    | false =>
      rw [bagAfter_concat_open inside frozen]
      cases r with
      | put n x visible => simp [applyTo, Bag.put, frozen]
      | delete n => simp [applyTo, Bag.erase, frozen]
      | freeze => simp [applyTo, Bag.freeze]

/-! ## In two containers -/

/-- What two containers answer, and what they become. -/
def runIn (o : ObjId) (c : Containers) : Revision → Except Fault Value × Containers
  | .put n x visible =>
    match c.put n x visible with
    | .ok d => (.ok x, d)
    | .error e => (.error e, c)
  | .delete n =>
    match c.delete n with
    | .ok (gone, d) => (.ok (.bool gone), d)
    | .error e => (.error e, c)
  | .freeze => (.ok (.obj o), c.freeze)

/-- Open containers answer as an open object does, become what its bag becomes, and stay in step. -/
theorem runIn_open {c : Containers} (is_open : c.frozen = false) (o : ObjId) (r : Revision) :
    (runIn o c r).1 = .ok (r.reply o c.toBag) ∧ (runIn o c r).2.toBag = r.applyTo c.toBag ∧
      (c.InStep → (runIn o c r).2.InStep) := by
  cases r with
  | put n x visible =>
    obtain ⟨d, put, bag, step⟩ := Containers.put_open is_open n x visible
    rw [runIn, put]
    exact ⟨rfl, bag, step⟩
  | delete n =>
    obtain ⟨d, deleted, bag, step⟩ := Containers.delete_open is_open n
    rw [runIn, deleted, reply, Containers.toBag_owns]
    exact ⟨rfl, bag, step⟩
  | freeze => exact ⟨rfl, Containers.toBag_freeze c, id⟩

theorem runIn_frozen {c : Containers} (frozen : c.frozen = true) (o : ObjId) (r : Revision) :
    runIn o c r = (r.refusal o, c) := by
  cases r with
  | put n x visible =>
    rw [runIn, Containers.put_frozen frozen]
    rfl
  | delete n =>
    rw [runIn, Containers.delete_frozen frozen]
    rfl
  | freeze =>
    rw [runIn, Containers.freeze, ← frozen]
    rfl

/-- One revision of an object whose bag is in two containers. -/
theorem exec_run_containers {c : Containers} (same : (w.heap.get o).bag = c.toBag) (r : Revision) :
    exec (r.run o) w = ((runIn o c r).1, { w with heap := w.heap.setBag o (runIn o c r).2.toBag }) := by
  cases frozen : c.frozen with
  | false =>
    obtain ⟨answer, bag, -⟩ := runIn_open frozen o r
    rw [exec_run_open (by rw [same]; exact frozen), answer, bag, same]
  | true =>
    have still : w.heap.setBag o c.toBag = w.heap := by
      rw [← same]
      exact w.heap.setBag_self o
    rw [exec_run_frozen (by rw [same]; exact frozen), runIn_frozen frozen, still]

/-- The answers of an object that is asked for one revision after the other. -/
def answers (o : ObjId) : World → List Revision → List (Except Fault Value)
  | _, [] => []
  | w, r :: rs => (exec (r.run o) w).1 :: answers o (exec (r.run o) w).2 rs

/-- The answers of two containers. -/
def answersIn (o : ObjId) : Containers → List Revision → List (Except Fault Value)
  | _, [] => []
  | c, r :: rs => (runIn o c r).1 :: answersIn o (runIn o c r).2 rs

/-- What two containers have become then. -/
def containersAfter (o : ObjId) (c : Containers) (rs : List Revision) : Containers :=
  rs.foldl (fun c r => (runIn o c r).2) c

/-- Two containers and the object whose bag they make up go on alike, by induction on the history. -/
theorem runIn_after {c : Containers} (inside : o < w.heap.size) (same : (w.heap.get o).bag = c.toBag)
    (rs : List Revision) :
    answers o w rs = answersIn o c rs ∧ bagAfter o w rs = (containersAfter o c rs).toBag ∧
      (c.InStep → (containersAfter o c rs).InStep) := by
  induction rs generalizing w c with
  | nil => exact ⟨rfl, same, id⟩
  | cons r rs ih =>
    have run := exec_run_containers same r
    have size : o < (exec (r.run o) w).2.heap.size := by
      rw [run, Heap.size_setBag]
      exact inside
    have same' : ((exec (r.run o) w).2.heap.get o).bag = (runIn o c r).2.toBag := by
      rw [run, Heap.get_setBag_same _ inside]
    have step : c.InStep → (runIn o c r).2.InStep := by
      cases frozen : c.frozen with
      | false => exact (runIn_open frozen o r).2.2
      | true =>
        rw [runIn_frozen frozen]
        exact id
    obtain ⟨further, bag, kept⟩ := ih size same'
    refine ⟨?_, bag, fun before => kept (step before)⟩
    rw [answers, answersIn, further, run]

/-! ## The order of names -/

/-- The key came in with the revision of that number and has stayed since; what was there at the start came in with
number zero. -/
structure Since (o : ObjId) (w : World) (rs : List Revision) (k : Key) (i : Nat) : Prop where
  bound : i ≤ rs.length
  stays : ∀ j, i ≤ j → j ≤ rs.length → (bagAfter o w (rs.take j)).owns k = true
  came : ∀ j, i = j + 1 → (bagAfter o w (rs.take j)).owns k = false

namespace Since
variable {i : Nat}

theorem start (owned : (bagAfter o w []).owns k = true) : Since o w [] k 0 := by
  refine ⟨Nat.le_refl 0, fun j _ high => ?_, by rintro j ⟨⟩⟩
  obtain rfl : j = 0 := Nat.le_zero.1 high
  exact owned

/-- A key that is still there after one more revision came in when it did. -/
theorem concat (since : Since o w rs k i) (still : (bagAfter o w (rs ++ [r])).owns k = true) :
    Since o w (rs ++ [r]) k i := by
  have length : (rs ++ [r]).length = rs.length + 1 := List.length_append
  have bound := since.bound
  refine ⟨by omega, fun j low high => ?_, fun j here => ?_⟩
  · rcases Nat.lt_or_ge rs.length j with last | inner
    · obtain rfl : j = (rs ++ [r]).length := by omega
      rw [List.take_length]
      exact still
    · rw [List.take_append_of_le_length inner]
      exact since.stays j low inner
  · rw [List.take_append_of_le_length (by omega)]
    exact since.came j here

/-- A key that is there after one more revision and was not before came in with it. -/
theorem new (absent : (bagAfter o w rs).owns k = false) (there : (bagAfter o w (rs ++ [r])).owns k = true) :
    Since o w (rs ++ [r]) k (rs.length + 1) := by
  have length : (rs ++ [r]).length = rs.length + 1 := List.length_append
  refine ⟨by omega, fun j low high => ?_, fun j here => ?_⟩
  · obtain rfl : j = (rs ++ [r]).length := by omega
    rw [List.take_length]
    exact there
  · obtain rfl : j = rs.length := by omega
    rw [List.take_left]
    exact absent

end Since

/-- Every key that is there came in at some time. -/
theorem exists_since (owned : (bagAfter o w rs).owns k = true) : ∃ i, Since o w rs k i := by
  induction rs using List.reverseRecOn with
  | nil => exact ⟨0, .start owned⟩
  | append_singleton rs r ih =>
    cases before : (bagAfter o w rs).owns k with
    | true =>
      obtain ⟨i, since⟩ := ih before
      exact ⟨i, since.concat owned⟩
    | false => exact ⟨_, .new before owned⟩

/-- The first name has been there for longer than the second; of names that were there at the start, the one that was
listed earlier has. -/
def CameBefore (o : ObjId) (w : World) (rs : List Revision) (m n : Name) : Prop :=
  ∃ i j, Since o w rs m.key i ∧ Since o w rs n.key j ∧
    (i < j ∨ i = 0 ∧ j = 0 ∧ [m, n].Sublist (w.heap.get o).bag.names)

/-- Names are listed in the order in which they came in, by induction on the history. -/
theorem pairwise_names (inside : o < w.heap.size) (rs : List Revision) :
    (bagAfter o w rs).names.Pairwise (CameBefore o w rs) := by
  induction rs using List.reverseRecOn with
  | nil =>
    refine List.pairwise_iff_forall_sublist.2 fun {m n} two => ?_
    have since {a : Name} (listed : a ∈ [m, n]) : Since o w [] a.key 0 :=
      .start (Bag.mem_names_iff.1 (List.mem_map.2 ⟨a, two.subset listed, rfl⟩))
    exact ⟨0, 0, since List.mem_cons_self, since (List.mem_cons_of_mem m List.mem_cons_self), .inr ⟨rfl, rfl, two⟩⟩
  | append_singleton rs r ih =>
    have step : (bagAfter o w (rs ++ [r])).NamesFrom (bagAfter o w rs) := by
      rcases concat_cases inside rs r with ⟨bag, -⟩ | ⟨bag, -⟩
      · rw [bag]
        exact names_applyTo _ r
      · rw [bag]
        exact .of_sublist (List.Sublist.refl _)
    obtain ⟨kept, new, names, sublist, short, fresh⟩ := step
    have owned {n : Name} (listed : n ∈ kept ++ new) : (bagAfter o w (rs ++ [r])).owns n.key = true :=
      Bag.mem_names_iff.1 (List.mem_map.2 ⟨n, names ▸ listed, rfl⟩)
    rw [names, List.pairwise_append]
    refine ⟨(ih.sublist sublist).imp_of_mem fun {m n} here there before => ?_, ?_, fun m here n there => ?_⟩
    · obtain ⟨i, j, since, since', order⟩ := before
      exact ⟨i, j, since.concat (owned (List.mem_append_left new here)),
        since'.concat (owned (List.mem_append_left new there)), order⟩
    · rcases new with _ | ⟨n, _ | ⟨m, new⟩⟩
      · exact .nil
      · exact List.pairwise_singleton _ _
      · exact absurd short (by simp)
    · have old : (bagAfter o w rs).owns m.key = true :=
        Bag.mem_names_iff.1 (List.mem_map.2 ⟨m, sublist.subset here, rfl⟩)
      obtain ⟨i, since⟩ := exists_since old
      refine ⟨i, _, since.concat (owned (List.mem_append_left new here)),
        .new (fresh n there) (owned (List.mem_append_right kept there)), .inl ?_⟩
      exact Nat.lt_succ_of_le since.bound

/-! ## All together -/

/-- A bag over any history. An object that was made with some members is asked for revisions, one after the other, of
which some may be refused. Then it owns a name exactly if the name is a first one and was never deleted, or its last edit
was a put; its value and its visibility are those with which it was put last, or the first value, shown. The names are
listed once each in the order in which they came in last: one that is put again keeps its place, and one that is deleted
and put again goes to the end. Everything is carried out until the object is frozen, and after that a put and a deletion
stop with the report that the object is frozen, and nothing changes any more. All of this is so for two containers, one
of values and one of hidden keys, that take the same revisions: they give the same answers, make up the same bag, and
hide no key without a value. -/
theorem bag_over_history {members : List (Name × Value)} (inside : o < w.heap.size)
    (new : (w.heap.get o).bag = .ofMembers members) (rs : List Revision) :
    (∀ k, (bagAfter o w rs).owns k = true ↔
      (Bag.ofMembers members).owns k = true ∧ (∀ r ∈ carried o w rs, r.deletes k = false) ∨
      (lastEdit? k (carried o w rs)).any isPut = true) ∧
    (∀ k, (bagAfter o w rs).owns k = true → ((bagAfter o w rs).get k, (bagAfter o w rs).isEnumerable k) =
      (lastPut? k (carried o w rs)).getD ((Bag.ofMembers members).get k, true)) ∧
    ((∀ k, k ∈ (bagAfter o w rs).names.map (·.key) ↔ (bagAfter o w rs).owns k = true) ∧
      ((bagAfter o w rs).names.map (·.key)).Nodup ∧
      (bagAfter o w rs).names.Pairwise (CameBefore o w rs)) ∧
    (.freeze ∉ rs → (∀ r : Revision, (exec (r.run o) (after o w rs)).1 = .ok (r.reply o (bagAfter o w rs))) ∧
      ∀ n x visible, ((bagAfter o w rs).owns (.text n) = true →
          (bagAfter o w (rs ++ [.put n x visible])).names = (bagAfter o w rs).names) ∧
        (bagAfter o w (rs ++ [.delete n] ++ [.put n x visible])).names =
          (bagAfter o w rs).names.filter (·.key != .text n) ++ [Name.ofText n]) ∧
    (.freeze ∈ rs → ∀ r : Revision, exec (r.run o) (after o w rs) = (r.refusal o, after o w rs)) ∧
    ∃ c, containersAfter o (.ofMembers members) rs = c ∧ answers o w rs = answersIn o (.ofMembers members) rs ∧
      bagAfter o w rs = c.toBag ∧ (bagAfter o w rs).names = c.names ∧
      (∀ k, (bagAfter o w rs).owns k = c.owns k ∧ (bagAfter o w rs).get k = c.get k ∧
        (bagAfter o w rs).isEnumerable k = c.isEnumerable k) ∧ c.InStep := by
  have is_open : (w.heap.get o).bag.frozen = false := by
    rw [new]
    rfl
  have distinct : (w.heap.get o).bag.keys.Nodup := by
    rw [new]
    exact Bag.nodup_ofMembers members
  have bag := bagAfter_eq inside rs
  rw [new] at bag
  obtain ⟨alike, made_up, step⟩ := runIn_after inside (new.trans (Containers.toBag_ofMembers members).symm) rs
  refine ⟨fun k => ?_, fun k owned => ?_, ⟨fun k => Bag.mem_names_iff, ?_, pairwise_names inside rs⟩, fun unfrozen => ?_,
    fun frozen r => exec_run_frozen ((frozen_iff inside is_open rs).2 frozen) r,
    _, rfl, alike, made_up, ?_, fun k => ?_, step (Containers.inStep_ofMembers members)⟩
  · rw [bag]
    exact owns_foldl_iff _ k _
  · rw [bag] at owned ⊢
    rw [contents_foldl _ k _ owned]
    cases put : lastPut? k (carried o w rs) with
    | some entry => rfl
    | none =>
      -- without a put the name is a first one, and these are shown
      have first : (Bag.ofMembers members).owns k = true := first_of_lastPut? put owned
      rw [Bag.isEnumerable_ofMembers first]
  · rw [← Bag.keys_eq]
    exact nodup_bagAfter inside distinct rs
  · have open_now : (bagAfter o w rs).frozen = false :=
      Bool.not_eq_true _ ▸ fun frozen => unfrozen ((frozen_iff inside is_open rs).1 frozen)
    refine ⟨fun r => by rw [exec_run_open open_now, bagAfter], fun n x visible => ⟨fun owned => ?_, ?_⟩⟩
    · rw [bagAfter_concat_open inside open_now, applyTo, Bag.names_put, Name.key_ofText, owned, if_pos rfl]
    · have deleted := bagAfter_concat_open inside open_now (.delete n)
      have open_then : (bagAfter o w (rs ++ [.delete n])).frozen = false := by
        rw [deleted]
        exact open_now
      rw [bagAfter_concat_open inside open_then, deleted, applyTo, applyTo, Bag.names_put, Bag.names_erase,
        Name.key_ofText, Bag.owns_erase, if_neg Bool.false_ne_true]
  · rw [made_up, Containers.toBag_names]
  · rw [made_up]
    exact ⟨Containers.toBag_owns _ k, Containers.toBag_get _ k, Containers.toBag_isEnumerable _ k⟩

/-- Revisions of an object with two names: one name is added, one is deleted and comes in again hidden, one is put again,
and two more revisions come after the object was frozen. -/
def sampleHistory : List Revision :=
  [.put "c" (.int 3) true, .delete "a", .put "a" (.int 4) false, .put "b" (.int 5) true, .freeze, .put "d" .null true,
    .delete "b"]

theorem bag_over_history_sample : ∃ w members, 1 < w.heap.size ∧ (w.heap.get 1).bag = .ofMembers members ∧
    (bagAfter 1 w sampleHistory).names.map (·.key) = [.text "b", .text "c", .text "a"] ∧
    (bagAfter 1 w sampleHistory).names.Pairwise (CameBefore 1 w sampleHistory) ∧
    ((bagAfter 1 w sampleHistory).get (.text "a"), (bagAfter 1 w sampleHistory).isEnumerable (.text "a")) =
      (.int 4, false) ∧
    (∀ r : Revision, exec (r.run 1) (after 1 w sampleHistory) = (r.refusal 1, after 1 w sampleHistory)) ∧
    bagAfter 1 w sampleHistory = (containersAfter 1 (.ofMembers members) sampleHistory).toBag ∧
    (containersAfter 1 (.ofMembers members) sampleHistory).hidden = {.text "a"} := by
  let members : List (Name × Value) := [(Name.ofText "a", .int 1), (Name.ofText "b", .int 2)]
  let w := World.after [.newObject .null members]
  have inside : 1 < w.heap.size := by decide +kernel
  have new : (w.heap.get 1).bag = .ofMembers members := rfl
  have names : (bagAfter 1 w sampleHistory).names.map (·.key) = [.text "b", .text "c", .text "a"] := by decide +kernel
  have last : lastPut? (.text "a") (carried 1 w sampleHistory) = some (.int 4, false) := by decide +kernel
  have hidden : (containersAfter 1 (.ofMembers members) sampleHistory).hidden = {.text "a"} := by decide +kernel
  obtain ⟨-, contents, ⟨listed, -, order⟩, -, frozen, _, rfl, -, made_up, -⟩ := bag_over_history inside new sampleHistory
  have owned : (bagAfter 1 w sampleHistory).owns (.text "a") = true := (listed _).1 (by rw [names]; decide)
  refine ⟨w, members, inside, new, names, order, ?_, frozen (by simp [sampleHistory]), made_up, hidden⟩
  rw [contents _ owned, last]
  rfl

end Revision

end Overlay
