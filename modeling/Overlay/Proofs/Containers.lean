import Mathlib.Data.Finset.Basic
import Overlay.Proofs.Contents
import Overlay.Proofs.Editing

/-!
# Bags in two containers

A property bag can be kept in two containers: the values under their names, in the order in which these came in, and
apart from them the set of keys that enumerations skip. Each change has to touch both. `Containers.toBag` reads the two
as one bag whose properties carry their own visibility. Putting, deleting and freezing give what they give on bags, and
all questions have the same answers. The set never holds a key that has no value (`Containers.InStep`).
-/

namespace Overlay
set_option autoImplicit false

/-- Values under names, in order, and the keys that are not shown in enumerations. -/
structure Containers where
  values : List (Name × Value) := []
  hidden : Finset Key := ∅
  frozen : Bool := false

namespace Containers
variable {c d : Containers} {k : Key} {n : Text} {x : Value} {visible : Bool}

/-- There is a value under the key. -/
def owns (c : Containers) (k : Key) : Bool :=
  c.values.any (·.1.key == k)

/-- The value under the key, or undefined. -/
def get (c : Containers) (k : Key) : Value :=
  (c.values.find? (·.1.key == k)).elim .undefined (·.2)

/-- The names, in order. -/
def names (c : Containers) : List Name :=
  c.values.map (·.1)

/-- There is a value under the key, and enumerations do not skip it. -/
def isEnumerable (c : Containers) (k : Key) : Bool :=
  c.owns k && decide (k ∉ c.hidden)

/-- The values with `x` in place of the one of its name, or at the end. -/
def assign (values : List (Name × Value)) (m : Name) (x : Value) : List (Name × Value) :=
  if values.any (·.1.key == m.key) then values.map fun e => if e.1.key == m.key then (e.1, x) else e
  else values ++ [(m, x)]

/-- The hidden keys after a value was put under the key. -/
def hide (hidden : Finset Key) (k : Key) (visible : Bool) : Finset Key :=
  if visible then hidden.erase k else insert k hidden

/-- Puts a value under a name, unless the containers are frozen. -/
def put (c : Containers) (n : Text) (x : Value) (visible : Bool) : Except Fault Containers :=
  if c.frozen then .error (.frozen .set n)
  else .ok { c with values := assign c.values (Name.ofText n) x, hidden := hide c.hidden n visible }

/-- Deletes a name and tells whether it was there, unless the containers are frozen. -/
def delete (c : Containers) (n : Text) : Except Fault (Bool × Containers) :=
  if c.frozen then .error (.frozen .delete n)
  else if c.owns n then
    .ok (true, { c with values := c.values.filter (·.1.key != n), hidden := c.hidden.erase n })
  else .ok (false, c)

/-- The containers, closed to changes. -/
def freeze (c : Containers) : Containers :=
  { c with frozen := true }

/-- Open containers of visible members; of two members of one key the last gives the value. -/
def ofMembers (members : List (Name × Value)) : Containers :=
  { values := members.foldl (fun values m => assign values m.1 m.2) [] }

/-! ## As one bag -/

/-- A value under a name as a property. -/
def property (hidden : Finset Key) (e : Name × Value) : Property :=
  ⟨e.1, e.2, decide (e.1.key ∉ hidden)⟩

/-- The two containers as one bag. -/
def toBag (c : Containers) : Bag :=
  ⟨c.values.map (property c.hidden), c.frozen⟩

theorem toBag_owns (c : Containers) (k : Key) : c.toBag.owns k = c.owns k := by
  rw [Bag.owns, toBag, List.any_map]
  rfl

theorem toBag_names (c : Containers) : c.toBag.names = c.names := by
  rw [Bag.names, toBag, List.map_map]
  rfl

theorem toBag_find? (c : Containers) (k : Key) :
    c.toBag.find? k = (c.values.find? (·.1.key == k)).map (property c.hidden) := by
  rw [Bag.find?, toBag, List.find?_map]
  rfl

theorem toBag_get (c : Containers) (k : Key) : c.toBag.get k = c.get k := by
  rw [Bag.get, toBag_find?, get]
  cases c.values.find? (·.1.key == k) with
  | none => rfl
  | some e => rfl

theorem toBag_isEnumerable (c : Containers) (k : Key) : c.toBag.isEnumerable k = c.isEnumerable k := by
  rw [Bag.isEnumerable, toBag_find?, isEnumerable]
  cases found : c.values.find? (·.1.key == k) with
  | none =>
    have absent : c.owns k = false := by
      rw [owns, List.any_eq_false]
      intro e listed
      exact List.find?_eq_none.1 found e listed
    rw [absent]
    rfl
  | some e =>
    have key : e.1.key = k := by simpa using List.find?_some found
    have there : c.owns k = true := by
      rw [owns, List.any_eq_true]
      exact ⟨e, List.mem_of_find?_eq_some found, by simp [key]⟩
    simp [there, property, key]

theorem mem_hide_same (hidden : Finset Key) (k : Key) (visible : Bool) :
    k ∈ hide hidden k visible ↔ visible = false := by
  cases visible <;> simp [hide]

theorem mem_hide_other {j : Key} (hidden : Finset Key) (visible : Bool) (other : j ≠ k) :
    j ∈ hide hidden k visible ↔ j ∈ hidden := by
  cases visible <;> simp [hide, other]

theorem property_hide_other {e : Name × Value} (hidden : Finset Key) (visible : Bool) (other : e.1.key ≠ k) :
    property (hide hidden k visible) e = property hidden e := by
  simp only [property, mem_hide_other hidden visible other]

/-- An assignment is an insertion of the property, with the flags of all other properties as they were. -/
theorem map_property_assign (values : List (Name × Value)) (hidden : Finset Key) (m : Name) (x : Value)
    (visible : Bool) : (assign values m x).map (property (hide hidden m.key visible)) =
      Bag.insert (values.map (property hidden)) ⟨m, x, visible⟩ := by
  have flag : decide (m.key ∉ hide hidden m.key visible) = visible := by
    simp [mem_hide_same]
  have owned : (values.map (property hidden)).any (·.name.key == m.key) = values.any (·.1.key == m.key) := by
    rw [List.any_map]
    rfl
  unfold assign Bag.insert
  rw [owned]
  split
  · -- the name keeps its place
    rw [List.map_map, List.map_map]
    apply List.map_congr_left
    intro e _
    by_cases same : e.1.key = m.key
    · simp [property, same, flag]
    · simp [property, same, mem_hide_other hidden visible same]
  · next absent =>
    rw [List.map_append]
    congr 1
    · apply List.map_congr_left
      intro e listed
      apply property_hide_other
      intro same
      exact absent (List.any_eq_true.2 ⟨e, listed, by simp [same]⟩)
    · simp [property, flag]

theorem toBag_ofMembers (members : List (Name × Value)) : (ofMembers members).toBag = Bag.ofMembers members := by
  have fold (values : List (Name × Value)) :
      (members.foldl (fun values m => assign values m.1 m.2) values).map (property ∅) =
        members.foldl (fun props m => Bag.insert props ⟨m.1, m.2, true⟩) (values.map (property ∅)) := by
    induction members generalizing values with
    | nil => rfl
    | cons m rest ih =>
      have step := map_property_assign values ∅ m.1 m.2 true
      have none_hidden : hide ∅ m.1.key true = ∅ := by simp [hide]
      rw [none_hidden] at step
      rw [List.foldl_cons, List.foldl_cons, ih, step]
  rw [toBag, Bag.ofMembers]
  exact congrArg (Bag.mk · false) (fold [])

/-! ## Changes -/

/-- Every hidden key has a value. -/
def InStep (c : Containers) : Prop :=
  ∀ k ∈ c.hidden, c.owns k = true

theorem inStep_ofMembers (members : List (Name × Value)) : (ofMembers members).InStep := by
  intro k listed
  simp [ofMembers] at listed

/-- Open containers take a value as the bag does, and stay in step. -/
theorem put_open (is_open : c.frozen = false) (n : Text) (x : Value) (visible : Bool) :
    ∃ d, c.put n x visible = .ok d ∧ d.toBag = c.toBag.put (Name.ofText n) x visible ∧ (c.InStep → d.InStep) := by
  let d : Containers :=
    { c with values := assign c.values (Name.ofText n) x, hidden := hide c.hidden n visible }
  have bag : d.toBag = c.toBag.put (Name.ofText n) x visible :=
    congrArg (Bag.mk · c.frozen) (map_property_assign c.values c.hidden (Name.ofText n) x visible)
  refine ⟨d, by simp [put, is_open, d], bag, fun step k listed => ?_⟩
  rw [← toBag_owns, bag]
  by_cases same : k = n
  · subst same
    exact Bag.owns_put_same c.toBag (Name.ofText n) x visible
  · have before : k ∈ c.hidden := (mem_hide_other c.hidden visible same).1 listed
    rw [Bag.owns_put_other _ _ _ (Ne.symm same), toBag_owns]
    exact step k before

theorem put_frozen (frozen : c.frozen = true) (n : Text) (x : Value) (visible : Bool) :
    c.put n x visible = .error (.frozen .set n) :=
  if_pos frozen

/-- Deleting from both containers is erasing the property. -/
theorem map_property_filter (values : List (Name × Value)) (hidden : Finset Key) (k : Key) :
    (values.filter (·.1.key != k)).map (property (hidden.erase k)) =
      (values.map (property hidden)).filter (·.name.key != k) := by
  rw [List.filter_map]
  apply List.map_congr_left
  intro e listed
  have other : e.1.key ≠ k := by simpa using (List.mem_filter.1 listed).2
  exact property_hide_other hidden true other

/-- Open containers lose a name as the bag does, tell whether it was there, and stay in step. -/
theorem delete_open (is_open : c.frozen = false) (n : Text) :
    ∃ d, c.delete n = .ok (c.owns n, d) ∧ d.toBag = c.toBag.erase n ∧ (c.InStep → d.InStep) := by
  have erased : c.toBag.erase n =
      ⟨(c.values.filter (·.1.key != .text n)).map (property (c.hidden.erase n)), c.frozen⟩ :=
    congrArg (Bag.mk · c.frozen) (map_property_filter c.values c.hidden n).symm
  cases owned : c.owns n with
  | true =>
    let d : Containers := { c with values := c.values.filter (·.1.key != .text n), hidden := c.hidden.erase n }
    have bag : d.toBag = c.toBag.erase n := erased.symm
    refine ⟨d, by simp [delete, is_open, owned, d], bag, fun step k listed => ?_⟩
    obtain ⟨other, before⟩ := Finset.mem_erase.1 listed
    rw [← toBag_owns, bag, Bag.owns_eq, Bag.find?_erase_other c.toBag (Ne.symm other), ← Bag.owns_eq, toBag_owns]
    exact step k before
  | false =>
    refine ⟨c, by simp [delete, is_open, owned], ?_, id⟩
    -- nothing has the key, so nothing is erased
    have absent : ∀ p ∈ c.toBag.props, (p.name.key != n) = true := by
      intro p listed
      rw [← toBag_owns, Bag.owns, List.any_eq_false] at owned
      simpa using owned p listed
    rw [Bag.erase, List.filter_eq_self.2 absent]

theorem delete_frozen (frozen : c.frozen = true) (n : Text) : c.delete n = .error (.frozen .delete n) :=
  if_pos frozen

theorem toBag_freeze (c : Containers) : c.freeze.toBag = c.toBag.freeze := rfl

end Containers

end Overlay
