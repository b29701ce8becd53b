import Overlay.Heap
import Mathlib.Logic.Relation

/-!
# Bags and heaps under changes

What is read from a bag after a put, and from a heap after an object was made or a bag replaced. A heap
comes about by four changes (`Heap.Change`): an object is made, a property of an open object is put or
erased, an object is frozen. No change moves a link or makes an object a host function
(`Changes.shape`), and none touches a frozen object (`Changes.keeps`).
-/

namespace Overlay
set_option autoImplicit false

namespace Bag

/-- After an insertion the property of the inserted key holds what was inserted, whatever its spelling. -/
theorem find?_insert_same (props : List Property) (p : Property) :
    ∃ q, (insert props p).find? (·.name.key == p.name.key) = some q ∧
      q.value = p.value ∧ q.enumerable = p.enumerable := by
  unfold insert
  split
  · rename_i present
    induction props with
    | nil => simp at present
    | cons q rest ih =>
      by_cases same : q.name.key = p.name.key
      · exact ⟨{ p with name := q.name }, by simp [same], rfl, rfl⟩
      · have later : rest.any (·.name.key == p.name.key) = true := by simpa [same] using present
        simpa [same] using ih later
  · rename_i absent
    refine ⟨p, ?_, rfl, rfl⟩
    have none : props.find? (·.name.key == p.name.key) = none := by
      simpa using absent
    simp [List.find?_append, none]

/-- An insertion leaves the properties of other keys alone. -/
theorem find?_insert_other (props : List Property) {p : Property} {k : Key} (other : p.name.key ≠ k) :
    (insert props p).find? (·.name.key == k) = props.find? (·.name.key == k) := by
  have replaced : (props.map fun q => if q.name.key == p.name.key then { p with name := q.name } else q).find?
      (·.name.key == k) = props.find? (·.name.key == k) := by
    induction props with
    | nil => rfl
    | cons q rest ih =>
      rw [List.map_cons, List.find?_cons, List.find?_cons, ih]
      by_cases same : q.name.key = p.name.key
      · have differs : (p.name.key == k) = false := beq_eq_false_iff_ne.2 other
        simp [same, differs]
      · simp [same]
  unfold insert
  split
  · exact replaced
  · simp [List.find?_append, other]

theorem find?_put_same (b : Bag) (n : Name) (x : Value) (e : Bool) :
    ((b.put n x e).find? n.key).map (·.value) = some x := by
  obtain ⟨q, found, value, -⟩ := find?_insert_same b.props ⟨n, x, e⟩
  exact Option.map_eq_some_iff.2 ⟨q, found, value⟩

theorem find?_put_other (b : Bag) {n : Name} {k : Key} (x : Value) (e : Bool) (other : n.key ≠ k) :
    (b.put n x e).find? k = b.find? k :=
  find?_insert_other b.props other

/-- Erasing a key leaves the properties of other keys alone. -/
theorem find?_erase_other (b : Bag) {k l : Key} (other : k ≠ l) : (b.erase k).find? l = b.find? l := by
  rw [find?, erase, List.find?_filter, find?]
  refine congrArg (b.props.find? ·) (funext fun q => ?_)
  by_cases here : q.name.key = l
  · simp [here, Ne.symm other]
  · simp [here]

theorem owns_eq (b : Bag) (k : Key) : b.owns k = (b.find? k).isSome := by
  rw [owns, find?, List.isSome_find?]

end Bag

namespace Heap

@[simp] theorem size_setBag (h : Heap) (o : ObjId) (b : Bag) : (h.setBag o b).size = h.size := by
  simp [setBag]

theorem get_push_old {h : Heap} {o : ObjId} (x : Obj) (old : o < h.size) : get (h.push x) o = h.get o := by
  simp [get, Array.getElem?_push, Nat.ne_of_lt old]

@[simp] theorem get_push_new (h : Heap) (x : Obj) : get (h.push x) h.size = x := by
  simp [get]

theorem get_of_size_le {h : Heap} {o : ObjId} (out : h.size ≤ o) : h.get o = {} := by
  simp [get, Array.getElem?_eq_none out]

theorem lt_size_of_frozen {h : Heap} {o : ObjId} (frozen : (h.get o).bag.frozen = true) : o < h.size :=
  Nat.lt_of_not_le fun out => by
    rw [get_of_size_le out] at frozen
    cases frozen

theorem lt_size_of_hostFn? {h : Heap} {o : ObjId} {f : HostFn} (found : h.hostFn? o = some f) : o < h.size :=
  Nat.lt_of_not_le fun out => by
    rw [hostFn?, get_of_size_le out] at found
    cases found

theorem get_setBag_same {h : Heap} {o : ObjId} (b : Bag) (old : o < h.size) :
    (h.setBag o b).get o = { h.get o with bag := b } := by
  simp [get, setBag, Array.getElem?_modify, Array.getElem?_eq_getElem old]

theorem get_setBag_other (h : Heap) {o p : ObjId} (b : Bag) (other : p ≠ o) :
    (h.setBag o b).get p = h.get p := by
  simp [get, setBag, Array.getElem?_modify, other.symm]

theorem setBag_push_last (h : Heap) (x : Obj) (b : Bag) :
    setBag (h.push x) h.size b = h.push { x with bag := b } := by
  apply Array.ext_getElem?
  intro i
  simp only [setBag, Array.getElem?_modify, Array.getElem?_push]
  split <;> split <;> simp_all

/-- Replacing a bag leaves every link and every host function as it was. -/
theorem get_setBag_shape (h : Heap) (o p : ObjId) (b : Bag) :
    ((h.setBag o b).get p).proto = (h.get p).proto ∧ ((h.setBag o b).get p).host = (h.get p).host := by
  by_cases same : p = o
  · subst same
    by_cases old : p < h.size
    · rw [get_setBag_same b old]
      exact ⟨rfl, rfl⟩
    · rw [get_of_size_le (by simpa using old), get_of_size_le (by simpa using old)]
      exact ⟨rfl, rfl⟩
  · rw [get_setBag_other h b same]
    exact ⟨rfl, rfl⟩

/-- The value of an own member of an object. -/
def member? (h : Heap) (o : ObjId) (k : Key) : Option Value :=
  ((h.get o).bag.find? k).map (·.value)

theorem member?_of_get {h k : Heap} {o : ObjId} (same : k.get o = h.get o) (key : Key) :
    k.member? o key = h.member? o key := by
  rw [member?, same, member?]

/-- The object is there and its link leads to the value. -/
def Linked (h : Heap) (o : ObjId) (link : Value) : Prop :=
  o < h.size ∧ (h.get o).proto = link

theorem linked_push (h : Heap) (x : Obj) : Linked (h.push x) h.size x.proto := by
  refine ⟨?_, by rw [get_push_new]⟩
  rw [Array.size_push]
  exact Nat.lt_succ_self _

theorem owns_eq_member? (h : Heap) (o : ObjId) (k : Key) : h.owns o k = (h.member? o k).isSome := by
  rw [owns, Bag.owns_eq, member?, Option.isSome_map]

theorem get_eq_member? (h : Heap) (o : ObjId) (k : Key) :
    (h.get o).bag.get k = (h.member? o k).getD .undefined := by
  rw [Bag.get, member?]
  cases (h.get o).bag.find? k <;> rfl

theorem owns_of_member? {h : Heap} {o : ObjId} {k : Key} {x : Value} (found : h.member? o k = some x) :
    h.owns o k = true ∧ (h.get o).bag.get k = x := by
  obtain ⟨p, here, value⟩ := Option.map_eq_some_iff.1 found
  rw [owns, Bag.owns_eq, Bag.get, here]
  exact ⟨rfl, value⟩

theorem member?_put_same {h : Heap} {o : ObjId} (n : Name) (x : Value) (e : Bool) (inside : o < h.size) :
    (h.setBag o ((h.get o).bag.put n x e)).member? o n.key = some x := by
  obtain ⟨q, found, value, -⟩ := Bag.find?_insert_same (h.get o).bag.props ⟨n, x, e⟩
  rw [member?, get_setBag_same _ inside]
  exact Option.map_eq_some_iff.2 ⟨q, found, value⟩

/-- A member of an object whose bag is replaced by one with the same property is what it was. -/
theorem member?_setBag (h : Heap) {o p : ObjId} {b : Bag} {k : Key}
    (same : p = o → b.find? k = (h.get o).bag.find? k) : (h.setBag o b).member? p k = h.member? p k := by
  by_cases here : p = o
  · by_cases inside : o < h.size
    · rw [here, member?, get_setBag_same b inside, same here, member?]
    · have out := Nat.le_of_not_lt inside
      rw [here, member?, get_of_size_le (by rw [size_setBag]; exact out), member?, get_of_size_le out]
  · rw [member?, get_setBag_other h b here, member?]

theorem member?_put_other (h : Heap) {o p : ObjId} {n : Name} {k : Key} (x : Value) (e : Bool)
    (other : n.key ≠ k ∨ p ≠ o) :
    (h.setBag o ((h.get o).bag.put n x e)).member? p k = h.member? p k := by
  refine member?_setBag h fun same => ?_
  have differs : n.key ≠ k := other.resolve_right fun apart => apart same
  rw [Bag.find?, Bag.put, Bag.find?_insert_other _ differs]
  rfl

/-- The four changes of a heap: an object is made, a property of an open object is put or erased, an object
is frozen. -/
inductive Change (h : Heap) : Heap → Prop
  | make (proto : Value) (members : List (Name × Value)) (host : Option HostFn) :
    Change h (h.push ⟨proto, .ofMembers members, host⟩)
  | put (o : ObjId) (name : Name) (value : Value) (enumerable : Bool) (is_open : (h.get o).bag.frozen = false) :
    Change h (h.setBag o ((h.get o).bag.put name value enumerable))
  | erase (o : ObjId) (k : Key) (is_open : (h.get o).bag.frozen = false) :
    Change h (h.setBag o ((h.get o).bag.erase k))
  | freeze (o : ObjId) : Change h (h.setBag o (h.get o).bag.freeze)

/-- One heap comes from another by changes, one after the other. -/
def Changes : Heap → Heap → Prop :=
  Relation.ReflTransGen Change

/-- What is frozen in the first heap is the same in the second: its link, its properties in order with their
values and visibility, and that it is frozen. -/
def Keeps (h k : Heap) : Prop :=
  ∀ o, (h.get o).bag.frozen = true → k.get o = h.get o

/-- Old objects keep their links and what makes them host functions. -/
structure SameShape (h k : Heap) : Prop where
  size : h.size ≤ k.size
  proto : ∀ o, o < h.size → (k.get o).proto = (h.get o).proto
  host : ∀ o, o < h.size → (k.get o).host = (h.get o).host

theorem Change.keeps {h k : Heap} (change : Change h k) : Keeps h k := by
  intro o frozen
  have old := lt_size_of_frozen frozen
  cases change with
  | make proto members host => exact get_push_old _ old
  | put p name value enumerable is_open =>
    have other : o ≠ p := fun same => by rw [same, is_open] at frozen; cases frozen
    exact get_setBag_other h _ other
  | erase p k is_open =>
    have other : o ≠ p := fun same => by rw [same, is_open] at frozen; cases frozen
    exact get_setBag_other h _ other
  | freeze p =>
    by_cases other : o = p
    · subst other
      -- freezing again what is frozen changes nothing
      have same : (h.get o).bag.freeze = (h.get o).bag := by
        rw [Bag.freeze, ← frozen]
      rw [get_setBag_same _ old, same]
    · exact get_setBag_other h _ other

theorem Change.sameShape {h k : Heap} (change : Change h k) : SameShape h k := by
  have replaced : ∀ o b, SameShape h (h.setBag o b) := fun o b =>
    ⟨by simp, fun p _ => (get_setBag_shape h o p b).1, fun p _ => (get_setBag_shape h o p b).2⟩
  cases change with
  | make proto members host =>
    exact ⟨by simp, fun p old => by rw [get_push_old _ old], fun p old => by rw [get_push_old _ old]⟩
  | put o name value enumerable is_open => exact replaced o _
  | erase o k is_open => exact replaced o _
  | freeze o => exact replaced o _

theorem Keeps.trans {h k l : Heap} (near : Keeps h k) (far : Keeps k l) : Keeps h l := by
  intro o frozen
  have same := near o frozen
  rw [far o (by rw [same]; exact frozen), same]

theorem SameShape.trans {h k l : Heap} (near : SameShape h k) (far : SameShape k l) : SameShape h l := by
  have still {o : ObjId} (old : o < h.size) : o < k.size := Nat.lt_of_lt_of_le old near.size
  refine ⟨Nat.le_trans near.size far.size, fun o old => ?_, fun o old => ?_⟩
  · rw [far.proto o (still old), near.proto o old]
  · rw [far.host o (still old), near.host o old]

namespace Changes
variable {h k l : Heap}

protected theorem refl (h : Heap) : Changes h h :=
  Relation.ReflTransGen.refl

protected theorem trans (near : Changes h k) (far : Changes k l) : Changes h l :=
  Relation.ReflTransGen.trans near far

theorem single (change : Change h k) : Changes h k :=
  Relation.ReflTransGen.single change

/-- No change touches a frozen object, so no sequence of changes does. -/
theorem keeps (changes : Changes h k) : Keeps h k := by
  induction changes with
  | refl => exact fun _ _ => rfl
  | tail _ change ih => exact ih.trans change.keeps

theorem sameShape (changes : Changes h k) : SameShape h k := by
  induction changes with
  | refl => exact ⟨Nat.le_refl _, fun _ _ => rfl, fun _ _ => rfl⟩
  | tail _ change ih => exact ih.trans change.sameShape

theorem linked {o : ObjId} {link : Value} (changes : Changes h k) (here : Linked h o link) : Linked k o link :=
  ⟨Nat.lt_of_lt_of_le here.1 changes.sameShape.size, (changes.sameShape.proto o here.1).trans here.2⟩

/-- What is frozen stays frozen. -/
theorem frozen {o : ObjId} (changes : Changes h k) (frozen : (h.get o).bag.frozen = true) :
    (k.get o).bag.frozen = true := by
  rw [changes.keeps o frozen]
  exact frozen

theorem hostFn? {o : ObjId} {f : HostFn} (changes : Changes h k) (found : h.hostFn? o = some f) :
    k.hostFn? o = some f := by
  rw [Heap.hostFn?, changes.sameShape.host o (lt_size_of_hostFn? found)]
  exact found

end Changes

end Heap

end Overlay
