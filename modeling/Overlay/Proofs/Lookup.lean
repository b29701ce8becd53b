import Mathlib.Data.List.Find
import Overlay.Proofs.Soundness

/-!
# Look-up along paths

A look-up walks the path of an object and depends on nothing but the objects on it. The path of a shadow is known:
it leads through the two patchable prototypes of its plugin to a frozen object.
-/

namespace Overlay
set_option autoImplicit false

open Emulation (Rooted)

namespace Heap
variable {h k : Heap} {o p : ObjId}

theorem ancestors_of_linked (linked : h.Linked o (.obj p)) (back : p < o) : h.ancestors o = h.path p := by
  rw [ancestors, linked.2]
  exact if_pos back

theorem ancestors_of_null (linked : h.Linked o .null) : h.ancestors o = [] := by
  rw [ancestors, linked.2]

section Owners
variable {key : Key} {x : Value}

/-- The nearest owner of a key gives its value. -/
theorem search_of_owner? (nearest : h.owner? o key = some p) (member : h.member? p key = some x) :
    h.search o key = .ok (some x) := by
  rw [search, nearest]
  exact congrArg (Except.ok ∘ some) (owns_of_member? member).2

/-- What has a member is the nearest owner of its key. -/
theorem owner?_of_member? (member : h.member? o key = some x) : h.owner? o key = some o := by
  rw [owner?, path, List.find?_cons, (owns_of_member? member).1]

/-- What an object owns is found there. -/
theorem lookup_of_member? (member : h.member? o key = some x) : h.lookup o key = .ok x := by
  rw [lookup, search_of_owner? (owner?_of_member? member) member]
  rfl

/-- What a look-up gives was found, unless it is undefined. -/
theorem search_of_lookup (answer : h.lookup o key = .ok x) (there : x ≠ .undefined) :
    h.search o key = .ok (some x) := by
  rw [lookup] at answer
  cases found : h.search o key with
  | error _ =>
    rw [found] at answer
    cases answer
  | ok value =>
    rw [found] at answer
    cases value with
    | none => exact absurd (Except.ok.inj answer).symm there
    | some y => rw [← Except.ok.inj answer]; rfl

end Owners

theorem le_of_mem_path {a : ObjId} (on : a ∈ h.path o) : a ≤ o := by
  induction o using Nat.strongRecOn with
  | ind o ih =>
    rcases List.mem_cons.1 on with rfl | further
    · exact Nat.le_refl a
    · rw [ancestors] at further
      split at further
      · rename_i p _
        split at further
        · rename_i back
          exact Nat.le_trans (ih p back further) (Nat.le_of_lt back)
        · cases further
      · cases further

/-- The path of an object, and whether it is whole, depend only on the links of the objects on it. -/
theorem path_congr (same : ∀ a ∈ h.path o, (k.get a).proto = (h.get a).proto) :
    k.path o = h.path o ∧ k.isWhole o = h.isWhole o := by
  induction o using Nat.strongRecOn with
  | ind o ih =>
    have here := same o List.mem_cons_self
    rw [path, path, ancestors, ancestors.eq_1 h, isWhole, isWhole.eq_1 h, here]
    cases link : (h.get o).proto with
    | ref r =>
      cases r with
      | object p =>
        by_cases back : p < o
        · have further : h.ancestors o = h.path p := by
            rw [ancestors, link]
            exact if_pos back
          obtain ⟨path_eq, whole_eq⟩ := ih p back fun a on => same a (List.mem_cons_of_mem o (further ▸ on))
          simp only [if_pos back]
          exact ⟨congrArg (o :: ·) path_eq, whole_eq⟩
        · simp only [if_neg back, and_self]
      | _ => exact ⟨rfl, rfl⟩
    | _ => exact ⟨rfl, rfl⟩

/-- Objects keep their links, so the walk from an object is the same for ever. -/
theorem SameShape.path (same : SameShape h k) (inside : o < h.size) :
    k.ancestors o = h.ancestors o ∧ k.isWhole o = h.isWhole o := by
  obtain ⟨path_eq, whole_eq⟩ := path_congr fun a on =>
    same.proto a (Nat.lt_of_le_of_lt (le_of_mem_path on) inside)
  exact ⟨(List.cons.inj path_eq).2, whole_eq⟩

/-- What a name reaches depends only on the links of the objects on the path and on their members of this name. -/
theorem search_of_members {key : Key} (links : ∀ a ∈ h.path o, (k.get a).proto = (h.get a).proto)
    (members : ∀ a ∈ h.path o, k.member? a key = h.member? a key) : k.search o key = h.search o key := by
  obtain ⟨path_eq, whole_eq⟩ := path_congr links
  have owner : k.owner? o key = h.owner? o key := by
    rw [owner?, owner?, path_eq]
    exact List.find?_congr fun a on => by rw [owns_eq_member?, owns_eq_member?, members a on]
  rw [search, search, owner]
  cases found : h.owner? o key with
  | none => simp only [atEnd, whole_eq]
  | some p =>
    have on : p ∈ h.path o := List.mem_of_find?_eq_some found
    simp only [get_eq_member?, members p on]

/-- What a name reaches depends only on the objects on the path. -/
theorem search_congr (same : ∀ a ∈ h.path o, k.get a = h.get a) (key : Key) : k.search o key = h.search o key :=
  search_of_members (fun a on => by rw [same a on]) fun a on => by rw [member?, same a on, member?]

theorem lookup_congr (same : ∀ a ∈ h.path o, k.get a = h.get a) (key : Key) : k.lookup o key = h.lookup o key := by
  rw [lookup, lookup, search_congr same]

end Heap

/-- The path of what is linked to the patchable prototype of functions leads through the two patchable prototypes of
the plugin to a frozen object. -/
theorem Plugin.Ordered.path_of_linked {h : Heap} {x : Plugin} (ordered : x.Ordered h) {s : ObjId}
    (linked : h.Linked s (.obj x.roots.functionPrototype)) (above : x.roots.functionPrototype < s) :
    ∃ top, (h.get top).bag.frozen = true ∧
      h.path s = [s, x.roots.functionPrototype, x.roots.objectPrototype, top] := by
  obtain ⟨top, ⟨ends, frozen⟩, below, rooted⟩ := ordered.rooted
  refine ⟨top, frozen, ?_⟩
  rw [Heap.path, Heap.ancestors_of_linked linked above, Heap.path,
    Heap.ancestors_of_linked rooted.functionPrototype rooted.rising.1, Heap.path,
    Heap.ancestors_of_linked rooted.objectPrototype below, Heap.path, Heap.ancestors_of_null ends]

/-- A shadow's path is the shadow, the two patchable prototypes of its plugin, and a frozen object. -/
theorem Plugin.Ordered.path {h : Heap} {x : Plugin} (ordered : x.Ordered h) {e : Category × Shadow}
    (registered : e ∈ x.shadows.entries) : ∃ top, (h.get top).bag.frozen = true ∧
      h.path e.2.object = [e.2.object, x.roots.functionPrototype, x.roots.objectPrototype, top] := by
  obtain ⟨linked, above⟩ := ordered.shadows e registered
  exact ordered.path_of_linked linked above

end Overlay
