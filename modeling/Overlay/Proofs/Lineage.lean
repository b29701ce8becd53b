import Overlay.Proofs.Descent
import Overlay.Proofs.Resolution

/-!
# Lines of super constructors

Where all host functions have their ancestry, the super constructor of a callable is null or an older host function
with a smaller number. It is read off frozen objects, so it is the same for every host and in every later world. The
line of a callable is the callable and its super constructors, the nearest first; it ends, and so does the search for
missing shadows.
-/

namespace Overlay
set_option autoImplicit false

open Act World

namespace Heap

/-- The `constructor` that the object owns which another one is linked to, or null. -/
def constructorAbove (h : Heap) (p : ObjId) : Value :=
  match (h.get p).proto with
  | .obj q => (h.member? q "constructor").getD .null
  | _ => .null

theorem ownConstructor_eq (h : Heap) (q : ObjId) :
    Host.ownConstructor h (.obj q) = .ok ((h.member? q "constructor").getD .null) := by
  rw [Host.ownConstructor, owns, Bag.owns_eq, member?, Bag.get]
  cases (h.get q).bag.find? "constructor" <;> rfl

variable {h k : Heap} {statics : Key → Prop} {o p q : ObjId} {fn : HostFn}

theorem constructorAbove_of_null (top : (h.get p).proto = .null) : h.constructorAbove p = .null := by
  rw [constructorAbove, top]

theorem constructorAbove_of_obj (linked : (h.get p).proto = .obj q) :
    h.constructorAbove p = (h.member? q "constructor").getD .null := by
  rw [constructorAbove, linked]

theorem Descended.constructorAbove_eq (descended : Descended statics h o fn p) (changes : h.Changes k) :
    k.constructorAbove p = h.constructorAbove p := by
  have same := changes.keeps p descended.sealed
  rcases descended.above with top | ⟨q, linked, frozen, -⟩
  · rw [constructorAbove_of_null top, constructorAbove_of_null (by rw [same]; exact top)]
  · rw [constructorAbove_of_obj linked, constructorAbove_of_obj (by rw [same]; exact linked),
      member?_of_get (changes.keeps q frozen)]

end Heap

namespace Host
variable {w v : World} {statics : Key → Prop} {f parent : Value}

/-- The first value is a host function that is older than the second one and has a smaller number. -/
def Precedes (w : World) (parent f : Value) : Prop :=
  ∃ c o g fn, parent = .obj c ∧ f = .obj o ∧ w.heap.hostFn? c = some g ∧ w.heap.hostFn? o = some fn ∧
    g.category < fn.category ∧ c < o

theorem isCallable_hostFn {o : ObjId} {fn : HostFn} (found : w.heap.hostFn? o = some fn) :
    w.isCallable (.obj o) = true :=
  isCallable_iff.2 ⟨.host fn.category, by simp [category?, World.hostFn?, found]⟩

/-- A host function with its ancestry has the constructor above its prototype as super constructor. -/
theorem superConstructor_of_descended {o p : ObjId} {fn : HostFn} (found : w.heap.hostFn? o = some fn)
    (descended : Heap.Descended statics w.heap o fn p) (h : HostId) :
    superConstructor w h (.obj o) = .ok (w.heap.constructorAbove p) ∧
      (w.heap.constructorAbove p = .null ∨ Precedes w (w.heap.constructorAbove p) (.obj o)) := by
  have member : prototypeMember w (.obj o) = .obj p := by
    rw [prototypeMember, World.hostFn?, found]
    exact descended.link
  have question : superConstructor w h (.obj o) = (do
      let ctor ← ownConstructor w.heap (w.heap.get p).proto
      return if w.isCallable ctor && !ctor.eqv (.obj o) then ctor else .null) := by
    rw [superConstructor, member]
    rfl
  rcases descended.above with top | ⟨q, linked, -, elder⟩
  · rw [question, Heap.constructorAbove_of_null top, top]
    exact ⟨rfl, .inl rfl⟩
  · rw [question, Heap.constructorAbove_of_obj linked, linked, Heap.ownConstructor_eq]
    cases owned : w.heap.member? q "constructor" with
    | none => exact ⟨rfl, .inl rfl⟩
    | some x =>
      obtain ⟨c, g, rfl, host, smaller, older⟩ := elder x owned
      have differs : Datum.eqv (.obj c : Value) (.obj o) = false := by
        simp [Datum.eqv, Nat.ne_of_lt older]
      refine ⟨?_, .inr ⟨c, o, g, fn, rfl, rfl, host, found, smaller, older⟩⟩
      show Except.ok (if w.isCallable (.obj c) && !Datum.eqv (.obj c : Value) (.obj o) then _ else _) = _
      rw [isCallable_hostFn host, differs]
      rfl

end Host

namespace World
variable {w v : World} {statics : Key → Prop} {f parent : Value}

theorem isCallable_later (changes : w.heap.Changes v.heap) (callable : w.isCallable f = true) :
    v.isCallable f = true := by
  obtain ⟨c, category⟩ := isCallable_iff.1 callable
  rcases Host.category?_cases category with ⟨i, rfl, -⟩ | ⟨o, fn, rfl, found, -⟩
  · rfl
  · exact Host.isCallable_hostFn (changes.hostFn? found)

/-- The super constructor of a callable is null or an older host function, for every host and for ever. -/
theorem Ancestral.superConstructor (ancestral : w.Ancestral statics) (callable : w.isCallable f = true) :
    ∃ parent, (parent = .null ∨ Host.Precedes w parent f) ∧
      ∀ v, w.heap.Changes v.heap → ∀ h, Host.superConstructor v h f = .ok parent := by
  obtain ⟨c, category⟩ := isCallable_iff.1 callable
  rcases Host.category?_cases category with ⟨i, rfl, -⟩ | ⟨o, fn, rfl, found, -⟩
  · exact ⟨.null, .inl rfl, fun _ _ _ => rfl⟩
  · obtain ⟨p, descended⟩ := ancestral.functions o fn (Nat.zero_le o) found
    refine ⟨w.heap.constructorAbove p, (Host.superConstructor_of_descended found descended 0).2,
      fun v changes h => ?_⟩
    rw [← descended.constructorAbove_eq changes]
    exact (Host.superConstructor_of_descended (changes.hostFn? found) (descended.change changes) h).1

/-- What is the super constructor once is it for ever, and for every host. -/
theorem Ancestral.superConstructor_eq (ancestral : w.Ancestral statics) (callable : w.isCallable f = true)
    (changes : w.heap.Changes v.heap) (h k : HostId) :
    Host.superConstructor v k f = Host.superConstructor w h f := by
  obtain ⟨parent, -, always⟩ := ancestral.superConstructor callable
  rw [always v changes, always w (.refl _)]

end World

theorem Host.Precedes.callable {w : World} {f parent : Value} (older : Host.Precedes w parent f) :
    w.isCallable parent = true := by
  obtain ⟨c, o, g, fn, rfl, -, host, -⟩ := older
  exact Host.isCallable_hostFn host

namespace Host
variable {w : World} {statics : Key → Prop} {h : HostId} {f g : Value} {l : List Value}

/-- The line of a callable: itself and its super constructors, the nearest first. -/
inductive Line (w : World) (h : HostId) : Value → List Value → Prop
  | top {f : Value} (above : superConstructor w h f = .ok .null) : Line w h f [f]
  | under {f parent : Value} {l : List Value} (above : superConstructor w h f = .ok parent)
      (ancestor : parent ≠ .null) (further : Line w h parent l) : Line w h f (f :: l)

/-- Every callable has a line, for each super constructor is an earlier object. -/
theorem exists_line (ancestral : w.Ancestral statics) (h : HostId) (callable : w.isCallable f = true) :
    ∃ l, Line w h f l := by
  have objects (o : ObjId) : ∀ g, g = .obj o → w.isCallable g = true → ∃ l, Line w h g l := by
    induction o using Nat.strongRecOn with
    | ind o ih =>
      intro g here callable
      obtain ⟨parent, older, always⟩ := ancestral.superConstructor callable
      have above := always w (.refl _) h
      rcases older with rfl | older
      · exact ⟨_, .top above⟩
      · have callable' := older.callable
        obtain ⟨c, o', -, -, rfl, same, -, -, -, back⟩ := older
        obtain rfl : o' = o := Ref.object.inj (Datum.ref.inj (same.symm.trans here))
        obtain ⟨l, line⟩ := ih c back _ rfl callable'
        exact ⟨_, .under above nofun line⟩
  obtain ⟨c, category⟩ := isCallable_iff.1 callable
  rcases category?_cases category with ⟨i, rfl, -⟩ | ⟨o, fn, rfl, -, -⟩
  · exact ⟨_, .top rfl⟩
  · exact objects o _ rfl callable

theorem Line.callable (line : Line w h f l) (callable : w.isCallable f = true) (listed : g ∈ l) :
    w.isCallable g = true := by
  induction line with
  | top _ =>
    obtain rfl := List.mem_singleton.1 listed
    exact callable
  | under above ancestor _ ih =>
    rcases List.mem_cons.1 listed with rfl | later
    · exact callable
    · exact ih (Plugin.superConstructor_callable above ancestor) later

end Host

namespace Plugin
variable {w : World} {statics : Key → Prop} {p : PluginId} {f : Value}

/-- The search for missing shadows ends, for each super constructor is an earlier object. -/
theorem missing_ends (ancestral : w.Ancestral statics) (fuel : Nat) (callable : w.isCallable f = true)
    (some_left : 0 < fuel) (enough : ∀ o, f = .obj o → o < fuel) : ∃ l, missing w p fuel f = .ok l := by
  induction fuel generalizing f with
  | zero => exact absurd some_left (Nat.lt_irrefl 0)
  | succ fuel ih =>
    cases found : shadow? w p f with
    | some s => exact ⟨_, missing_known found⟩
    | none =>
      obtain ⟨parent, older, always⟩ := ancestral.superConstructor callable
      rw [missing, found, always w (.refl _)]
      rcases older with rfl | older
      · exact ⟨[f], rfl⟩
      · have callable' := older.callable
        obtain ⟨c, o, -, -, rfl, same, -, -, -, back⟩ := older
        have nearer : c < fuel := Nat.lt_of_lt_of_le back (Nat.le_of_lt_succ (enough o same))
        obtain ⟨l, rest⟩ := ih callable' (Nat.zero_lt_of_lt nearer) fun o' same' => by
          obtain rfl : c = o' := Ref.object.inj (Datum.ref.inj same')
          exact nearer
        refine ⟨f :: l, ?_⟩
        show (do return f :: (← missing w p fuel (.obj c)) : Except Fault (List Value)) = _
        rw [rest]
        rfl

/-- The callables without a shadow between a callable and the nearest one that has its shadow. -/
theorem exists_chain (ancestral : w.Ancestral statics) (callable : w.isCallable f = true) :
    ∃ l, missing w p (w.heap.size + 2) f = .ok l ∧ Chain w p f l := by
  obtain ⟨l, answer⟩ := missing_ends (p := p) ancestral (w.heap.size + 2) callable (Nat.succ_pos _) fun o same => by
    obtain ⟨c, category⟩ := isCallable_iff.1 callable
    rcases Host.category?_cases category with ⟨i, rfl, -⟩ | ⟨o', fn, rfl, found, -⟩
    · cases same
    · obtain rfl : o' = o := Ref.object.inj (Datum.ref.inj same)
      exact Nat.lt_add_right 2 (Heap.lt_size_of_hostFn? found)
  exact ⟨l, answer, missing_chain answer⟩

end Plugin

end Overlay
