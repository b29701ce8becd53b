import Overlay.Plugin.Outers
import Overlay.Proofs.Action

/-!
# Faults of questions

A question looks at the world and may have no answer. None of those that the library asks ends with the report
that something was registered twice or that an outer name cannot be reached: the rules say how this passes through
sequences and loops, and each question follows the lines of its definition. Whether a question has an answer at all
(`Answered`) passes through sequences and loops likewise.
-/

namespace Overlay
set_option autoImplicit false

namespace NoReport
variable {α β : Type}

protected theorem ok (a : α) : NoReport (.ok a) :=
  fun _ h => nomatch h

protected theorem pure (a : α) : NoReport (pure a) :=
  NoReport.ok a

protected theorem error {e : Fault} (h : e.isReport = false) : NoReport (.error e : Except Fault α) := by
  intro e' same
  cases same
  exact h

protected theorem bind {q : Except Fault α} {f : α → Except Fault β} (first : NoReport q)
    (next : ∀ a, NoReport (f a)) : NoReport (q >>= f) := by
  cases q with
  | error e => exact .error (first e rfl)
  | ok a => exact next a

protected theorem map {q : Except Fault α} {f : α → β} (h : NoReport q) : NoReport (f <$> q) := by
  cases q with
  | error e => exact .error (h e rfl)
  | ok a => exact .ok (f a)

protected theorem mapM {items : List α} {f : α → Except Fault β} (h : ∀ a, NoReport (f a)) :
    NoReport (items.mapM f) := by
  induction items with
  | nil => exact .ok []
  | cons a rest ih =>
    rw [List.mapM_cons]
    exact .bind (h a) fun _ => .bind ih fun _ => .ok _

protected theorem filterM {items : List α} {test : α → Except Fault Bool} (h : ∀ a, NoReport (test a)) :
    NoReport (items.filterM test) := by
  have loop : ∀ kept, NoReport (List.filterAuxM test items kept) := by
    induction items with
    | nil => exact fun kept => .ok kept
    | cons a rest ih => exact fun kept => .bind (h a) fun _ => ih _
  exact .bind (loop []) fun _ => .ok _

end NoReport

/-- The question has an answer. -/
def Answered {α : Type} (q : Except Fault α) : Prop :=
  ∃ a, q = .ok a

namespace Answered
variable {α β : Type}

theorem ok (a : α) : Answered (.ok a) :=
  ⟨a, rfl⟩

theorem not_error (e : Fault) : ¬ Answered (.error e : Except Fault α) := by
  rintro ⟨a, same⟩
  cases same

/-- A question without an answer has a fault. -/
theorem exists_error {q : Except Fault α} (unanswered : ¬ Answered q) : ∃ e, q = .error e := by
  cases q with
  | ok a => exact absurd (ok a) unanswered
  | error e => exact ⟨e, rfl⟩

instance (q : Except Fault α) : Decidable (Answered q) :=
  match q with
  | .ok a => .isTrue (ok a)
  | .error e => .isFalse (not_error e)

theorem map_iff {q : Except Fault α} {f : α → β} : Answered (f <$> q) ↔ Answered q := by
  cases q with
  | error e => exact iff_of_false (not_error e) (not_error e)
  | ok a => exact iff_of_true (ok (f a)) (ok a)

/-- Two questions one after the other, the second of which has an answer or not whatever the first one's is. -/
theorem bind_iff {q : Except Fault α} {f : α → Except Fault β} {P : Prop} (next : ∀ a, Answered (f a) ↔ P) :
    Answered (q >>= f) ↔ Answered q ∧ P := by
  cases q with
  | error e => exact iff_of_false (not_error e) fun both => not_error e both.1
  | ok a => exact (next a).trans ⟨fun holds => ⟨ok a, holds⟩, fun both => both.2⟩

/-- What follows always has an answer. -/
theorem bind_ok_iff {q : Except Fault α} {f : α → β} : Answered (do return f (← q)) ↔ Answered q :=
  (bind_iff (P := True) fun a => iff_of_true (ok (f a)) trivial).trans (and_iff_left trivial)

theorem mapM_iff {items : List α} {f : α → Except Fault β} :
    Answered (items.mapM f) ↔ ∀ a ∈ items, Answered (f a) := by
  induction items with
  | nil => exact iff_of_true (ok []) (List.forall_mem_nil _)
  | cons a rest ih =>
    rw [List.mapM_cons, List.forall_mem_cons, ← ih]
    exact bind_iff fun _ => bind_ok_iff

end Answered

/-- Faults are not compared, so that an answer is read off as an option. -/
theorem eq_ok_of_toOption {α : Type} {q : Except Fault α} {a : α} (answer : q.toOption = some a) : q = .ok a := by
  cases q with
  | error e => cases answer
  | ok b =>
    cases answer
    rfl

theorem eq_ok_of_toOptions {α : Type} {l : List (Except Fault α)} {xs : List α}
    (answer : l.map Except.toOption = xs.map some) : l = xs.map .ok := by
  induction l generalizing xs with
  | nil =>
    cases xs with
    | nil => rfl
    | cons x rest => cases answer
  | cons q l ih =>
    cases xs with
    | nil => cases answer
    | cons x rest =>
      obtain ⟨head, tail⟩ := List.cons.inj answer
      rw [eq_ok_of_toOption head, ih tail, List.map_cons]

/-- A filter whose question always has an answer is a filter. -/
theorem filterM_ok {α : Type} {test : α → Except Fault Bool} {keep : α → Bool} (answers : ∀ a, test a = .ok (keep a))
    (l : List α) : l.filterM test = .ok (l.filter keep) := by
  have loop : ∀ kept, List.filterAuxM test l kept = .ok ((l.filter keep).reverse ++ kept) := by
    induction l with
    | nil => exact fun kept => rfl
    | cons a rest ih =>
      intro kept
      rw [List.filterAuxM, answers a]
      refine (ih _).trans ?_
      cases here : keep a with
      | true => simp [here]
      | false => simp [here]
  rw [List.filterM, loop]
  simp [Bind.bind, Except.bind, Pure.pure, Except.pure]

theorem Name.ofValue_noReport (v : Value) : NoReport (Name.ofValue v) := by
  unfold Name.ofValue
  split
  · exact .ok _
  · exact .error rfl

theorem Key.ofValue_noReport (v : Value) : NoReport (Key.ofValue v) :=
  .map (Name.ofValue_noReport v)

/-! ## Answers that can be compared -/

namespace Datum
variable {ρ : Type} [DecidableEq ρ]

mutual

/-- Whether two data are one and the same. -/
def decEq (x y : Datum ρ) : Decidable (x = y) :=
  if same : x.ctorIdx = y.ctorIdx then
    match x, y, same with
    | .null, .null, _ => isTrue rfl
    | .undefined, .undefined, _ => isTrue rfl
    | .bool a, .bool b, _ => decidable_of_iff (a = b) (by simp)
    | .int i, .int j, _ => decidable_of_iff (i = j) (by simp)
    | .float a, .float b, _ => decidable_of_iff (a = b) (by simp)
    | .nan m, .nan n, _ => decidable_of_iff (m = n) (by simp)
    | .str s, .str t, _ => decidable_of_iff (s = t) (by simp)
    | .list m xs, .list n ys, _ =>
      have := decEqItems xs ys
      decidable_of_iff (m = n ∧ xs = ys) (by simp)
    | .record xs, .record ys, _ =>
      have := decEqEntries xs ys
      decidable_of_iff (xs = ys) (by simp)
    | .ref r, .ref t, _ => decidable_of_iff (r = t) (by simp)
  else isFalse fun eq => same (congrArg Datum.ctorIdx eq)

/-- Whether two lists have the same items. -/
def decEqItems : (xs ys : List (Datum ρ)) → Decidable (xs = ys)
  | [], [] => isTrue rfl
  | [], _ :: _ => isFalse nofun
  | _ :: _, [] => isFalse nofun
  | x :: xs, y :: ys =>
    have := decEq x y
    have := decEqItems xs ys
    decidable_of_iff (x = y ∧ xs = ys) (by simp)

/-- Whether two records have the same entries in the same order. -/
def decEqEntries : (xs ys : List (Datum ρ × Datum ρ)) → Decidable (xs = ys)
  | [], [] => isTrue rfl
  | [], _ :: _ => isFalse nofun
  | _ :: _, [] => isFalse nofun
  | (k, x) :: xs, (l, y) :: ys =>
    have := decEq k l
    have := decEq x y
    have := decEqEntries xs ys
    decidable_of_iff ((k = l ∧ x = y) ∧ xs = ys) (by simp)

end

instance : DecidableEq (Datum ρ) := decEq

end Datum

deriving instance DecidableEq for Name

/-! ## Texts -/

namespace World
variable {describe : Value → Except Fault Text}

theorem intText_noReport (i : Int) : NoReport (intText i) := by
  unfold intText
  split
  · exact .ok _
  · exact .error rfl

theorem bareBy_noReport (h : ∀ v, NoReport (describe v)) (v : Value) : NoReport (bareBy describe v) := by
  unfold bareBy
  split
  · exact .ok _
  · exact h v

theorem describeObject_noReport (w : World) (h : ∀ v, NoReport (describe v)) (x : Obj) :
    NoReport (w.describeObject describe x) := by
  have name (v : Value) : NoReport (w.shownName describe v) := by
    unfold shownName
    split
    · exact bareBy_noReport h v
    · exact .ok _
  have member (p : Property) : NoReport (shownMember describe p) :=
    .bind (bareBy_noReport h _) fun _ => .bind (h _) fun _ => .ok _
  unfold describeObject
  split
  · exact .bind (name _) fun _ => .ok _
  · exact .bind (.mapM member) fun _ => .ok _

theorem describePlugin_noReport (h : ∀ v, NoReport (describe v)) (p : Plugin) :
    NoReport (describePlugin describe p) := by
  have members (ds : List PlainDatum) : NoReport (tupleText <$> ds.mapM fun d => describe d.toValue) :=
    .map (.mapM fun d => h _)
  have config (c : Config) : NoReport (describeConfig describe c) :=
    .bind (members _) fun _ => .bind (members _) fun _ => .bind (h _) fun _ => .ok _
  have roots (r : Roots) : NoReport (describeRoots describe r) :=
    .bind (h _) fun _ => .bind (h _) fun _ => .bind (h _) fun _ => .bind (h _) fun _ => .ok _
  exact .bind (config _) fun _ => .bind (roots _) fun _ => .bind (h _) fun _ => .ok _

theorem describeWithin_noReport (w : World) (fuel : Nat) (inside : Surroundings) (v : Value) :
    NoReport (w.describeWithin fuel inside v) := by
  -- the text of a part takes less fuel than the text around it, by one, or by three for objects and plugins
  induction fuel using Nat.strongRecOn generalizing inside v with
  | ind fuel ih =>
    cases fuel with
    | zero => exact .error rfl
    | succ fuel =>
      have part (inside : Surroundings) (v : Value) : NoReport (w.describeWithin fuel inside v) :=
        ih fuel (by omega) inside v
      unfold describeWithin
      split
      · exact intText_noReport _
      · split
        · exact .ok _
        · exact .map (.mapM fun v => part _ v)
      · exact .map (.mapM fun e => .bind (part _ e.1) fun _ => .bind (part _ e.2) fun _ => .ok _)
      · split
        · exact describeObject_noReport w (fun v => ih _ (by omega) _ v) _
        · exact .error rfl
      · exact .ok _
      · exact .ok _
      · exact .ok _
      · split
        · exact .ok _
        · exact describePlugin_noReport (fun v => ih _ (by omega) _ v) _
        · exact .error rfl
      · exact .ok _

theorem describe_noReport (w : World) (v : Value) : NoReport (w.describe v) :=
  describeWithin_noReport w _ _ v

theorem bare_noReport (w : World) (v : Value) : NoReport (w.bare v) :=
  bareBy_noReport (describe_noReport w) v

end World

theorem Header.sourceOf_noReport {ρ : Type} (isTruthy : Datum ρ → Bool) (source : Datum ρ) :
    NoReport (sourceOf isTruthy source) := by
  unfold sourceOf
  split
  · exact .ok _
  · split
    · exact .error rfl
    · exact .ok _

theorem Header.renderAs_noReport {ρ : Type} {isTruthy : Datum ρ → Bool} {bare : Datum ρ → Except Fault Text}
    (h : ∀ d, NoReport (bare d)) (receiver body : Text) (source : Option Text) (name : Datum ρ) :
    NoReport (renderAs isTruthy bare receiver body source name) := by
  unfold renderAs
  split
  · exact .pure _
  · dsimp only
    split
    · exact .bind (h name) fun _ => .pure _
    · exact .ok _

/-! ## Paths -/

namespace Heap
variable (h : Heap) (o : ObjId)

theorem atEnd_noReport {α : Type} (a : α) : NoReport (h.atEnd o a) := by
  unfold atEnd
  split
  · exact .ok _
  · exact .error rfl

theorem search_noReport (k : Key) : NoReport (h.search o k) := by
  unfold search
  split
  · exact .ok _
  · exact atEnd_noReport h o _

theorem has_noReport (k : Key) : NoReport (h.has o k) :=
  .map (search_noReport h o k)

theorem lookup_noReport (k : Key) : NoReport (h.lookup o k) :=
  .map (search_noReport h o k)

theorem enumerableKeys_noReport : NoReport (h.enumerableKeys o) :=
  atEnd_noReport h o _

theorem inherits_noReport (p : ObjId) : NoReport (h.inherits o p) := by
  unfold inherits
  split
  · exact .ok _
  · exact atEnd_noReport h o _

end Heap

/-! ## Hosts -/

namespace Host
variable (w : World) (h : HostId) (v : Value)

theorem prototypeOf_noReport : NoReport (prototypeOf w h v) := by
  have registered (ctor : Value) : NoReport (primitivePrototype w ctor) := by
    unfold primitivePrototype
    split
    · exact .ok _
    · split
      · exact .ok _
      · exact .error rfl
  unfold prototypeOf
  split
  · exact .ok _
  · split
    · exact .ok _
    · split
      · exact registered _
      · exact .ok _

theorem searchStart_noReport : NoReport (searchStart w h v) := by
  unfold searchStart
  split
  · exact .ok _
  · refine .bind (prototypeOf_noReport w h v) fun _ => ?_
    split
    · exact .pure _
    · exact .pure _
    · exact .error rfl

theorem search_noReport (name : Value) : NoReport (search w h v name) := by
  refine .bind (searchStart_noReport w h v) fun _ => ?_
  split
  · exact .bind (Key.ofValue_noReport name) fun _ => Heap.search_noReport _ _ _
  · exact .pure _

theorem enumerableKeys_noReport : NoReport (enumerableKeys w h v) := by
  refine .bind (searchStart_noReport w h v) fun _ => ?_
  split
  · exact Heap.enumerableKeys_noReport _ _
  · exact .pure _

theorem hasOwn_noReport (name : Value) : NoReport (hasOwn w v name) := by
  unfold hasOwn
  split
  · exact .map (Key.ofValue_noReport name)
  · exact .ok _

theorem checkBase_noReport (name : Value) (access : Access) : NoReport (checkBase w v name access) := by
  unfold checkBase
  split
  · exact .bind (World.bare_noReport w name) fun _ => .error rfl
  · exact .bind (World.bare_noReport w name) fun _ => .error rfl
  · exact .ok _

theorem checkPrototype_noReport : NoReport (checkPrototype w v) := by
  unfold checkPrototype
  split
  · exact .ok _
  · exact .ok _
  · exact .error rfl

theorem inheritsFrom_noReport (proto : Value) : NoReport (inheritsFrom w h v proto) := by
  unfold inheritsFrom
  split
  · split
    · exact Heap.inherits_noReport _ _ _
    · split
      · dsimp only
        split
        · exact .ok _
        · exact Heap.inherits_noReport _ _ _
      · exact .ok _
  · exact .ok _

theorem directConstructor_noReport : NoReport (directConstructor w h v) := by
  refine .bind (prototypeOf_noReport w h v) fun _ => ?_
  unfold ownConstructor
  split
  · exact .ok _
  · exact .ok _
  · exact .error rfl

theorem superConstructor_noReport : NoReport (superConstructor w h v) := by
  unfold superConstructor
  split
  · exact .pure _
  · exact .bind (directConstructor_noReport w h _) fun _ => .pure _

theorem methodNames_noReport {exclude : Exclusion} (answers : ∀ n, NoReport (exclude n)) :
    NoReport (methodNames w v exclude) := by
  have test (p : Property) : NoReport (isMethod w exclude p) := by
    unfold isMethod
    split
    · exact .ok _
    · exact .bind (answers p.name) fun _ => .pure _
  unfold methodNames
  split
  · exact .ok _
  · exact .map (.filterM test)
  · exact .error rfl

theorem excludeCoercion_noReport (config : Config) (n : Name) : NoReport (excludeCoercion config n) :=
  .ok _

theorem sourceIn_noReport (s : Signature) : NoReport (s.sourceIn w) := by
  unfold Signature.sourceIn
  split
  · exact .map (World.bare_noReport w _)
  · exact .ok _

theorem parentPrototype_noReport : NoReport (parentPrototype w h v) := by
  unfold parentPrototype
  split
  · exact .ok _
  · split
    · exact .ok _
    · exact .error rfl

theorem spread_noReport : NoReport (spread v) := by
  unfold spread
  split
  · exact .ok _
  · exact .error rfl

end Host

/-! ## Plugins -/

namespace Plugin
variable (w : World) (p : PluginId) (v : Value)

theorem missing_noReport (fuel : Nat) : NoReport (missing w p fuel v) := by
  induction fuel generalizing v with
  | zero => exact .error rfl
  | succ fuel ih =>
    unfold missing
    split
    · exact .ok _
    · refine .bind (Host.superConstructor_noReport w _ v) fun _ => ?_
      split
      · exact .pure _
      · exact .bind (ih _) fun _ => .pure _

theorem parentPrototype_noReport (roots : Roots) (parent : ObjId) :
    NoReport (parentPrototype w roots parent) := by
  refine .bind (Heap.lookup_noReport _ _ _) fun _ => ?_
  split
  · exact .pure _
  · exact .pure _

theorem typeOf_noReport : NoReport (typeOf w p v) := by
  unfold typeOf
  split
  · exact .bind (Heap.inherits_noReport _ _ _) fun _ => .pure _
  · exact .ok _

theorem supplied_noReport (config : Config) (name : Value) : NoReport (supplied w config v name) := by
  unfold supplied
  split
  · exact .bind (Key.ofValue_noReport name) fun _ => .bind (Heap.search_noReport _ _ _) fun _ => .pure _
  · exact .pure _

end Plugin

end Overlay
