import Overlay.Proofs.Heap
import Overlay.Proofs.Questions

/-!
# How worlds grow

Two regimes cover what the library does below the level of hosts and plugins. An action of the `aside` regime
touches only a script's surroundings, such as the log. An action of the `growth n` regime makes objects and
functions and changes open objects, none of them below `n`; hosts and plugins stay as they are, and numbers of
host functions stay distinct. The basic actions are stated with the exact world they leave.
-/

namespace Overlay
set_option autoImplicit false

/-- What an array holds at a position, every array that starts with it holds there too. -/
theorem getElem?_of_longer {α : Type} {a b : Array α} {i : Nat} {x : α} (longer : a.toList <+: b.toList)
    (found : a[i]? = some x) : b[i]? = some x := by
  obtain ⟨more, all⟩ := longer
  rw [← Array.getElem?_toList] at found ⊢
  obtain ⟨bound, -⟩ := List.getElem?_eq_some_iff.1 found
  rw [← all, List.getElem?_append_left bound, found]

namespace World

/-- Nothing but the log, marks, variables, labels and tables may differ. -/
structure Aside (w v : World) : Prop where
  heap : v.heap = w.heap
  fns : v.fns = w.fns
  hosts : v.hosts = w.hosts
  plugins : v.plugins = w.plugins
  nextCategory : v.nextCategory = w.nextCategory

/-- Each host function has a number of its own, below the one to be drawn next. -/
structure Numbered (w : World) : Prop where
  below : ∀ {o f}, w.heap.hostFn? o = some f → f.category < w.nextCategory
  distinct : ∀ {o p f g}, w.heap.hostFn? o = some f → w.heap.hostFn? p = some g →
    f.category = g.category → o = p

/-- Objects and functions were made and open objects changed, but no object below `n`. -/
structure Grows (n : Nat) (w v : World) : Prop where
  trail : Heap.Changes w.heap v.heap
  old : ∀ o, o < n → v.heap.get o = w.heap.get o
  fns : w.fns.toList <+: v.fns.toList
  hosts : v.hosts = w.hosts
  plugins : v.plugins = w.plugins
  numbered : w.Numbered → v.Numbered

theorem Aside.refl (w : World) : Aside w w :=
  ⟨rfl, rfl, rfl, rfl, rfl⟩

theorem Aside.trans {u v w : World} (near : Aside u v) (far : Aside v w) : Aside u w :=
  ⟨far.heap.trans near.heap, far.fns.trans near.fns, far.hosts.trans near.hosts,
    far.plugins.trans near.plugins, far.nextCategory.trans near.nextCategory⟩

/-- Distinct numbers stay distinct while neither the host functions nor the number to be drawn next change. -/
theorem Numbered.of_same {w v : World} (h : w.Numbered) (hostFn? : ∀ o, v.heap.hostFn? o = w.heap.hostFn? o)
    (next : w.nextCategory ≤ v.nextCategory) : v.Numbered := by
  refine ⟨fun found => ?_, fun found found' same => ?_⟩
  · rw [hostFn?] at found
    exact Nat.lt_of_lt_of_le (h.below found) next
  · rw [hostFn?] at found found'
    exact h.distinct found found' same

namespace Grows
variable {n : Nat} {u v w : World}

protected theorem refl (n : Nat) (w : World) : Grows n w w :=
  ⟨.refl _, fun _ _ => rfl, List.prefix_rfl, rfl, rfl, id⟩

protected theorem trans (near : Grows n u v) (far : Grows n v w) : Grows n u w :=
  ⟨near.trail.trans far.trail, fun o below => (far.old o below).trans (near.old o below),
    near.fns.trans far.fns, far.hosts.trans near.hosts, far.plugins.trans near.plugins,
    fun h => far.numbered (near.numbered h)⟩

theorem mono {m : Nat} (h : Grows n w v) (fewer : m ≤ n) : Grows m w v :=
  { h with old := fun o below => h.old o (Nat.lt_of_lt_of_le below fewer) }

theorem of_aside (h : Aside w v) : Grows n w v where
  trail := by rw [h.heap]; exact .refl _
  old o _ := by rw [h.heap]
  fns := ⟨[], (List.append_nil _).trans (congrArg Array.toList h.fns.symm)⟩
  hosts := h.hosts
  plugins := h.plugins
  numbered numbers := numbers.of_same (fun o => by rw [h.heap]) (Nat.le_of_eq h.nextCategory.symm)

theorem size_le (h : Grows n w v) : w.heap.size ≤ v.heap.size :=
  h.trail.sameShape.size

theorem plugin (h : Grows n w v) (p : PluginId) : v.plugin p = w.plugin p := by
  rw [World.plugin, h.plugins, World.plugin]

theorem host (h : Grows n w v) (i : HostId) : v.host i = w.host i := by
  rw [World.host, h.hosts, World.host]

theorem fns_getElem? {i : FnId} {f : Fn} (h : Grows n w v) (found : w.fns[i]? = some f) : v.fns[i]? = some f :=
  getElem?_of_longer h.fns found

/-- Replacing the bag of one object makes no difference to host functions. -/
theorem of_change {o : ObjId} {b : Bag} (above : n ≤ o) (change : w.heap.Change (w.heap.setBag o b)) :
    Grows n w { w with heap := w.heap.setBag o b } where
  trail := .single change
  old _ below := Heap.get_setBag_other _ _ (Nat.ne_of_lt (Nat.lt_of_lt_of_le below above))
  fns := List.prefix_rfl
  hosts := rfl
  plugins := rfl
  numbered numbers := numbers.of_same (fun p => (Heap.get_setBag_shape w.heap o p b).2) (Nat.le_refl _)

end Grows

/-- A host function with the number to be drawn next may be added. -/
theorem Numbered.push {w : World} {x : Obj} (h : w.Numbered)
    (number : ∀ f, x.host = some f → f.category = w.nextCategory) :
    World.Numbered { w with heap := w.heap.push x, nextCategory := w.nextCategory + 1 } := by
  have known {o : ObjId} {f : HostFn} (found : Heap.hostFn? (w.heap.push x) o = some f) :
      w.heap.hostFn? o = some f ∨ (o = w.heap.size ∧ x.host = some f) := by
    have bound := Heap.lt_size_of_hostFn? found
    rw [Array.size_push] at bound
    by_cases old : o < w.heap.size
    · rw [Heap.hostFn?, Heap.get_push_old x old] at found
      exact .inl found
    · have new : o = w.heap.size := Nat.le_antisymm (Nat.le_of_lt_succ bound) (Nat.le_of_not_lt old)
      rw [new, Heap.hostFn?, Heap.get_push_new] at found
      exact .inr ⟨new, found⟩
  refine ⟨fun found => ?_, fun found found' same => ?_⟩
  · rcases known found with old | ⟨-, new⟩
    · exact Nat.lt_succ_of_lt (h.below old)
    · exact Nat.lt_succ_of_le (Nat.le_of_eq (number _ new))
  · rcases known found with old | ⟨at_end, new⟩ <;> rcases known found' with old' | ⟨at_end', new'⟩
    · exact h.distinct old old' same
    · have := h.below old
      have := number _ new'
      omega
    · have := h.below old'
      have := number _ new
      omega
    · exact at_end.trans at_end'.symm

end World

open World (Aside Grows)

namespace Regime

/-- Nothing but a script's surroundings changes. -/
def aside : Regime where
  step := Aside
  fault _ e := e.isReport = false
  refl := Aside.refl
  trans := Aside.trans
  back _ h := h
  ordinary _ _ h := h

/-- Worlds grow, and objects below `n` stay as they are. -/
def growth (n : Nat) : Regime where
  step := Grows n
  fault _ e := e.isReport = false
  refl := .refl n
  trans := .trans
  back _ h := h
  ordinary _ _ h := h

end Regime

namespace Act
variable {α : Type} {x : Act α} {n : Nat} {w : World}

theorem Leaves.growth {P : α → World → Prop} (h : Leaves .aside x w P) : Leaves (.growth n) x w P :=
  h.mono (fun _ => Grows.of_aside) fun _ h => h

/-- An action that leaves all below `n` alone also leaves fewer objects alone, and how it grew is remembered. -/
theorem Leaves.fewer {m : Nat} {P : α → World → Prop} (h : Leaves (.growth n) x w P) (fewer : m ≤ n) :
    Leaves (.growth m) x w fun a v => Grows n w v ∧ P a v :=
  (h.conseq fun _ _ grown value => ⟨grown, value⟩).mono (fun _ grown => grown.mono fewer) fun _ h => h

/-! ## What the basic actions leave -/

/-- An object without a host function is made. -/
theorem alloc_leaves (proto : Value) (members : List (Name × Value)) (room : n ≤ w.heap.size) :
    Leaves (.growth n) (alloc { proto := proto, bag := .ofMembers members }) w fun o v =>
      o = w.heap.size ∧ v = { w with heap := w.heap.push { proto := proto, bag := .ofMembers members } } := by
  refine .of_ok rfl ⟨.single (.make proto members none),
    fun o below => Heap.get_push_old _ (Nat.lt_of_lt_of_le below room), List.prefix_rfl, rfl, rfl, fun numbers => ?_⟩
    ⟨rfl, rfl⟩
  -- what is new is no host function, so the numbers are those of before
  refine numbers.of_same (fun o => ?_) (Nat.le_refl _)
  rcases Nat.lt_trichotomy o w.heap.size with old | new | out
  · rw [Heap.hostFn?, Heap.get_push_old _ old, Heap.hostFn?]
  · rw [new, Heap.hostFn?, Heap.get_push_new, Heap.hostFn?, Heap.get_of_size_le (Nat.le_refl _)]
  · rw [Heap.hostFn?, Heap.get_of_size_le (by rw [Array.size_push]; exact out), Heap.hostFn?,
      Heap.get_of_size_le (Nat.le_of_lt out)]

theorem begetFrom_leaves (proto : Value) (room : n ≤ w.heap.size) :
    Leaves (.growth n) (begetFrom proto) w fun o v =>
      o = w.heap.size ∧ v = { w with heap := w.heap.push { proto := proto } } :=
  alloc_leaves proto [] room

theorem newFn_leaves (f : Fn) :
    Leaves (.growth n) (newFn f) w fun a v => a = .fn w.fns.size ∧ v = { w with fns := w.fns.push f } := by
  refine .of_ok rfl ⟨.refl _, fun _ _ => rfl, ?_, rfl, rfl, fun numbers => ?_⟩ ⟨rfl, rfl⟩
  · rw [Array.toList_push]
    exact List.prefix_append _ _
  · exact numbers.of_same (fun _ => rfl) (Nat.le_refl _)

/-- A put either stops and changes nothing, or puts the value under a name into an open bag. -/
theorem putProperty_rule {L : Regime} (o : ObjId) (name value : Value) (enumerable : Bool)
    (step : ∀ b, w.heap.Change (w.heap.setBag o b) → L.step w { w with heap := w.heap.setBag o b }) :
    Leaves L (putProperty o name value enumerable) w fun _ v =>
      ∃ k, Name.of? name = some k ∧ (w.heap.get o).bag.frozen = false ∧
        v = { w with heap := w.heap.setBag o ((w.heap.get o).bag.put k value enumerable) } := by
  unfold putProperty
  refine .bind_get ?_
  dsimp only
  split
  · exact .bind_lift (World.bare_noReport w name) fun _ _ => .stop rfl
  · rename_i is_open
    have is_open : (w.heap.get o).bag.frozen = false := by simpa using is_open
    refine .bind_lift (Name.ofValue_noReport name) fun k named => ?_
    have spelled : Name.of? name = some k := by
      unfold Name.ofValue at named
      split at named
      · cases named; assumption
      · cases named
    exact .of_ok rfl (step _ (.put o k value enumerable is_open)) ⟨k, spelled, is_open, rfl⟩

/-- Erasing either stops and changes nothing, or erases from an open bag. -/
theorem eraseProperty_rule {L : Regime} (o : ObjId) (name : Value)
    (step : ∀ b, w.heap.Change (w.heap.setBag o b) → L.step w { w with heap := w.heap.setBag o b }) :
    Leaves L (eraseProperty o name) w fun _ _ => True := by
  unfold eraseProperty
  refine .bind_get ?_
  dsimp only
  split
  · exact .bind_lift (World.bare_noReport w name) fun _ _ => .stop rfl
  · rename_i is_open
    have is_open : (w.heap.get o).bag.frozen = false := by simpa using is_open
    refine .bind_lift (Name.ofValue_noReport name) fun k _ => ?_
    exact .of_ok rfl (step _ (.erase o k.key is_open)) trivial

theorem putProperty_leaves (o : ObjId) (name value : Value) (enumerable : Bool) (above : n ≤ o) :
    Leaves (.growth n) (putProperty o name value enumerable) w fun _ v =>
      ∃ k, Name.of? name = some k ∧ (w.heap.get o).bag.frozen = false ∧
        v = { w with heap := w.heap.setBag o ((w.heap.get o).bag.put k value enumerable) } :=
  putProperty_rule o name value enumerable fun _ => Grows.of_change above

theorem eraseProperty_leaves (o : ObjId) (name : Value) (above : n ≤ o) :
    Leaves (.growth n) (eraseProperty o name) w fun _ _ => True :=
  eraseProperty_rule o name fun _ => Grows.of_change above

theorem freeze_leaves (o : ObjId) (above : n ≤ o) :
    Leaves (.growth n) (freeze o) w fun _ v =>
      v = { w with heap := w.heap.setBag o (w.heap.get o).bag.freeze } :=
  .of_ok rfl (Grows.of_change above (.freeze o)) rfl

/-! ## Actions beside the library -/

theorem say_follows {line : World → Except Fault LogLine} (sound : ∀ w, NoReport (line w)) :
    Follows .aside (say line) := by
  refine .bind_get fun w => ?_
  split
  · exact .bind_lift (sound w) fun _ _ => .of_ok rfl ⟨rfl, rfl, rfl, rfl, rfl⟩ trivial
  · exact .pure trivial

theorem drawMark_follows : Follows .aside drawMark :=
  fun _ => .of_ok rfl ⟨rfl, rfl, rfl, rfl, rfl⟩ trivial

theorem newList_follows (items : List Value) : Follows .aside (newList items) :=
  .bind drawMark_follows fun _ => .pure _

theorem newNan_follows : Follows .aside newNan :=
  .bind drawMark_follows fun _ => .pure _

theorem settle_follows (v : Value) : Follows .aside (settle v) := by
  unfold settle
  split
  · exact newList_follows _
  · exact .pure _

end Act

/-! ## Callables -/

theorem World.tagWord_eq_function (w : World) (v : Value) :
    (w.tagWord v == TypeTag.function.word) = w.isCallable v := by
  have callable : w.isCallable v = decide (w.typeTag v = .function) := by
    unfold World.typeTag
    split <;> first
      | rfl
      | (split <;> simp_all)
  rw [callable, World.tagWord]
  cases w.typeTag v <;> rfl

namespace Act
variable {w : World} {v : Value}

theorem exec_enforceCallable (what : Text) (callable : w.isCallable v = true) :
    exec (enforceCallable v what) w = (.ok (), w) := by
  have word := World.tagWord_eq_function w v
  rw [callable] at word
  simp only [enforceCallable, enforceType, enforceTag, exec_get_bind, word, if_true, exec_pure]

theorem exec_enforceCallable_refused (what : Text) (refused : w.isCallable v = false) :
    exec (enforceCallable v what) w = (.error (.notCallable what (w.tagWord v)), w) := by
  have word := World.tagWord_eq_function w v
  rw [refused] at word
  simp only [enforceCallable, enforceType, enforceTag, exec_get_bind, word]
  rfl

theorem enforceCallable_leaves (v : Value) (what : Text) :
    Leaves .aside (enforceCallable v what) w fun _ u => u = w ∧ w.isCallable v = true := by
  cases callable : w.isCallable v with
  | true => exact .of_ok (exec_enforceCallable what callable) (Aside.refl w) ⟨rfl, rfl⟩
  | false => exact .of_error (exec_enforceCallable_refused what callable) (Aside.refl w) rfl

theorem enforceTag_follows (v tag what : Value) : Follows .aside (enforceTag v tag what) := by
  refine .bind_get fun w => ?_
  dsimp only
  split
  · split
    · exact .pure trivial
    · split
      · exact .bind_lift (World.bare_noReport w what) fun _ _ => .stop rfl
      · exact .bind_lift (World.bare_noReport w what) fun _ _ => .stop rfl
  · exact .bind_lift (World.bare_noReport w what) fun _ _ =>
      .bind_lift (World.bare_noReport w tag) fun _ _ => .stop rfl

end Act

end Overlay
