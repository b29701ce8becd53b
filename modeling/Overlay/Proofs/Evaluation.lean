import Overlay.Proofs.Handling

/-!
# Scripts handle what is there

The evaluator is followed over the syntax of scripts whose data refer to no object, for any way of calling that
handles what is there; the calls of the evaluator do so by induction on the levels of the stack. So a run of such a
script is an execution with effects each of which is given values of its world.
-/

namespace Overlay.Script
set_option autoImplicit false

open Act World

variable {w : World} {invoke : Invoker}

/-! ## Variables -/

theorem offerLabel_handles (name : Text) (v : Value) : Leaves .handling (offerLabel name v) w fun _ _ => True := by
  unfold offerLabel
  split
  · exact .handling_of_ok rfl ⟨rfl, rfl, rfl, rfl, rfl⟩ rfl rfl rfl trivial
  · exact .handling_of_ok rfl ⟨rfl, rfl, rfl, rfl, rfl⟩ rfl rfl rfl trivial
  · exact .pure trivial

theorem define_handles (name : Text) {v : Value} (below : v.Below w.heap.size) :
    Leaves .handling (define name v) w fun _ _ => True := by
  have naming : Leaves .handling (modify fun w => { w with vars := w.vars.insert name v } : Act Unit) w
      fun _ _ => True :=
    .of_ok rfl (fun sane => .aside ⟨rfl, rfl, rfl, rfl, rfl⟩ sane (sane.vars.insert below) sane.frame sane.tables) trivial
  exact .bind naming fun _ _ _ _ => offerLabel_handles name v

theorem bind_handles (sane : w.Sane) (name : Text) {v : Value} (below : v.Below w.heap.size) :
    Leaves .handling (bind name v) w fun _ _ => True := by
  refine .bind_get ?_
  split
  · rename_i frame here
    refine .of_ok rfl (fun _ => .aside ⟨rfl, rfl, rfl, rfl, rfl⟩ sane sane.vars (fun b same => ?_) sane.tables) trivial
    cases same
    exact (sane.frame frame here).insert below
  · exact define_handles name below

theorem readVar_handles (sane : w.Sane) (name : Text) :
    Leaves .handling (readVar name) w fun a u => a.Below u.heap.size := by
  refine .bind_get ?_
  split
  · rename_i v found
    refine .pure ?_
    cases local_ : w.frame.bind (·.find? name) with
    | some x =>
      rw [local_] at found
      cases found
      obtain ⟨frame, here, bound⟩ := Option.bind_eq_some_iff.1 local_
      exact (sane.frame frame here).find? bound
    | none =>
      rw [local_] at found
      exact sane.vars.find? found
  · exact .stop rfl

theorem readCommon_handles (sane : w.Sane) (name : Text) :
    Leaves .handling (readCommon name) w fun a u => u = w ∧ a.Below u.heap.size := by
  refine .bind_get ?_
  split
  · rename_i v found
    exact .pure ⟨rfl, sane.vars.find? found⟩
  · exact .stop rfl

theorem hostNamed_handles (sane : w.Sane) (name : Text) : Leaves .handling (hostNamed name) w fun _ u => u = w := by
  refine .bind (readCommon_handles sane name) fun v u _ ⟨same, _⟩ => ?_
  split
  · exact .pure same
  · exact .stop rfl

theorem frameOf?_below {n : Nat} {params : List Param} {args : List Value} {b : Bindings}
    (entered : frameOf? params args = some b) (below : ∀ x ∈ args, x.Below n) : b.Below n := by
  have first {name : Text} {x : Value} {rest : Option Bindings} {b : Bindings}
      (entered : rest.map ((name, x) :: ·) = some b) (here : x.Below n)
      (later : ∀ c, rest = some c → Bindings.Below n c) : b.Below n := by
    obtain ⟨c, found, rfl⟩ := Option.map_eq_some_iff.1 entered
    intro e listed
    rcases List.mem_cons.1 listed with rfl | more
    · exact here
    · exact later c found e more
  induction params, args using frameOf?.induct generalizing b with
  | case1 =>
    cases entered
    exact fun e none => nomatch none
  | case2 => cases entered
  | case3 name ps args ih =>
    rw [frameOf?] at entered
    exact first entered (Datum.below_list.2 below) fun c found => ih found fun _ none => nomatch none
  | case4 => cases entered
  | case5 name ps a args ih =>
    rw [frameOf?] at entered
    exact first entered (below a List.mem_cons_self) fun c found =>
      ih found fun x listed => below x (List.mem_cons_of_mem a listed)
  | case6 name ps ih =>
    rw [frameOf?] at entered
    exact first entered Datum.below_undefined fun c found => ih found fun _ none => nomatch none
  | case7 name ps a args ih =>
    rw [frameOf?] at entered
    exact first entered (below a List.mem_cons_self) fun c found =>
      ih found fun x listed => below x (List.mem_cons_of_mem a listed)

theorem enterFrame_handles (sane : w.Sane) (params : List Param) {args : List Value}
    (below : ∀ x ∈ args, x.Below w.heap.size) :
    Leaves .handling (enterFrame params args) w fun b u => b.Below u.heap.size := by
  refine .handle sane (settleAll_handles sane below) fun xs u handled xs_in => ?_
  split
  · rename_i frame entered
    have frame_in := frameOf?_below entered xs_in
    clear entered xs_in
    have settling (b : Bindings) (v : World) (sane : v.Sane) (b_in : b.Below v.heap.size) :
        Leaves .handling (b.mapM fun e => do return (e.1, ← settle e.2)) v fun l t => Bindings.Below t.heap.size l := by
      induction b generalizing v with
      | nil => exact .pure fun e none => nomatch none
      | cons e rest ih =>
        rw [List.mapM_cons]
        have one : Leaves .handling (do return (e.1, ← settle e.2)) v fun r t => r.2.Below t.heap.size :=
          .bind (settle_handles (b_in e List.mem_cons_self)) fun _ _ _ here => .pure here
        refine .handle sane one fun r v' handled here => ?_
        refine .handle handled.sane (ih v' handled.sane fun e' listed =>
          (b_in e' (List.mem_cons_of_mem e listed)).mono handled.size) fun l t handled' later => .pure ?_
        exact List.forall_mem_cons.2 ⟨here.mono handled'.size, later⟩
    exact settling frame u handled.sane frame_in
  · exact .stop rfl

/-- A host's roots are values of the world, so they may be named. -/
theorem defineHost_handles (sane : w.Sane) (name : Text) (h : HostId) :
    Leaves .handling (defineHost name h) w fun _ _ => True := by
  have root (o : ObjId) (here : o ∈ (w.host h).roots) : (Datum.obj o).Below w.heap.size :=
    Datum.below_obj.2 (sane.intact.roots h o here)
  refine .bind_get (.handle sane (define_handles name Datum.below_host) fun _ v₁ h₁ _ => ?_)
  refine .handle h₁.sane (define_handles _ ((root _ (by simp [Host.roots])).mono h₁.size)) fun _ v₂ h₂ _ => ?_
  have h₂ := h₁.trans h₂
  refine .handle h₂.sane (define_handles _ ((root _ (by simp [Host.roots])).mono h₂.size)) fun _ v₃ h₃ _ => ?_
  have h₃ := h₂.trans h₃
  refine .handle h₃.sane (define_handles _ ((root _ (by simp [Host.roots])).mono h₃.size)) fun _ v₄ h₄ _ => ?_
  exact define_handles _ ((root _ (by simp [Host.roots])).mono (h₃.trans h₄).size)

theorem definePlugin_handles (sane : w.Sane) (name : Text) (p : PluginId) :
    Leaves .handling (definePlugin name p) w fun _ _ => True := by
  have rooted := Emulation.inside_roots sane.intact p
  have root {o : ObjId} (here : o < w.heap.size) : (Datum.obj o).Below w.heap.size := Datum.below_obj.2 here
  refine .bind_get (.handle sane (define_handles name Datum.below_plugin) fun _ v₁ h₁ _ => ?_)
  refine .handle h₁.sane (define_handles _ ((root rooted.1).mono h₁.size)) fun _ v₂ h₂ _ => ?_
  have h₂ := h₁.trans h₂
  refine .handle h₂.sane (define_handles _ ((root rooted.2.1).mono h₂.size)) fun _ v₃ h₃ _ => ?_
  have h₃ := h₂.trans h₃
  refine .handle h₃.sane (define_handles _ ((root rooted.2.2.1).mono h₃.size)) fun _ v₄ h₄ _ => ?_
  exact define_handles _ ((root rooted.2.2.2).mono (h₃.trans h₄).size)

/-! ## Operations -/

theorem namesList_handles {names : List Name} (below : ∀ m ∈ names, m.value.Below w.heap.size) :
    Leaves .handling (namesList names) w fun a u => a.Below u.heap.size := by
  refine newList_handles fun x listed => ?_
  obtain ⟨m, here, rfl⟩ := List.mem_map.1 listed
  exact below m here

theorem ancestors_below (o : ObjId) :
    ∀ x ∈ (w.heap.ancestors o).map Datum.obj, x.Below w.heap.size := by
  intro x listed
  obtain ⟨p, here, rfl⟩ := List.mem_map.1 listed
  clear listed
  have inside (o : ObjId) : ∀ p ∈ w.heap.ancestors o, p < w.heap.size := by
    induction o using Nat.strongRecOn with
    | _ o ih =>
      intro p here
      rw [Heap.ancestors] at here
      split at here
      · rename_i q link
        split at here
        · rename_i back
          have there : q < w.heap.size := by
            refine Nat.lt_of_not_le fun out => ?_
            have far : w.heap.get o = {} := Heap.get_of_size_le (Nat.le_trans out (Nat.le_of_lt back))
            rw [far] at link
            cases link
          rcases List.mem_cons.1 here with rfl | later
          · exact there
          · exact ih q back p later
        · cases here
      · cases here
  exact Datum.below_obj.2 (inside o p here)

theorem objectOp_handles (sane : w.Sane) (op : ObjectOp) {args : List Value}
    (below : ∀ x ∈ args, x.Below w.heap.size) :
    Leaves .handling (op.run args) w fun a u => a.Below u.heap.size := by
  refine .bind_get ?_
  split
  · rename_i o rest
    obtain ⟨object, below⟩ := List.forall_mem_cons.1 below
    have bag := (sane.intact.objects o).bag
    dsimp only
    split
    · exact .ask handling_free Yields.any fun _ _ => .pure Datum.below_bool
    · exact .ask handling_free Yields.any fun _ _ => .pure bag.get
    · refine .ask handling_free Yields.any fun _ _ => .pure ?_
      split
      · exact bag.get
      · exact below _ (by simp)
    · exact .ask handling_free Yields.any fun _ _ => .ask handling_free Yields.any fun _ _ => .pure Datum.below_bool
    · exact .ask handling_free Yields.any fun k _ => Plugin.lookup_handles sane o k
    · exact namesList_handles bag.names
    · exact .ask handling_free Yields.any fun _ _ => .pure Datum.below_bool
    · exact .ask handling_free (sane.intact.enumerableKeys o) fun _ names => namesList_handles names
    · have value := below _ (List.mem_cons_of_mem _ List.mem_cons_self)
      exact .handle sane (putProperty_handles o true (below _ List.mem_cons_self) value) fun _ u handled _ =>
        .pure (value.mono handled.size)
    · have value := below _ (List.mem_cons_of_mem _ List.mem_cons_self)
      exact .handle sane (putProperty_handles o _ (below _ List.mem_cons_self) value) fun _ u handled _ =>
        .pure (value.mono handled.size)
    · exact .bind (eraseProperty_handles o (below _ List.mem_cons_self)) fun _ _ _ _ => .pure Datum.below_bool
    · exact Host.freeze_handles sane object
    · exact .pure ((sane.intact.objects o).link.mono (Nat.le_of_lt (Datum.below_obj.1 object)))
    · exact .pure Datum.below_bool
    · refine .ask handling_free (R := fun l => ∀ x ∈ l.map Datum.obj, x.Below w.heap.size) ?_ fun l chain => newList_handles chain
      unfold Heap.atEnd
      split
      · exact .ok (ancestors_below o)
      · exact .error _
    · exact .ask handling_free Yields.any fun _ _ => .pure Datum.below_str
    · exact .stop rfl
  · exact .stop rfl

theorem functionOp_handles (sane : w.Sane) (op : FunctionOp) (args : List Value) :
    Leaves .handling (op.run args) w fun a u => a.Below u.heap.size := by
  unfold FunctionOp.run
  split
  · rename_i o
    refine .bind_get ?_
    dsimp only
    split
    · rename_i f made
      have fits := (sane.intact.objects o).host f made
      cases op with
      | name =>
        refine .pure ?_
        split
        · exact (sane.intact.objects o).bag.get
        · exact Datum.below_str
      | arity => exact .pure fits.arity
      | source => exact .pure fits.source
      | category => exact .pure Datum.below_int
      | prototype => exact .pure fits.prototype
    · exact .stop rfl
  · exact .stop rfl

theorem categoryValue_handles {f : Value} (below : f.Below w.heap.size) :
    Leaves .handling (categoryValue f) w fun a u => a.Below u.heap.size := by
  refine .bind_get ?_
  split
  · exact .pure Datum.below_int
  · refine newList_handles ?_
    simp only [List.forall_mem_cons, Datum.below_str, true_and]
    exact ⟨below, List.forall_mem_nil _⟩
  · exact .stop rfl

theorem membersOf_below {v : Value} (below : v.Below w.heap.size) :
    Yields (MembersBelow w.heap.size) (membersOf w v) := by
  have pair {k x : Value} (key : k.Below w.heap.size) (value : x.Below w.heap.size) :
      Yields (fun m : Name × Value => m.1.value.Below w.heap.size ∧ m.2.Below w.heap.size)
        (do return (← Name.ofValue k, x)) := by
    cases named : Name.ofValue k with
    | error e => exact .error e
    | ok n =>
      refine .ok ⟨?_, value⟩
      rw [Name.value_ofValue named]
      exact key
  unfold membersOf
  split
  · exact .mapM fun e listed => pair (Datum.below_record.1 below e listed).1 (Datum.below_record.1 below e listed).2
  · split
    · split
      · rename_i parts falls
        refine .mapM fun x listed => ?_
        unfold pairOf
        split
        · rename_i k y falls'
          have both := (below.parts falls x listed).parts falls'
          exact pair (both k (by simp)) (both y (by simp))
        · exact .error _
        · exact .error _
      · exact .error _
    · exact .ok fun m none => nomatch none

theorem hostOp_handles (sane : w.Sane) (proper : invoke.Proper) (h : HostId) (op : HostOp) {args : List Value}
    (below : ∀ x ∈ args, x.Below w.heap.size) :
    Leaves .handling (op.run invoke h args) w fun a u => a.Below u.heap.size := by
  have intact := sane.intact
  have bare {name : Value} (named : name.Below w.heap.size) : Host.Signature.Below w.heap.size { name := name } :=
    ⟨named, Datum.below_null, Datum.below_null⟩
  have none_yet : MembersBelow w.heap.size [] := fun _ none => nomatch none
  have made {x : Act ObjId} (making : Leaves .handling x w fun i u => i < u.heap.size) :
      Leaves .handling (do return .obj (← x)) w fun a u => Datum.Below u.heap.size a :=
    .bind making fun _ _ _ here => .pure (Datum.below_obj.2 here)
  have arg (i : Nat) {x : Value} (given : args[i]? = some x) : x.Below w.heap.size :=
    below x (List.mem_of_getElem? given)
  refine .bind_get ?_
  split
  · exact made (Host.beget_handles (arg 0 rfl))
  · exact .ask handling_free Yields.any fun _ _ => .ask handling_free (membersOf_below (arg 1 rfl)) fun _ members =>
      made (alloc_handles (arg 0 rfl) members)
  · exact Host.freeze_handles sane (arg 0 rfl)
  · exact .pure Datum.below_str
  · refine .bind (enforceTag_handles _ _ _) fun _ u _ same => .pure ?_
    rw [same]; exact arg 0 rfl
  · refine .bind (enforceTag_handles _ _ _) fun _ u _ same => .pure ?_
    rw [same]; exact arg 0 rfl
  · exact .pure Datum.below_bool
  · exact .of_still handling_free rfl fun a ended => intact.prototypeOf h _ a ended
  · exact .ask handling_free Yields.any fun _ _ => .pure Datum.below_bool
  · exact .bind (Host.has_handles h _ _) fun _ _ _ _ => .pure Datum.below_bool
  · exact Host.read_handles sane h _ _
  · exact Host.put_handles sane _ (arg 1 rfl) (arg 2 rfl)
  · exact .bind (Host.delete_handles _ (arg 1 rfl)) fun _ _ _ _ => .pure Datum.below_bool
  · exact .ask handling_free (intact.enumerableNames h _) fun _ names => namesList_handles names
  · exact .ask handling_free Yields.any fun _ _ => .pure Datum.below_bool
  · exact .ask handling_free Yields.any fun _ _ => .pure Datum.below_bool
  · exact .ask handling_free Yields.any fun _ _ => .pure Datum.below_bool
  · exact .of_still handling_free rfl fun a ended => intact.directConstructor h _ a ended
  · refine .bind (enforceCallable_stays _ _) fun _ u _ ⟨same, _⟩ => ?_
    rw [same]; exact categoryValue_handles (arg 0 rfl)
  · refine .bind (enforceCallable_stays _ _) fun _ u _ ⟨same, _⟩ => ?_
    rw [same]; exact .of_still handling_free rfl fun a ended => intact.superConstructor h _ a ended
  · exact .ask handling_free (intact.ownNames _ _) fun _ names => namesList_handles names
  · exact .ask handling_free (intact.ownNames _ _) fun _ names => namesList_handles names
  · exact .ask handling_free (intact.methodNames _ _) fun _ names => namesList_handles names
  · exact .ask handling_free (intact.methodNames _ _) fun _ names => namesList_handles names
  · exact Host.callSpread_handles sane proper (arg 0 rfl) (arg 1 rfl) (arg 2 rfl)
  · exact Host.construct_handles sane proper (arg 1 rfl)
  · exact .pure (intact.arity _)
  · exact Host.sourceText_handles sane _
  · refine .ask handling_free Yields.any fun _ _ => ?_
    split
    · exact .bind (Host.registerPrimitive_handles h _ (arg 1 rfl)) fun _ _ _ _ => .pure Datum.below_null
    · exact .stop rfl
    · exact .stop rfl
  · exact made (Host.defineFunction_handles sane h (arg 1 rfl) (bare (arg 0 rfl)))
  · exact made (Host.defineConstructor_handles sane h (bare (arg 0 rfl)) Datum.below_null Datum.below_null none_yet none_yet)
  · exact made (Host.defineConstructor_handles sane h (bare (arg 0 rfl)) (arg 1 rfl) Datum.below_null none_yet none_yet)
  · exact .stop rfl

theorem pluginOp_handles (sane : w.Sane) (proper : invoke.Proper) (p : PluginId) (op : PluginOp) {args : List Value}
    (below : ∀ x ∈ args, x.Below w.heap.size) :
    Leaves .handling (op.run invoke p args) w fun a u => a.Below u.heap.size := by
  have nothing : (Datum.list none [] : Value).Below w.heap.size := Datum.below_list.2 fun _ none => nomatch none
  have arg (i : Nat) {x : Value} (given : args[i]? = some x) : x.Below w.heap.size :=
    below x (List.mem_of_getElem? given)
  refine .bind_get ?_
  dsimp only
  split
  · exact .ask handling_free Yields.any fun _ _ => .pure Datum.below_str
  · exact .bind (Plugin.instanceOf_handles sane p _ (arg 1 rfl)) fun _ _ _ _ => .pure Datum.below_bool
  · exact Plugin.read_handles sane p _ (arg 0 rfl)
  · exact Plugin.write_handles sane p (arg 0 rfl) (arg 1 rfl) (arg 2 rfl)
  · exact .bind (Plugin.remove_handles sane p (arg 0 rfl) (arg 1 rfl)) fun _ _ _ _ => .pure Datum.below_bool
  · exact .bind (Plugin.keys_handles sane p (arg 0 rfl)) fun _ _ _ names => namesList_handles names
  · exact .bind (Plugin.canRead_handles sane p _ (arg 1 rfl)) fun _ _ _ _ => .pure Datum.below_bool
  · exact Plugin.apply_handles sane proper p (arg 0 rfl) (arg 1 rfl) (arg 2 rfl)
  · exact Plugin.callFunction_handles sane proper p (arg 0 rfl) nothing
  · exact Plugin.callFunction_handles sane proper p (arg 0 rfl) (arg 1 rfl)
  · exact Plugin.callMethod_handles sane proper p _ (arg 0 rfl) nothing
  · exact Plugin.callMethod_handles sane proper p _ (arg 0 rfl) (arg 2 rfl)
  · exact Plugin.construct_handles sane proper p (arg 0 rfl) nothing
  · exact Plugin.construct_handles sane proper p (arg 0 rfl) (arg 1 rfl)
  · exact Plugin.emulate_handles sane p (arg 0 rfl) Datum.below_null
  · exact Plugin.emulate_handles sane p (arg 0 rfl) (arg 1 rfl)
  · exact Plugin.forwarder_handles sane p (arg 0 rfl)
  · exact Plugin.getOuters_handles sane p
  · exact Plugin.readOuter_handles sane p _
  · exact Plugin.setOuter_handles sane p (arg 0 rfl) (arg 1 rfl)
  · exact .bind (Plugin.initOuter_handles sane p (arg 0 rfl)) fun _ _ _ _ => .pure Datum.below_null
  · exact .bind (Plugin.shadowOf_handles sane p (arg 0 rfl)) fun _ _ _ here => .pure (Datum.below_obj.2 here)
  · exact Plugin.pseudoPrototype_handles sane p (arg 0 rfl)
  · exact Plugin.supplementOf_handles sane p (arg 0 rfl)
  · exact .pure Datum.below_int
  · refine newList_handles fun x listed => ?_
    obtain ⟨c, -, rfl⟩ := List.mem_map.1 listed
    cases c with
    | host n => exact Datum.below_int
    | plain f => exact Datum.below_str
  · exact .stop rfl
  · exact .stop rfl

/-- Tables may change as long as they hold values of the world. -/
theorem tables_handled {tables : Array (Registry Name Value)} (sane : w.Sane)
    (below : ∀ t : TableId, ∀ e ∈ (tables[t]?.getD {}).entries, e.1.value.Below w.heap.size ∧ e.2.Below w.heap.size) :
    Handled w { w with tables := tables } :=
  .aside ⟨rfl, rfl, rfl, rfl, rfl⟩ sane sane.vars sane.frame below

theorem lengthOf_below {n : Nat} (u : World) (v : Value) : Yields (fun x => x.Below n) (lengthOf u v) := by
  unfold lengthOf
  split
  · exact .ok Datum.below_int
  · split
    · exact .ok Datum.below_int
    · exact .error _

theorem find?_below {n : Nat} {table : Registry Name Value} (below : ∀ e ∈ table.entries, e.1.value.Below n ∧ e.2.Below n)
    (k : Name) : ((table.find? k).getD .null).Below n := by
  cases found : table.find? k with
  | none => exact Datum.below_null
  | some x =>
    obtain ⟨e, here, rfl⟩ := Option.map_eq_some_iff.1 found
    exact (below e (List.mem_of_find?_eq_some here)).2

theorem tableOp_handles (sane : w.Sane) (op : TableOp) {args : List Value} (below : ∀ x ∈ args, x.Below w.heap.size) :
    Leaves .handling (op.run args) w fun a u => a.Below u.heap.size := by
  refine .bind_get ?_
  split
  · refine .of_ok rfl (fun _ => tables_handled sane fun t => ?_) Datum.below_table
    rw [Array.getElem?_push]
    split
    · exact fun e none => nomatch none
    · exact sane.tables t
  · exact .of_still handling_free rfl fun a ended => lengthOf_below w _ a ended
  · rename_i t rest _
    have arg (i : Nat) {x : Value} (given : rest[i]? = some x) : x.Below w.heap.size :=
      below x (List.mem_cons_of_mem _ (List.mem_of_getElem? given))
    have entries := sane.tables t
    dsimp only
    split
    · cases named : Name.ofValue _ with
      | error e => exact .of_error rfl (Regime.refl _ w) trivial
      | ok name =>
        refine .of_exec (exec_lift_ok_bind name _ w) (Regime.refl _ w) ?_
        split
        · rename_i table inserted
          refine .of_ok rfl (fun _ => tables_handled sane fun i => ?_) (arg 1 rfl)
          rw [Array.getElem?_setIfInBounds]
          split
          · split
            · intro e listed
              unfold Registry.insert? at inserted
              split at inserted <;> cases inserted
              rcases List.mem_append.1 listed with old | new
              · exact entries e old
              · rw [List.mem_singleton.1 new, Name.value_ofValue named]
                exact ⟨arg 0 rfl, arg 1 rfl⟩
            · exact fun e none => nomatch none
          · exact sane.tables i
        · exact .ask handling_free Yields.any fun _ _ => .of_error rfl (Regime.refl _ w) trivial
    · exact .ask handling_free Yields.any fun k _ => .pure (find?_below entries k)
    · exact .ask handling_free Yields.any fun _ _ => .pure Datum.below_bool
    · refine namesList_handles fun m listed => ?_
      obtain ⟨e, here, rfl⟩ := List.mem_map.1 listed
      exact (entries e here).1
    · exact .stop rfl
  · split
    · exact .pure Datum.below_bool
    · exact .ask handling_free Yields.any fun _ _ => .ask handling_free Yields.any fun _ _ => .pure Datum.below_bool
  · exact .stop rfl
  · exact .stop rfl
  · exact .stop rfl

theorem hostOpOn_handles (sane : w.Sane) (proper : invoke.Proper) {target : Value} (op : HostOp) {args : List Value}
    (here : target.Below w.heap.size) (below : ∀ x ∈ args, x.Below w.heap.size) :
    Leaves .handling (op.runOn invoke target args) w fun a u => a.Below u.heap.size := by
  have all : ∀ x ∈ target :: args, x.Below w.heap.size := List.forall_mem_cons.2 ⟨here, below⟩
  unfold HostOp.runOn
  split
  · exact hostOp_handles sane proper _ op below
  · exact pluginOp_handles sane proper _ _ below
  · exact pluginOp_handles sane proper _ _ below
  · exact tableOp_handles sane _ all
  · refine .bind_get ?_
    split
    · exact .stop rfl
    · exact .stop rfl
  · split
    · exact objectOp_handles sane _ all
    · exact .stop rfl
  · exact .stop rfl

theorem pluginOpOn_handles (sane : w.Sane) (proper : invoke.Proper) (target : Value) (op : PluginOp) {args : List Value}
    (below : ∀ x ∈ args, x.Below w.heap.size) :
    Leaves .handling (op.runOn invoke target args) w fun a u => a.Below u.heap.size := by
  unfold PluginOp.runOn
  split
  · exact pluginOp_handles sane proper _ op below
  · exact hostOp_handles sane proper _ _ below
  · exact hostOp_handles sane proper _ _ below
  · exact .pure Datum.below_null
  · exact .pure Datum.below_null
  · exact .stop rfl

theorem operation_handles (sane : w.Sane) (proper : invoke.Proper) (op : Operation) {args : List Value}
    (below : ∀ x ∈ args, x.Below w.heap.size) :
    Leaves .handling (op.run invoke args) w fun a u => a.Below u.heap.size := by
  unfold Operation.run
  split
  · exact .pure (below _ List.mem_cons_self)
  · exact .pure (below _ List.mem_cons_self)
  · exact .pure Datum.below_int
  · exact .pure Datum.below_str
  · exact .bind_get (.ask handling_free Yields.any fun _ _ => .stop rfl)
  · refine .bind_get ?_
    split
    · exact proper w _ _ sane (below _ List.mem_cons_self) fun x listed => below x (List.mem_cons_of_mem _ listed)
    · exact .stop rfl
  · exact objectOp_handles sane _ below
  · exact functionOp_handles sane _ _
  · refine .bind (readCommon_handles sane _) fun target u _ ⟨same, here⟩ => ?_
    rw [same] at here ⊢
    exact hostOpOn_handles sane proper _ here below
  · refine .bind (readCommon_handles sane _) fun target u _ ⟨same, _⟩ => ?_
    rw [same]
    exact pluginOpOn_handles sane proper target _ below
  · exact tableOp_handles sane _ below
  · exact .stop rfl

/-! ## Steps -/

theorem readNumeral_handles (text : Text) : Leaves .handling (readNumeral text) w fun a u => a.Below u.heap.size := by
  unfold readNumeral
  split
  · exact .pure Datum.below_float
  · exact newNan_handles
  · exact .stop rfl

theorem nest_handles (sane : w.Sane) (times : Nat) {v : Value} (below : v.Below w.heap.size) :
    Leaves .handling (nest times v) w fun a u => a.Below u.heap.size := by
  induction times generalizing w v with
  | zero => exact .pure below
  | succ n ih =>
    exact .handle sane (Host.beget_handles below) fun _ u handled here => ih handled.sane (Datum.below_obj.2 here)

theorem makePluginOn_handles (sane : w.Sane) (target : Value) {outers : Value} (settings : Settings)
    (below : outers.Below w.heap.size) : Leaves .handling (makePluginOn target outers settings) w fun _ _ => True := by
  unfold makePluginOn
  split
  · exact .ask handling_free Yields.any fun config _ => Plugin.make_handles sane _ config below
  · refine .bind_get ?_
    split
    · refine .ask handling_free Yields.any fun config _ => .bind (P := fun _ _ => True) ?_ fun _ _ _ _ => .stop rfl
      exact Leaves.forM (L := .handling) (I := fun _ => True) trivial fun _ _ _ _ _ => say_handles _
    · refine .handle sane (Host.make_handles sane) fun h u handled _ => ?_
      exact .ask handling_free Yields.any fun config _ =>
        Plugin.make_handles handled.sane h config (below.mono handled.size)

theorem makePlugin_handles (sane : w.Sane) (name : Text) {outers : Value} (on : Option Text) (settings : Settings)
    (below : outers.Below w.heap.size) : Leaves .handling (makePlugin name outers on settings) w fun _ _ => True := by
  unfold makePlugin
  split
  · refine .bind (readCommon_handles sane _) fun target u _ ⟨same, _⟩ => ?_
    rw [same]
    exact .handle sane (makePluginOn_handles sane target settings below) fun p v handled _ =>
      definePlugin_handles handled.sane name p
  · refine .handle sane (makePluginOn_handles sane .null settings below) fun p v handled _ => .bind_get ?_
    exact .handle handled.sane (defineHost_handles handled.sane _ _) fun _ u handled' _ =>
      definePlugin_handles handled'.sane name p

theorem uniqueMembers_below {n : Nat} {members : List (Name × Value)} (below : MembersBelow n members) :
    MembersBelow n (uniqueMembers members) := by
  intro m listed
  obtain ⟨p, here, rfl⟩ := List.mem_map.1 listed
  exact Bag.below_ofMembers below p here

mutual

theorem evalExpr_handles (proper : invoke.Proper) {w : World} (sane : w.Sane) : (e : Expr) → e.Plain →
    Leaves .handling (evalExpr invoke e) w fun a u => a.Below u.heap.size
  | .datum v, plain => by
    rw [evalExpr]
    rw [Expr.Plain] at plain
    exact .pure (plain.mono (Nat.zero_le _))
  | .numeral text, _ => by rw [evalExpr]; exact readNumeral_handles text
  | .list items, plain => by
    rw [evalExpr]
    rw [Expr.Plain] at plain
    exact .bind (evalExprs_handles proper sane items plain) fun _ _ _ below => newList_handles below
  | .var name, _ => by rw [evalExpr]; exact readVar_handles sane name
  | .step s, plain => by
    rw [evalExpr]
    rw [Expr.Plain] at plain
    exact evalStep_handles proper sane s plain
  | .refused f, _ => by
    rw [evalExpr]
    exact .of_error rfl (Regime.refl _ w) trivial

theorem evalExprs_handles (proper : invoke.Proper) {w : World} (sane : w.Sane) : (es : List Expr) → PlainArgs es →
    Leaves .handling (evalExprs invoke es) w fun l u => ∀ x ∈ l, x.Below u.heap.size
  | [], _ => by
    rw [evalExprs]
    exact .pure fun _ none => nomatch none
  | e :: rest, plain => by
    rw [evalExprs]
    rw [PlainArgs] at plain
    refine .handle sane (evalExpr_handles proper sane e plain.1) fun v u handled here => ?_
    refine .handle handled.sane (evalExprs_handles proper handled.sane rest plain.2) fun l t handled' later => .pure ?_
    exact List.forall_mem_cons.2 ⟨here.mono handled'.size, later⟩

theorem evalMembers_handles (proper : invoke.Proper) {w : World} (sane : w.Sane) : (es : List (Value × Expr)) →
    PlainMembers es → Leaves .handling (evalMembers invoke es) w fun l u => MembersBelow u.heap.size l
  | [], _ => by
    rw [evalMembers]
    exact .pure fun _ none => nomatch none
  | (name, e) :: rest, plain => by
    rw [evalMembers]
    rw [PlainMembers] at plain
    obtain ⟨named, first, others⟩ := plain
    refine .handle sane (evalExpr_handles proper sane e first) fun v u handled here => ?_
    refine .ask handling_free (R := fun n => n.value = name) (fun _ => Name.value_ofValue) fun n same => ?_
    refine .handle handled.sane (evalMembers_handles proper handled.sane rest others) fun l t handled' later => .pure ?_
    refine List.forall_mem_cons.2 ⟨⟨?_, here.mono handled'.size⟩, later⟩
    rw [same]
    exact named.mono (Nat.zero_le _)

/-- A step whose data refer to no object handles what is there. -/
theorem evalStep_handles (proper : invoke.Proper) {w : World} (sane : w.Sane) : (s : Step) → s.Plain →
    Leaves .handling (evalStep invoke s) w fun a u => a.Below u.heap.size
  | .named name s, plain => by
    rw [evalStep]
    rw [Step.Plain] at plain
    refine .handle sane (evalStep_handles proper sane s plain) fun v u handled here => ?_
    exact .handle handled.sane (bind_handles handled.sane name here) fun _ t handled' _ => .pure (here.mono handled'.size)
  | .compute op args, plain => by
    rw [evalStep]
    rw [Step.Plain] at plain
    exact .handle sane (evalExprs_handles proper sane args plain) fun xs u handled below =>
      operation_handles handled.sane proper op below
  | .function name params body source, plain => by
    rw [evalStep]
    rw [Step.Plain] at plain
    exact .ask handling_free Yields.any fun _ _ => newFn_handles ⟨plain.1.mono (Nat.zero_le _), plain.2⟩
  | .new proto props hidden, plain => by
    rw [evalStep]
    rw [Step.Plain] at plain
    obtain ⟨plain_link, plain_props, plain_hidden⟩ := plain
    refine .handle sane (evalExpr_handles proper sane proto plain_link) fun link v handled link_in => ?_
    refine .handle handled.sane (evalMembers_handles proper handled.sane props plain_props) fun members u handled' below => ?_
    refine .handle handled'.sane (alloc_handles (link_in.mono handled'.size) below) fun o t made here => ?_
    refine .handle made.sane (evalMembers_handles proper made.sane hidden plain_hidden) fun more t' later more_in => ?_
    have putting : Leaves .handling (more.forM fun m => putHidden o m.1.value m.2) t' fun _ r => t'.Sane → Handled t' r := by
      refine Leaves.forM (L := .handling) (I := fun r => t'.Sane → Handled t' r) Handled.refl fun m listed r step _ => ?_
      have grown := (step later.sane).size
      obtain ⟨name, value⟩ := more_in.mono grown m listed
      exact (putProperty_handles o false name value).conseq fun _ q step' _ sane' =>
        (step sane').trans (step' (step sane').sane)
    exact .bind putting fun _ r _ far =>
      .pure (Datum.below_obj.2 (Nat.lt_of_lt_of_le here (later.trans (far later.sane)).size))
  | .nest start times, plain => by
    rw [evalStep]
    rw [Step.Plain] at plain
    exact .handle sane (evalExpr_handles proper sane start plain) fun _ u handled below =>
      nest_handles handled.sane times below
  | .defineFunction on name impl arity source, plain => by
    rw [evalStep]
    rw [Step.Plain] at plain
    obtain ⟨named, plain_impl, counted, written⟩ := plain
    refine .bind (hostNamed_handles sane on) fun h u _ same => ?_
    rw [same]
    refine .handle sane (evalExpr_handles proper sane impl plain_impl) fun v t handled code => ?_
    refine .bind (Host.defineFunction_handles handled.sane h code ⟨named.mono (Nat.zero_le _), counted.mono (Nat.zero_le _),
      written.mono (Nat.zero_le _)⟩) fun _ _ _ here => .pure (Datum.below_obj.2 here)
  | .defineConstructor on name init parent methods statics arity source, plain => by
    rw [evalStep]
    rw [Step.Plain] at plain
    obtain ⟨named, plain_init, plain_parent, plain_methods, plain_statics, counted, written⟩ := plain
    refine .bind (hostNamed_handles sane on) fun h u _ same => ?_
    rw [same]
    refine .handle sane (evalExpr_handles proper sane init plain_init) fun first v₁ h₁ first_in => ?_
    refine .handle h₁.sane (evalExpr_handles proper h₁.sane parent plain_parent) fun above v₂ h₂ above_in => ?_
    refine .handle h₂.sane (evalMembers_handles proper h₂.sane methods plain_methods) fun ms v₃ h₃ ms_in => ?_
    refine .handle h₃.sane (evalMembers_handles proper h₃.sane statics plain_statics) fun ss v₄ h₄ ss_in => ?_
    refine .bind (Host.defineConstructor_handles h₄.sane h ⟨named.mono (Nat.zero_le _), counted.mono (Nat.zero_le _),
      written.mono (Nat.zero_le _)⟩ (first_in.mono ((h₂.trans h₃).trans h₄).size) (above_in.mono (h₃.trans h₄).size)
      (uniqueMembers_below (ms_in.mono h₄.size)) (uniqueMembers_below ss_in)) fun _ _ _ here =>
        .pure (Datum.below_obj.2 here)
  | .hostFunction name impl proto prototype arity source, plain => by
    rw [evalStep]
    rw [Step.Plain] at plain
    obtain ⟨named, plain_impl, plain_proto, plain_prototype, counted, written⟩ := plain
    refine .handle sane (evalExpr_handles proper sane impl plain_impl) fun code v₁ h₁ code_in => ?_
    refine .handle h₁.sane (evalExpr_handles proper h₁.sane proto plain_proto) fun link v₂ h₂ link_in => ?_
    refine .handle h₂.sane (evalExpr_handles proper h₂.sane prototype plain_prototype) fun x v₃ h₃ x_in => ?_
    have code_in' : Impl.Below v₃.heap.size (.value code) := code_in.mono (h₂.trans h₃).size
    refine .bind (Host.newFunction_handles h₃.sane code_in' ⟨named.mono (Nat.zero_le _), counted.mono (Nat.zero_le _),
      written.mono (Nat.zero_le _)⟩ (link_in.mono h₃.size) x_in) fun _ _ _ here => .pure (Datum.below_obj.2 here)
  | .makeHost name, _ => by
    rw [evalStep]
    refine .handle sane (Host.make_handles sane) fun h u handled _ => ?_
    exact .bind (defineHost_handles handled.sane name h) fun _ _ _ _ => .pure Datum.below_null
  | .makePlugin name outers on settings, plain => by
    rw [evalStep]
    rw [Step.Plain] at plain
    refine .handle sane (evalExpr_handles proper sane outers plain) fun v u handled below => ?_
    exact .bind (makePlugin_handles handled.sane name on settings below) fun _ _ _ _ => .pure Datum.below_null

end

theorem evalBody_handles (proper : invoke.Proper) (sane : w.Sane) {body : List Step} (plain : PlainSteps body) :
    Leaves .handling (evalBody invoke body) w fun a u => a.Below u.heap.size := by
  induction body generalizing w with
  | nil => exact .pure Datum.below_null
  | cons s rest ih =>
    rw [PlainSteps] at plain
    cases rest with
    | nil => exact evalStep_handles proper sane s plain.1
    | cons s' rest =>
      exact .handle sane (evalStep_handles proper sane s plain.1) fun _ u handled _ => ih handled.sane plain.2

/-! ## Calls -/

/-- A body that runs in a frame of values of the world handles what is there; afterwards the old frame holds values of
the world still. -/
theorem inFrame_handles (sane : w.Sane) {frame : Bindings} {body : Act Value} (below : frame.Below w.heap.size)
    (handles : ∀ v : World, v.Sane → v.heap.size = w.heap.size →
      Leaves .handling body v fun a u => a.Below u.heap.size) :
    Leaves .handling (inFrame frame body) w fun a u => a.Below u.heap.size := by
  have entering : Handled w { w with frame := some frame } :=
    .aside ⟨rfl, rfl, rfl, rfl, rfl⟩ sane sane.vars (fun b same => by cases same; exact below) sane.tables
  have inside := handles _ entering.sane rfl
  refine ⟨fun _ => ?_, inside.value, fun _ _ => trivial⟩
  have ran := entering.trans (inside.world entering.sane)
  refine ran.trans (.aside ⟨rfl, rfl, rfl, rfl, rfl⟩ ran.sane ran.sane.vars (fun b same => ?_) ran.sane.tables)
  exact (sane.frame b same).mono ran.size

theorem greatest_below {n : Nat} {best : Value} {rest : List Value} (first : best.Below n)
    (below : ∀ x ∈ rest, x.Below n) : Yields (fun x => x.Below n) (greatest best rest) := by
  induction rest generalizing best with
  | nil => exact .ok first
  | cons v rest ih =>
    obtain ⟨next, later⟩ := List.forall_mem_cons.1 below
    unfold greatest
    split
    · rename_i less _
      refine ih ?_ later
      cases less with
      | true => exact next
      | false => exact first
    · exact .error _

theorem maximum_below {n : Nat} {args : List Value} (below : ∀ x ∈ args, x.Below n) :
    Yields (fun x => x.Below n) (maximum args) := by
  unfold maximum
  split
  · exact .error _
  · split
    · rename_i falls
      have parts := (below _ List.mem_cons_self).parts falls
      exact greatest_below (parts _ List.mem_cons_self) fun x listed => parts x (List.mem_cons_of_mem _ listed)
    · exact .error _
    · exact .error _
  · exact greatest_below (below _ List.mem_cons_self) fun x listed => below x (List.mem_cons_of_mem _ listed)

theorem runFn_handles (proper : invoke.Proper) (sane : w.Sane) {f : Fn} {args : List Value} (code : f.Below w.heap.size)
    (below : ∀ x ∈ args, x.Below w.heap.size) :
    Leaves .handling (runFn invoke f args) w fun a u => a.Below u.heap.size := by
  have useless : (Datum.obj World.useless).Below w.heap.size := Datum.below_obj.2 sane.intact.size_pos
  have arg (i : Nat) {x : Value} (given : args[i]? = some x) : x.Below w.heap.size :=
    below x (List.mem_of_getElem? given)
  have one {x : Value} (here : x.Below w.heap.size) : ∀ y ∈ [x], y.Below w.heap.size := by simpa using here
  unfold runFn
  split
  · exact .bind_get (.of_still handling_free rfl fun a ended => lengthOf_below w _ a ended)
  · exact .stop rfl
  · exact .ask handling_free (maximum_below below) fun _ here => settle_handles here
  · rename_i d
    refine .handle sane (enterFrame_handles sane d.params below) fun frame u handled here => ?_
    exact inFrame_handles handled.sane here fun v sane' _ => evalBody_handles proper sane' code.2
  · exact Host.call_handles sane proper code useless (one (arg 0 rfl))
  · exact Host.call_handles sane proper code useless (one (arg 0 rfl))
  · exact Host.call_handles sane proper code useless (one (arg 0 rfl))
  · exact .ask handling_free (Host.spread_below (arg 1 rfl)) fun xs parts =>
      Host.call_handles sane proper code useless (List.forall_mem_cons.2 ⟨arg 0 rfl, parts⟩)
  · exact .stop rfl
  · rename_i raw left
    refine .handle sane (settleAll_handles sane below) fun xs u handled settled => newFn_handles ?_
    exact ⟨Datum.Below.mono handled.size code, settled⟩
  · refine Host.call_handles sane proper code.1 useless fun x listed => ?_
    rcases List.mem_append.1 listed with left | right
    · exact code.2 x left
    · exact below x right
  · exact .pure Datum.below_str
  · exact .pure code
  · rename_i this rest
    refine .handle sane (Host.read_handles sane _ this _) fun g u handled callee => ?_
    exact Host.call_handles handled.sane proper callee ((arg 0 rfl).mono handled.size) fun x listed =>
      (below x (List.mem_cons_of_mem _ listed)).mono handled.size
  · exact .stop rfl

theorem callDirectly_handles (proper : invoke.Proper) (sane : w.Sane) (v : Value) {args : List Value}
    (below : ∀ x ∈ args, x.Below w.heap.size) :
    Leaves .handling (callDirectly invoke v args) w fun a u => a.Below u.heap.size := by
  refine .bind_get ?_
  split
  · exact runFn_handles proper sane (sane.intact.fns _) below
  · split
    · rename_i found
      exact Host.impl_handles sane proper (sane.intact.hostFn? found).1.impl
        (Datum.below_obj.2 sane.intact.size_pos) below
    · exact .stop rfl

/-- The calls of the evaluator handle what is there, by induction on the levels of the stack. -/
theorem invokeAfter_proper (levels taken : Nat) : Invoker.Proper (invokeAfter levels taken) := by
  induction levels generalizing taken with
  | zero => exact fun w v xs _ _ _ => .stop rfl
  | succ levels ih =>
    intro w v xs sane callee below
    cases taken with
    | zero => exact .bind_get (callDirectly_handles (ih _) sane v below)
    | succ taken => exact ih taken w v xs sane callee below

/-! ## Runs -/

theorem answer_handles (s : Step) (v : Value) : Follows .handling (answer s v) := by
  have labels : Relabels .handling := fun _ _ sane =>
    .aside ⟨rfl, rfl, rfl, rfl, rfl⟩ sane sane.vars sane.frame sane.tables
  exact answer_follows labels s v

theorem afterFault_handled (sane : w.Sane) (s : Step) : Handled w (afterFault w s) := by
  unfold afterFault
  split
  · split
    · exact .refl sane
    · exact .aside ⟨rfl, rfl, rfl, rfl, rfl⟩ sane (sane.vars.insert Datum.below_undefined) sane.frame sane.tables
  · exact .refl sane

/-- A step of a run whose data refer to no object handles what is there, also when it stops midway. -/
theorem perform_handled (depth : Nat) (sane : w.Sane) {s : Step} (plain : s.Plain) :
    Handled w (perform depth w s).2 := by
  have clearing : Handled w { w with log := #[] } :=
    .aside ⟨rfl, rfl, rfl, rfl, rfl⟩ sane sane.vars sane.frame sane.tables
  have running : Leaves .handling (answerStep depth s) { w with log := #[] } fun _ _ => True :=
    .bind (evalStep_handles (invokeAfter_proper depth 0) clearing.sane s plain) fun v u _ _ => answer_handles s v u
  have run := clearing.trans (running.world clearing.sane)
  rcases ended : exec (answerStep depth s) { w with log := #[] } with ⟨result, after⟩
  rw [ended] at run
  have stopped : (answerStep depth s).run { w with log := #[] } = (result, after) := ended
  cases result with
  | ok _ =>
    have performed : (perform depth w s).2 = after := by
      unfold perform
      rw [stopped]
    rw [performed]
    exact run
  | error _ =>
    have performed : (perform depth w s).2 = afterFault after s := by
      unfold perform
      rw [stopped]
    rw [performed]
    exact run.trans (afterFault_handled run.sane s)

theorem worlds_handled (depth : Nat) (sane : w.Sane) {steps : List Step} (plain : ∀ s ∈ steps, s.Plain) :
    (worlds depth w steps).Pairwise Handled ∧ ∀ v ∈ worlds depth w steps, Handled w v := by
  induction steps generalizing w with
  | nil =>
    refine ⟨List.pairwise_singleton _ _, fun v here => ?_⟩
    rw [List.mem_singleton.1 here]
    exact .refl sane
  | cons s rest ih =>
    have first := perform_handled depth sane (plain s List.mem_cons_self)
    obtain ⟨pairwise, reached⟩ := ih first.sane fun t listed => plain t (List.mem_cons_of_mem s listed)
    refine ⟨List.pairwise_cons.2 ⟨fun v here => first.trans (reached v here), pairwise⟩, fun v here => ?_⟩
    rcases List.mem_cons.1 here with rfl | later
    · exact .refl sane
    · exact first.trans (reached v later)

theorem setUp_handles (sane : w.Sane) (settings : Settings) : Leaves .handling (setUp settings) w fun _ _ => True := by
  have useless : (Datum.obj World.useless).Below w.heap.size := Datum.below_obj.2 sane.intact.size_pos
  refine .handle sane (define_handles _ useless) fun _ v₁ h₁ _ => ?_
  refine .handle h₁.sane (define_handles _ Datum.below_fn) fun _ v₂ h₂ _ => ?_
  refine .handle h₂.sane (define_handles _ Datum.below_fn) fun _ v₃ h₃ _ => ?_
  refine .handle h₃.sane (Host.make_handles h₃.sane) fun h v₄ h₄ _ => ?_
  refine .handle h₄.sane (defineHost_handles h₄.sane _ h) fun _ v₅ h₅ _ => .bind_get ?_
  have top := h₅.sane.intact.roots h (v₅.host h).objectPrototype (by simp [Host.roots])
  refine .handle h₅.sane (begetFrom_handles (Datum.below_obj.2 top)) fun outers v₆ h₆ there => ?_
  refine .handle h₆.sane (define_handles _ (Datum.below_obj.2 there)) fun _ v₇ h₇ _ => ?_
  refine .ask handling_free Yields.any fun config _ => ?_
  refine .handle h₇.sane (Plugin.make_handles h₇.sane h config (Datum.below_obj.2 (Nat.lt_of_lt_of_le there h₇.size)))
    fun p v₈ h₈ _ => ?_
  exact definePlugin_handles h₈.sane _ p

/-- The world in which the first step of a script runs comes about by effects that are given values of their worlds. -/
theorem start_handled {settings : Settings} {logging : Bool} {w : World} (started : start settings logging = .ok w) :
    Handled World.initial w := by
  have sane : World.initial.Sane :=
    ⟨World.initial_intact False, fun _ none => (nomatch none), fun _ none => (nomatch none), fun _ _ none => (nomatch none)⟩
  have waking : Handled World.initial { World.initial with logging := logging } :=
    .aside ⟨rfl, rfl, rfl, rfl, rfl⟩ sane sane.vars sane.frame sane.tables
  have making := (setUp_handles waking.sane settings).world waking.sane
  unfold start at started
  split at started
  · rename_i v ended
    have same : exec (setUp settings) { World.initial with logging := logging } = (.ok (), v) := ended
    rw [same] at making
    cases started
    exact waking.trans making
  · cases started

end Overlay.Script
