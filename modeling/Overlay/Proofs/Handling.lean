import Overlay.Proofs.Keeping
import Overlay.Proofs.Running

/-!
# Operations handle what is there

A script knows objects by its variables and by what operations answer; it cannot name one that is still to be made. So
in a `Sane` world, where also the variables, frames and tables of the script hold values of the world, every effect that
an operation of a host or a plugin does is given values of its world, and the world it leaves is sane. The statements
hold for any way of calling that handles what is there.
-/

namespace Overlay
set_option autoImplicit false

open Act World

/-- Every object that some bindings refer to stands before position `n`. -/
def Bindings.Below (n : Nat) (b : Bindings) : Prop :=
  ∀ e ∈ b, e.2.Below n

theorem Bindings.Below.mono {n m : Nat} {b : Bindings} (below : b.Below m) (more : m ≤ n) : b.Below n :=
  fun e listed => (below e listed).mono more

theorem Bindings.Below.insert {n : Nat} {b : Bindings} {name : Text} {v : Value} (below : b.Below n) (value : v.Below n) :
    (b.insert name v).Below n := by
  intro e listed
  unfold Bindings.insert at listed
  split at listed
  · obtain ⟨e', here, rfl⟩ := List.mem_map.1 listed
    split
    · exact value
    · exact below e' here
  · rcases List.mem_append.1 listed with here | last
    · exact below e here
    · rw [List.mem_singleton.1 last]
      exact value

theorem Bindings.Below.find? {n : Nat} {b : Bindings} {name : Text} {v : Value} (below : b.Below n)
    (found : b.find? name = some v) : v.Below n := by
  unfold Bindings.find? at found
  induction b with
  | nil => cases found
  | cons e rest ih =>
    obtain ⟨k, x⟩ := e
    rw [List.lookup_cons] at found
    split at found
    · cases found
      exact below (k, v) List.mem_cons_self
    · exact ih (fun e listed => below e (List.mem_cons_of_mem _ listed)) found

namespace World

/-- The world is intact, and a script that runs in it holds nothing but values of it. -/
structure Sane (w : World) : Prop where
  intact : w.Intact False
  vars : w.vars.Below w.heap.size
  frame : ∀ b, w.frame = some b → b.Below w.heap.size
  tables : ∀ t : TableId, ∀ e ∈ (w.table t).entries, e.1.value.Below w.heap.size ∧ e.2.Below w.heap.size

/-- A run whose effects are all given values of their worlds leads to a sane world. -/
structure Handled (w v : World) : Prop where
  sane : v.Sane
  size : w.heap.size ≤ v.heap.size
  execution : ExecutionUnder (fun u d => d.Given False u) w v

variable {u v w : World}

theorem Handled.refl (sane : w.Sane) : Handled w w :=
  ⟨sane, Nat.le_refl _, .refl⟩

theorem Handled.trans (near : Handled u v) (far : Handled v w) : Handled u w :=
  ⟨far.sane, Nat.le_trans near.size far.size, Relation.ReflTransGen.trans near.execution far.execution⟩

/-- What an effect keeps, a sane world keeps. -/
theorem Sane.keep (sane : w.Sane) (kept : Kept False w v) : v.Sane := by
  refine ⟨kept.intact, ?_, fun b here => ?_, fun t e listed => ?_⟩
  · rw [kept.vars]
    exact sane.vars.mono kept.size
  · rw [kept.frame] at here
    exact (sane.frame b here).mono kept.size
  · have same : v.table t = w.table t := by rw [table, kept.tables, table]
    rw [same] at listed
    obtain ⟨name, value⟩ := sane.tables t e listed
    exact ⟨name.mono kept.size, value.mono kept.size⟩

/-- A script may hold other values of the world. -/
theorem Handled.aside (aside : Aside w v) (sane : w.Sane) (vars : v.vars.Below w.heap.size)
    (frame : ∀ b, v.frame = some b → b.Below w.heap.size)
    (tables : ∀ t : TableId, ∀ e ∈ (v.table t).entries, e.1.value.Below w.heap.size ∧ e.2.Below w.heap.size) :
    Handled w v := by
  refine ⟨⟨sane.intact.of_same aside.heap aside.fns aside.hosts aside.plugins, ?_, fun b here => ?_, fun t e listed => ?_⟩,
    ?_, .single (.aside aside)⟩
  · rw [aside.heap]; exact vars
  · rw [aside.heap]; exact frame b here
  · rw [aside.heap]; exact tables t e listed
  · exact Nat.le_of_eq (by rw [aside.heap])

end World

/-- A sane world stays sane, and the effects on the way are given values of their worlds. -/
def Regime.handling : Regime where
  step w v := w.Sane → Handled w v
  fault _ _ := True
  refl _ := Handled.refl
  trans near far sane := (near sane).trans (far (near sane).sane)
  back _ _ := trivial
  ordinary _ _ _ := trivial

/-- Called on values of a sane world, the way of calling handles what is there and answers a value of the world. -/
def Invoker.Proper (invoke : Invoker) : Prop :=
  ∀ w v xs, w.Sane → v.Below w.heap.size → (∀ x ∈ xs, x.Below w.heap.size) →
    Leaves .handling (invoke v xs) w fun a u => a.Below u.heap.size

namespace Act
variable {α β : Type} {w : World} {x : Act α} {f : α → Act β} {P : α → World → Prop} {Q : β → World → Prop}

/-- The rule of sequences in a sane world. -/
theorem Leaves.handle (sane : w.Sane) (first : Leaves .handling x w P)
    (next : ∀ a v, Handled w v → P a v → Leaves .handling (f a) v Q) : Leaves .handling (x >>= f) w Q :=
  .bind first fun a v step => next a v (step sane)

theorem handling_free (w : World) (e : Fault) : Regime.handling.fault w e :=
  trivial

/-- An effect that is given values of the world handles what is there. -/
theorem Leaves.effect (d : Effect) (run : (exec x w).2 = d.after w) (given : d.Given False w)
    (keeps : Leaves (.keeping False) x w P) : Leaves .handling x w P := by
  refine ⟨fun sane => ?_, keeps.value, fun _ _ => trivial⟩
  have kept := keeps.world sane.intact
  refine ⟨sane.keep kept, kept.size, ?_⟩
  rw [run]
  exact .single (.effect d given)

/-- What touches nothing but the log, marks and labels handles what is there. -/
theorem Leaves.handling_of_ok {a : α} {v : World} (run : exec x w = (.ok a, v)) (aside : Aside w v)
    (tables : v.tables = w.tables) (vars : v.vars = w.vars) (frame : v.frame = w.frame) (value : P a v) :
    Leaves .handling x w P := by
  refine .of_ok run (fun sane => .aside aside sane ?_ ?_ fun t => ?_) value
  · rw [vars]; exact sane.vars
  · rw [frame]; exact sane.frame
  · have same : v.table t = w.table t := by rw [table, tables, table]
    rw [same]; exact sane.tables t

theorem say_handles (line : World → Except Fault LogLine) : Leaves .handling (say line) w fun _ _ => True := by
  refine .bind_get ?_
  split
  · exact .ask handling_free Yields.any fun l _ => .handling_of_ok rfl ⟨rfl, rfl, rfl, rfl, rfl⟩ rfl rfl rfl trivial
  · exact .pure trivial

theorem newList_handles {items : List Value} (below : ∀ x ∈ items, x.Below w.heap.size) :
    Leaves .handling (newList items) w fun a u => a.Below u.heap.size :=
  .handling_of_ok rfl ⟨rfl, rfl, rfl, rfl, rfl⟩ rfl rfl rfl (Datum.below_list.2 below)

theorem newNan_handles : Leaves .handling newNan w fun a u => a.Below u.heap.size :=
  .handling_of_ok rfl ⟨rfl, rfl, rfl, rfl, rfl⟩ rfl rfl rfl Datum.below_nan

theorem settle_handles {v : Value} (below : v.Below w.heap.size) :
    Leaves .handling (settle v) w fun a u => a.Below u.heap.size := by
  unfold settle
  split
  · exact newList_handles (Datum.below_list.1 below)
  · exact .pure below

theorem settleAll_handles (sane : w.Sane) {items : List Value} (below : ∀ x ∈ items, x.Below w.heap.size) :
    Leaves .handling (items.mapM settle) w fun l u => ∀ a ∈ l, a.Below u.heap.size := by
  induction items generalizing w with
  | nil => exact .pure fun a none => nomatch none
  | cons x rest ih =>
    rw [List.mapM_cons]
    refine .handle sane (settle_handles (below x List.mem_cons_self)) fun a v handled here => ?_
    refine .handle handled.sane (ih handled.sane fun y listed =>
      (below y (List.mem_cons_of_mem x listed)).mono handled.size) fun l u handled' later => .pure ?_
    exact List.forall_mem_cons.2 ⟨here.mono handled'.size, later⟩

theorem newFn_handles {g : Fn} (below : g.Below w.heap.size) :
    Leaves .handling (newFn g) w fun a u => a.Below u.heap.size :=
  .effect (.newFn g) rfl below (newFn_keeps below)

theorem alloc_handles {proto : Value} {members : List (Name × Value)} (link : proto.Below w.heap.size)
    (below : MembersBelow w.heap.size members) :
    Leaves .handling (alloc { proto := proto, bag := .ofMembers members }) w fun i u => i < u.heap.size :=
  .effect (.newObject proto members) rfl ⟨link, below, False.elim⟩
    (alloc_keeps ⟨link, Bag.below_ofMembers below, fun _ none => (nomatch none), False.elim, False.elim⟩)

theorem begetFrom_handles {proto : Value} (link : proto.Below w.heap.size) :
    Leaves .handling (begetFrom proto) w fun i u => i < u.heap.size := by
  have none : MembersBelow w.heap.size [] := fun _ listed => nomatch listed
  exact alloc_handles link none

theorem putProperty_handles (o : ObjId) {name value : Value} (e : Bool) (named : name.Below w.heap.size)
    (below : value.Below w.heap.size) : Leaves .handling (putProperty o name value e) w fun _ _ => True :=
  .effect (.put o name value e) rfl ⟨named, below⟩ (putProperty_keeps o e named below)

theorem eraseProperty_handles (o : ObjId) {name : Value} (named : name.Below w.heap.size) :
    Leaves .handling (eraseProperty o name) w fun _ _ => True :=
  .effect (.erase o name) rfl named (eraseProperty_keeps o name)

theorem freeze_handles (o : ObjId) : Leaves .handling (freeze o) w fun _ _ => True :=
  .effect (.freeze o) rfl trivial (freeze_keeps o)

/-- Asking for a tag changes nothing. -/
theorem enforceTag_stays (v tag what : Value) : (exec (enforceTag v tag what) w).2 = w := by
  rw [enforceTag, exec_get_bind]
  dsimp only
  split
  · split
    · rfl
    · split
      · cases w.bare what <;> rfl
      · cases w.bare what <;> rfl
  · cases w.bare what with
    | error e => rfl
    | ok s => cases w.bare tag <;> rfl

theorem enforceTag_handles (v tag what : Value) : Leaves .handling (enforceTag v tag what) w fun _ u => u = w :=
  .of_still handling_free (enforceTag_stays v tag what) fun _ _ => rfl

end Act

/-! ## Hosts -/

namespace Host
variable {w : World} {invoke : Invoker}

theorem newFunction_handles (sane : w.Sane) {impl : Impl} {s : Signature} {proto prototype : Value}
    (code : impl.Below w.heap.size) (signed : s.Below w.heap.size) (below : proto.Below w.heap.size)
    (below' : prototype.Below w.heap.size) :
    Leaves .handling (newFunction impl s proto prototype) w fun i u => i < u.heap.size :=
  .effect (.newFunction impl s proto prototype) rfl ⟨code, signed, below, below', False.elim⟩
    (newFunction_keeps sane.intact code signed below below' False.elim)

theorem defineFunction_handles (sane : w.Sane) (h : HostId) {impl : Impl} {s : Signature}
    (code : impl.Below w.heap.size) (signed : s.Below w.heap.size) :
    Leaves .handling (defineFunction h impl s) w fun i u => i < u.heap.size :=
  .effect (.defineFunction h impl s) rfl ⟨code, signed⟩ (defineFunction_keeps sane.intact h code signed)

theorem defineConstructor_handles (sane : w.Sane) (h : HostId) {s : Signature} {init parent : Value}
    {methods statics : List (Name × Value)} (signed : s.Below w.heap.size) (begins : init.Below w.heap.size)
    (above : parent.Below w.heap.size) (below : MembersBelow w.heap.size methods)
    (below' : MembersBelow w.heap.size statics) :
    Leaves .handling (defineConstructor h s init parent methods statics) w fun i u => i < u.heap.size :=
  .effect (.defineConstructor h s init parent methods statics) rfl ⟨signed, begins, above, below, below'⟩
    (defineConstructor_keeps sane.intact h parent signed begins below below')

theorem make_handles (sane : w.Sane) : Leaves .handling make w fun _ _ => True :=
  .effect .makeHost rfl trivial (make_keeps sane.intact)

theorem registerPrimitive_handles (h : HostId) (kind : Primitive) {ctor : Value} (below : ctor.Below w.heap.size) :
    Leaves .handling (registerPrimitive h kind ctor) w fun _ _ => True :=
  .effect (.registerPrimitive h kind ctor) rfl below (registerPrimitive_keeps h kind below)

theorem has_handles (h : HostId) (v name : Value) : Leaves .handling (has h v name) w fun _ u => u = w := by
  refine .bind_get (.ask handling_free Yields.any fun _ _ => ?_)
  exact .ask handling_free Yields.any fun _ _ => .pure rfl

theorem read_handles (sane : w.Sane) (h : HostId) (v name : Value) :
    Leaves .handling (read h v name) w fun a u => a.Below u.heap.size := by
  refine .bind_get (.ask handling_free Yields.any fun _ _ => ?_)
  refine .ask handling_free (sane.intact.searchFrom h v name) fun found below => .pure ?_
  cases found with
  | none => exact Datum.below_undefined
  | some x => exact below x rfl

theorem put_handles (sane : w.Sane) (v : Value) {name x : Value} (named : name.Below w.heap.size)
    (below : x.Below w.heap.size) : Leaves .handling (put v name x) w fun a u => a.Below u.heap.size := by
  refine .bind_get (.ask handling_free Yields.any fun _ _ => ?_)
  split
  · exact .handle sane (putProperty_handles _ true named below) fun _ u handled _ => .pure (below.mono handled.size)
  · exact .ask handling_free Yields.any fun _ _ => .stop rfl

theorem delete_handles (v : Value) {name : Value} (named : name.Below w.heap.size) :
    Leaves .handling (delete v name) w fun _ _ => True := by
  refine .bind_get (.ask handling_free Yields.any fun _ _ => ?_)
  split
  · exact eraseProperty_handles _ named
  · exact .pure trivial

theorem beget_handles {proto : Value} (link : proto.Below w.heap.size) :
    Leaves .handling (beget proto) w fun i u => i < u.heap.size :=
  .bind_get (.ask handling_free Yields.any fun _ _ => begetFrom_handles link)

theorem freeze_handles (sane : w.Sane) {v : Value} (below : v.Below w.heap.size) :
    Leaves .handling (freeze v) w fun a u => a.Below u.heap.size := by
  unfold freeze
  split
  · exact .handle sane (Act.freeze_handles _) fun _ u handled _ => .pure (below.mono handled.size)
  · exact .stop rfl
  · exact .stop rfl

theorem sourceText_handles (sane : w.Sane) (v : Value) :
    Leaves .handling (sourceText v) w fun a u => a.Below u.heap.size := by
  refine .bind_get ?_
  have source := sane.intact.source v
  split
  · exact .bind (say_handles _) fun _ _ _ _ => .pure Datum.below_null
  · exact .pure source

theorem impl_handles (sane : w.Sane) (proper : invoke.Proper) {impl : Impl} {this : Value} {args : List Value}
    (code : impl.Below w.heap.size) (receiver : this.Below w.heap.size) (below : ∀ x ∈ args, x.Below w.heap.size) :
    Leaves .handling (impl.run invoke this args) w fun a u => a.Below u.heap.size := by
  unfold Impl.run
  split
  · exact proper w _ _ sane code (List.forall_mem_cons.2 ⟨receiver, below⟩)
  · split
    · exact .pure (below _ List.mem_cons_self)
    · split
      · exact .bind (begetFrom_handles (Datum.below_obj.2 code)) fun _ _ _ made => .pure (Datum.below_obj.2 made)
      · exact .pure Datum.below_null
    · exact .pure Datum.below_null
  · exact .stop rfl
  · split
    · exact .pure Datum.below_str
    · exact .stop rfl
  · split
    · exact .pure receiver
    · exact .stop rfl
  · split
    · exact .bind_get (.ask handling_free Yields.any fun _ _ => .pure Datum.below_bool)
    · exact .stop rfl
  · exact .pure Datum.below_null

theorem call_handles (sane : w.Sane) (proper : invoke.Proper) {f this : Value} {args : List Value}
    (callee : f.Below w.heap.size) (receiver : this.Below w.heap.size) (below : ∀ x ∈ args, x.Below w.heap.size) :
    Leaves .handling (call invoke f this args) w fun a u => a.Below u.heap.size := by
  refine .bind (enforceCallable_stays f _) fun _ u _ ⟨same, _⟩ => .bind_get ?_
  subst same
  split
  · rename_i found
    exact impl_handles sane proper (sane.intact.hostFn? found).1.impl receiver below
  · exact proper _ f args sane callee below

theorem spread_below {n : Nat} {args : Value} (below : args.Below n) :
    Yields (fun l => ∀ x ∈ l, x.Below n) (spread args) := by
  unfold spread
  split
  · rename_i parts falls
    exact .ok (below.parts falls)
  · exact .error _

theorem callSpread_handles (sane : w.Sane) (proper : invoke.Proper) {f this args : Value}
    (callee : f.Below w.heap.size) (receiver : this.Below w.heap.size) (below : args.Below w.heap.size) :
    Leaves .handling (callSpread invoke f this args) w fun a u => a.Below u.heap.size := by
  refine .bind (enforceCallable_stays f _) fun _ u _ ⟨same, _⟩ => ?_
  subst same
  exact .ask handling_free (spread_below below) fun xs parts => call_handles sane proper callee receiver parts

theorem constructed_below {v : World} {made : ObjId} {answer : Value} (there : made < w.heap.size)
    (below : answer.Below w.heap.size) : (constructed v made answer).Below w.heap.size := by
  unfold constructed
  split
  · exact below
  · split
    · exact below
    · exact Datum.below_obj.2 there

theorem construct_handles (sane : w.Sane) (proper : invoke.Proper) {ctor args : Value} (below : args.Below w.heap.size) :
    Leaves .handling (construct invoke ctor args) w fun a u => a.Below u.heap.size := by
  refine .bind (enforceCallable_stays ctor _) fun _ u _ ⟨same, _⟩ => .bind_get ?_
  subst same
  split
  · exact .ask handling_free Yields.any fun _ _ => .stop rfl
  · exact .ask handling_free Yields.any fun _ _ => .stop rfl
  · rename_i found _
    have code := (sane.intact.hostFn? found).1.impl
    refine .handle sane (begetFrom_handles (sane.intact.prototypeMember ctor)) fun made v handled there => ?_
    refine .ask handling_free (spread_below below) fun xs parts => ?_
    refine .handle handled.sane (impl_handles handled.sane proper (code.mono handled.size) (Datum.below_obj.2 there)
      fun x listed => (parts x listed).mono handled.size) fun answer t handled' here => .bind_get ?_
    exact .pure (constructed_below (Nat.lt_of_lt_of_le there handled'.size) here)

end Host

/-! ## Plugins -/

namespace Plugin
variable {w : World} {invoke : Invoker}

theorem make_handles (sane : w.Sane) (h : HostId) (config : Config) {outers : Value}
    (below : outers.Below w.heap.size) : Leaves .handling (make h config outers) w fun _ _ => True :=
  .effect (.makePlugin h config outers) rfl below (make_keeps sane.intact h config below)

theorem shadowOf_handles (sane : w.Sane) (p : PluginId) {f : Value} (below : f.Below w.heap.size) :
    Leaves .handling (shadowOf p f) w fun s u => s < u.heap.size :=
  .effect (.shadowOf p f) rfl below (shadowOf_keeps sane.intact p f)

theorem emulate_handles (sane : w.Sane) (p : PluginId) {raw name : Value} (called : raw.Below w.heap.size)
    (below : name.Below w.heap.size) : Leaves .handling (emulate p raw name) w fun a u => a.Below u.heap.size :=
  .effect (.emulate p raw name) rfl ⟨called, below⟩ (emulate_keeps sane.intact p raw below)

theorem forwarder_handles (sane : w.Sane) (p : PluginId) {name : Value} (below : name.Below w.heap.size) :
    Leaves .handling (forwarder p name) w fun a u => a.Below u.heap.size :=
  .effect (.forwarder p name) rfl below (forwarder_keeps sane.intact p below)

theorem lookup_handles (sane : w.Sane) (o : ObjId) (k : Key) :
    Leaves .handling (liftM (w.heap.lookup o k)) w fun a u => a.Below u.heap.size :=
  .of_still handling_free rfl fun a ended => sane.intact.lookup o k a ended

theorem pseudoPrototype_handles (sane : w.Sane) (p : PluginId) {f : Value} (below : f.Below w.heap.size) :
    Leaves .handling (pseudoPrototype p f) w fun a u => a.Below u.heap.size := by
  refine .bind_get ?_
  split
  · exact .handle sane (shadowOf_handles sane p below) fun s u handled _ => .bind_get (lookup_handles handled.sane s _)
  · split
    · exact .bind_get (lookup_handles sane _ _)
    · exact .pure Datum.below_undefined

theorem supplementOf_handles (sane : w.Sane) (p : PluginId) {v : Value} (below : v.Below w.heap.size) :
    Leaves .handling (supplementOf p v) w fun a u => a.Below u.heap.size := by
  refine .bind_get ?_
  split
  · exact .bind (shadowOf_handles sane p below) fun s _ _ there => .pure (Datum.below_obj.2 there)
  · exact .ask handling_free (sane.intact.directConstructor _ v) fun ctor here => pseudoPrototype_handles sane p here

theorem instanceOf_handles (sane : w.Sane) (p : PluginId) (v : Value) {f : Value} (below : f.Below w.heap.size) :
    Leaves .handling (instanceOf p v f) w fun _ _ => True := by
  refine .bind_get (.ask handling_free Yields.any fun really _ => ?_)
  split
  · exact .pure trivial
  · exact .handle sane (pseudoPrototype_handles sane p below) fun proto u handled _ =>
      .bind_get (.of_still handling_free rfl fun _ _ => trivial)

theorem read_handles (sane : w.Sane) (p : PluginId) {v : Value} (name : Value) (below : v.Below w.heap.size) :
    Leaves .handling (read p v name) w fun a u => a.Below u.heap.size := by
  refine .bind_get ?_
  dsimp only
  split
  · refine .handle sane (shadowOf_handles sane p below) fun s u handled _ => .bind_get ?_
    exact .ask handling_free Yields.any fun k _ => lookup_handles handled.sane s k
  · refine .bind (Host.has_handles _ v name) fun found u _ same => ?_
    subst same
    split
    · exact Host.read_handles sane _ v name
    · refine .ask handling_free (sane.intact.directConstructor _ v) fun ctor here => ?_
      refine .handle sane (pseudoPrototype_handles sane p here) fun stepParent t handled _ => .bind_get ?_
      refine .ask handling_free (handled.sane.intact.supplied _ stepParent name) fun answer supplied => ?_
      split
      · exact .pure (supplied _ rfl)
      · exact Host.read_handles handled.sane _ v name

theorem write_handles (sane : w.Sane) (p : PluginId) {v name x : Value} (below : v.Below w.heap.size)
    (named : name.Below w.heap.size) (value : x.Below w.heap.size) :
    Leaves .handling (write p v name x) w fun a u => a.Below u.heap.size := by
  refine .bind_get ?_
  split
  · refine .handle sane (shadowOf_handles sane p below) fun s u handled _ => ?_
    have putting := putProperty_handles s true (named.mono handled.size) (value.mono handled.size)
    exact .handle handled.sane putting fun _ t handled' _ => .pure (value.mono (handled.trans handled').size)
  · exact Host.put_handles sane v named value

theorem remove_handles (sane : w.Sane) (p : PluginId) {v name : Value} (below : v.Below w.heap.size)
    (named : name.Below w.heap.size) : Leaves .handling (remove p v name) w fun _ _ => True := by
  refine .bind_get ?_
  split
  · exact .handle sane (shadowOf_handles sane p below) fun s u handled _ =>
      eraseProperty_handles s (named.mono handled.size)
  · exact Host.delete_handles v named

/-- Which names are supplied is asked without a change, and only names that were given are answered. -/
theorem suppliedKeys_handles (p : PluginId) (v : Value) {names : List Name}
    (below : ∀ m ∈ names, m.value.Below w.heap.size) :
    Leaves .handling (suppliedKeys p v names) w fun l u => ∀ m ∈ l, m.value.Below u.heap.size := by
  refine .bind_get ?_
  dsimp only
  have loop (items kept : List Name) (items_in : ∀ m ∈ items, m.value.Below w.heap.size)
      (kept_in : ∀ m ∈ kept, m.value.Below w.heap.size) :
      Leaves .handling (List.filterAuxM (fun n => do
        return !(← Host.has (w.plugin p).host v n.value) && !(w.plugin p).config.isHiddenName n.key) items kept) w
        fun l u => u = w ∧ ∀ m ∈ l, m.value.Below w.heap.size := by
    induction items generalizing kept with
    | nil => exact .pure ⟨rfl, kept_in⟩
    | cons m rest ih =>
      have asking : Leaves .handling (do
          return !(← Host.has (w.plugin p).host v m.value) && !(w.plugin p).config.isHiddenName m.key) w
          fun (_ : Bool) u => u = w :=
        .bind (Host.has_handles _ v m.value) fun _ _ _ same => .pure same
      refine .bind asking fun keep u _ same => ?_
      subst same
      refine ih _ (fun n listed => items_in n (List.mem_cons_of_mem m listed)) ?_
      cases keep with
      | true => exact List.forall_mem_cons.2 ⟨items_in m List.mem_cons_self, kept_in⟩
      | false => exact kept_in
  refine .bind (loop names [] below fun m none => nomatch none) fun l u _ ⟨same, here⟩ => ?_
  subst same
  exact .pure fun m listed => here m (List.mem_reverse.1 listed)

theorem keys_handles (sane : w.Sane) (p : PluginId) {v : Value} (below : v.Below w.heap.size) :
    Leaves .handling (keys p v) w fun l u => ∀ m ∈ l, m.value.Below u.heap.size := by
  refine .bind_get (.ask handling_free (sane.intact.enumerableNames _ v) fun own own_in => ?_)
  refine .handle sane (supplementOf_handles sane p below) fun supplement u handled _ => ?_
  have own_in' : ∀ m ∈ own, m.value.Below u.heap.size := fun m listed => (own_in m listed).mono handled.size
  split
  · refine .bind_get (.ask handling_free (handled.sane.intact.enumerableKeys _) fun names names_in => ?_)
    refine .handle handled.sane (suppliedKeys_handles p v names_in) fun more t handled' more_in => .pure fun m listed => ?_
    rcases List.mem_append.1 listed with first | later
    · exact (own_in' m first).mono handled'.size
    · exact more_in m later
  · exact .pure own_in'

theorem canRead_handles (sane : w.Sane) (p : PluginId) (name : Value) {v : Value} (below : v.Below w.heap.size) :
    Leaves .handling (canRead p name v) w fun _ _ => True := by
  refine .bind_get (.bind (Host.has_handles _ v name) fun found u _ same => ?_)
  subst same
  split
  · exact .pure trivial
  · refine .handle sane (supplementOf_handles sane p below) fun supplement u handled _ => ?_
    split
    · exact .bind_get (.ask handling_free Yields.any fun _ _ => .of_still handling_free rfl fun _ _ => trivial)
    · exact .pure trivial

theorem refuseCall_handles (p : PluginId) (f : Value) :
    Leaves .handling (refuseCall p f) w fun a u => a.Below u.heap.size :=
  .bind_get (.ask handling_free Yields.any fun _ _ => .ask handling_free Yields.any fun _ _ => .stop rfl)

theorem apply_handles (sane : w.Sane) (proper : invoke.Proper) (p : PluginId) {f this args : Value}
    (callee : f.Below w.heap.size) (receiver : this.Below w.heap.size) (below : args.Below w.heap.size) :
    Leaves .handling (apply invoke p f this args) w fun a u => a.Below u.heap.size := by
  refine .bind_get ?_
  split
  · exact Host.callSpread_handles sane proper callee receiver below
  · split
    · refine .ask handling_free (sane.intact.lookup _ _) fun applier here => ?_
      split
      · refine .ask handling_free (Host.spread_below below) fun xs parts => ?_
        refine Host.call_handles sane proper here callee ?_
        simp only [List.forall_mem_cons, Datum.below_list]
        exact ⟨receiver, parts, List.forall_mem_nil _⟩
      · exact refuseCall_handles p _
    · exact refuseCall_handles p f

theorem callFunction_handles (sane : w.Sane) (proper : invoke.Proper) (p : PluginId) {f args : Value}
    (callee : f.Below w.heap.size) (below : args.Below w.heap.size) :
    Leaves .handling (callFunction invoke p f args) w fun a u => a.Below u.heap.size :=
  apply_handles sane proper p callee (Datum.below_obj.2 sane.intact.size_pos) below

theorem callMethod_handles (sane : w.Sane) (proper : invoke.Proper) (p : PluginId) {v args : Value} (name : Value)
    (receiver : v.Below w.heap.size) (below : args.Below w.heap.size) :
    Leaves .handling (callMethod invoke p v name args) w fun a u => a.Below u.heap.size := by
  refine .handle sane (read_handles sane p name receiver) fun f u handled here => ?_
  split
  · exact .bind_get (.ask handling_free Yields.any fun _ _ => .stop rfl)
  · exact apply_handles handled.sane proper p here (receiver.mono handled.size) (below.mono handled.size)

theorem construct_handles (sane : w.Sane) (proper : invoke.Proper) (p : PluginId) {ctor args : Value}
    (callee : ctor.Below w.heap.size) (below : args.Below w.heap.size) :
    Leaves .handling (construct invoke p ctor args) w fun a u => a.Below u.heap.size := by
  refine .bind_get ?_
  split
  · exact Host.construct_handles sane proper below
  · refine .handle sane (Host.read_handles sane _ ctor _) fun prototype u handled here => ?_
    dsimp only
    have making (proto : ObjId) (there : proto < u.heap.size) : Leaves .handling (do
        let made ← Act.begetFrom (.obj proto)
        let answer ← apply invoke p ctor (.obj made) args
        return Host.constructed (← get) made answer) u fun a t => a.Below t.heap.size := by
      refine .handle handled.sane (begetFrom_handles (Datum.below_obj.2 there)) fun made v handled' made_in => ?_
      have grown := (handled.trans handled').size
      refine .handle handled'.sane (apply_handles handled'.sane proper p (callee.mono grown) (Datum.below_obj.2 made_in)
        (below.mono grown)) fun answer t handled'' answer_in => .bind_get ?_
      exact .pure (Host.constructed_below (Nat.lt_of_lt_of_le made_in handled''.size) answer_in)
    split
    · exact making _ (Datum.below_obj.1 here)
    · exact making _ (Nat.lt_of_lt_of_le (Emulation.inside_roots sane.intact p).1 handled.size)

theorem getOuters_handles (sane : w.Sane) (p : PluginId) :
    Leaves .handling (getOuters p) w fun a u => a.Below u.heap.size := by
  refine .bind_get (.bind (enforceTag_handles _ _ _) fun _ u _ same => .pure ?_)
  rw [same]
  exact sane.intact.outers p

theorem readOuter_handles (sane : w.Sane) (p : PluginId) (name : Value) :
    Leaves .handling (readOuter p name) w fun a u => a.Below u.heap.size := by
  have outers := sane.intact.outers p
  refine .bind_get (.handle sane (canRead_handles sane p name outers) fun found u handled _ => ?_)
  split
  · exact read_handles handled.sane p name (outers.mono handled.size)
  · exact .bind_get (.ask handling_free Yields.any fun _ _ => .of_error rfl (Regime.refl _ u) trivial)

theorem setOuter_handles (sane : w.Sane) (p : PluginId) {name x : Value} (named : name.Below w.heap.size)
    (below : x.Below w.heap.size) : Leaves .handling (setOuter p name x) w fun a u => a.Below u.heap.size :=
  .bind_get (Host.put_handles sane _ named below)

theorem initOuter_handles (sane : w.Sane) (p : PluginId) {name : Value} (named : name.Below w.heap.size) :
    Leaves .handling (initOuter p name) w fun _ _ => True := by
  have outers := sane.intact.outers p
  refine .bind_get (.handle sane (canRead_handles sane p name outers) fun found u handled _ => ?_)
  split
  · exact .pure trivial
  · exact .bind (write_handles handled.sane p (outers.mono handled.size) (named.mono handled.size) Datum.below_undefined)
      fun _ _ _ _ => .pure trivial

end Plugin

end Overlay
