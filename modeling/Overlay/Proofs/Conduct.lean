import Overlay.Proofs.Execution
import Overlay.Script.Operation

/-!
# The operations of the library are executions

Every operation of hosts and plugins is made of effects and of calls, so it keeps to executions when the callables
it calls do. The statements hold for any way of calling and for any faults that callables may stop with: what an
operation of a plugin adds of its own is never the report that something was registered twice.
-/

namespace Overlay
set_option autoImplicit false

open Act World

variable {T : Tolerance} {invoke : Invoker}

/-! ## Hosts -/

namespace Host

theorem has_execution (h : HostId) (v name : Value) : Follows (.execution T) (has h v name) :=
  .look fun w => .bind (.lift (checkBase_noReport w v name .read)) fun _ =>
    .bind (.lift (search_noReport w h v name)) fun _ => .pure _

theorem read_execution (h : HostId) (v name : Value) : Follows (.execution T) (read h v name) :=
  .look fun w => .bind (.lift (checkBase_noReport w v name .read)) fun _ =>
    .bind (.lift (search_noReport w h v name)) fun _ => .pure _

theorem put_execution (v name x : Value) : Follows (.execution T) (put v name x) := by
  refine .look fun w => .bind (.lift (checkBase_noReport w v name .set)) fun _ => ?_
  split
  · exact .bind (putProperty_execution _ name x true) fun _ => .pure _
  · exact .bind (.lift (bare_noReport w name)) fun _ => .stop rfl

theorem delete_execution (v name : Value) : Follows (.execution T) (delete v name) := by
  refine .look fun w => .bind (.lift (checkBase_noReport w v name .delete)) fun _ => ?_
  split
  · exact eraseProperty_execution _ name
  · exact .pure _

theorem beget_execution (proto : Value) : Follows (.execution T) (beget proto) :=
  .look fun w => .bind (.lift (checkPrototype_noReport w proto)) fun _ => begetFrom_execution proto

theorem freeze_execution (v : Value) : Follows (.execution T) (freeze v) := by
  unfold freeze
  split
  · exact .bind (Act.freeze_execution _) fun _ => .pure _
  · exact .stop rfl
  · exact .stop rfl

theorem enforceCallable_execution (v : Value) (what : Text) : Follows (.execution T) (Act.enforceCallable v what) :=
  (enforceTag_follows v (.str TypeTag.function.word) (.str what)).execution

theorem impl_execution (steady : ∀ v xs, Follows (.execution T) (invoke v xs)) (impl : Impl) (this : Value)
    (args : List Value) : Follows (.execution T) (impl.run invoke this args) := by
  unfold Impl.run
  split
  · exact steady _ _
  · split
    · exact .pure _
    · split
      · exact .bind (begetFrom_execution _) fun _ => .pure _
      · exact .pure _
    · exact .pure _
  · exact .stop rfl
  · split
    · exact .pure _
    · exact .stop rfl
  · split
    · exact .pure _
    · exact .stop rfl
  · split
    · exact .look fun w => .bind (.lift (hasOwn_noReport w this _)) fun _ => .pure _
    · exact .stop rfl
  · exact .pure _

theorem call_execution (steady : ∀ v xs, Follows (.execution T) (invoke v xs)) (f this : Value) (args : List Value) :
    Follows (.execution T) (call invoke f this args) := by
  refine .bind (enforceCallable_execution f _) fun _ => .look fun w => ?_
  split
  · exact impl_execution steady _ this args
  · exact steady f args

theorem callSpread_execution (steady : ∀ v xs, Follows (.execution T) (invoke v xs)) (f this args : Value) :
    Follows (.execution T) (callSpread invoke f this args) :=
  .bind (enforceCallable_execution f _) fun _ => .bind (.lift (spread_noReport args)) fun _ =>
    call_execution steady f this _

theorem construct_execution (steady : ∀ v xs, Follows (.execution T) (invoke v xs)) (ctor args : Value) :
    Follows (.execution T) (construct invoke ctor args) := by
  refine .bind (enforceCallable_execution ctor _) fun _ => .look fun w => ?_
  split
  · exact .bind (.lift (describe_noReport w ctor)) fun _ => .stop rfl
  · exact .bind (.lift (describe_noReport w ctor)) fun _ => .stop rfl
  · exact .bind (begetFrom_execution _) fun made => .bind (.lift (spread_noReport args)) fun _ =>
      .bind (impl_execution steady _ _ _) fun _ => .look fun _ => .pure _

end Host

/-! ## Plugins -/

namespace Plugin

theorem pseudoPrototype_execution (p : PluginId) (f : Value) : Follows (.execution T) (pseudoPrototype p f) := by
  refine .look fun w => ?_
  split
  · exact .bind (shadowOf_execution p f) fun s => .look fun w => .lift (Heap.lookup_noReport _ _ _)
  · split
    · exact .look fun w => .lift (Heap.lookup_noReport _ _ _)
    · exact .pure _

theorem supplementOf_execution (p : PluginId) (v : Value) : Follows (.execution T) (supplementOf p v) := by
  refine .look fun w => ?_
  split
  · exact .bind (shadowOf_execution p v) fun _ => .pure _
  · exact .bind (.lift (Host.directConstructor_noReport w _ v)) fun _ => pseudoPrototype_execution p _

theorem instanceOf_execution (p : PluginId) (v f : Value) : Follows (.execution T) (instanceOf p v f) := by
  refine .look fun w => ?_
  refine .bind (.lift (Host.inheritsFrom_noReport w _ v _)) fun really => ?_
  split
  · exact .pure _
  · exact .bind (pseudoPrototype_execution p f) fun proto => .look fun w =>
      .lift (Host.inheritsFrom_noReport w _ v proto)

theorem read_execution (p : PluginId) (v name : Value) : Follows (.execution T) (read p v name) := by
  refine .look fun w => ?_
  dsimp only
  split
  · exact .bind (shadowOf_execution p v) fun s => .look fun w => .bind (.lift (Key.ofValue_noReport name)) fun _ =>
      .lift (Heap.lookup_noReport _ _ _)
  · refine .bind (Host.has_execution _ v name) fun found => ?_
    split
    · exact Host.read_execution _ v name
    · refine .bind (.lift (Host.directConstructor_noReport w _ v)) fun _ =>
        .bind (pseudoPrototype_execution p _) fun stepParent => .look fun w =>
          .bind (.lift (supplied_noReport w stepParent _ name)) fun answer => ?_
      split
      · exact .pure _
      · exact Host.read_execution _ v name

theorem write_execution (p : PluginId) (v name x : Value) : Follows (.execution T) (write p v name x) := by
  refine .look fun w => ?_
  split
  · exact .bind (shadowOf_execution p v) fun s => .bind (putProperty_execution s name x true) fun _ => .pure _
  · exact Host.put_execution v name x

theorem remove_execution (p : PluginId) (v name : Value) : Follows (.execution T) (remove p v name) := by
  refine .look fun w => ?_
  split
  · exact .bind (shadowOf_execution p v) fun s => eraseProperty_execution s name
  · exact Host.delete_execution v name

theorem suppliedKeys_execution (p : PluginId) (v : Value) (names : List Name) :
    Follows (.execution T) (suppliedKeys p v names) :=
  .look fun _ => .filterM fun n => .bind (Host.has_execution _ v n.value) fun _ => .pure _

theorem keys_execution (p : PluginId) (v : Value) : Follows (.execution T) (keys p v) := by
  refine .look fun w => .bind (.lift (Host.enumerableKeys_noReport w _ v)) fun own =>
    .bind (supplementOf_execution p v) fun supplement => ?_
  split
  · exact .look fun w => .bind (.lift (Heap.enumerableKeys_noReport _ _)) fun names =>
      .bind (suppliedKeys_execution p v names) fun _ => .pure _
  · exact .pure _

theorem canRead_execution (p : PluginId) (name v : Value) : Follows (.execution T) (canRead p name v) := by
  refine .look fun w => .bind (Host.has_execution _ v name) fun found => ?_
  split
  · exact .pure _
  · refine .bind (supplementOf_execution p v) fun supplement => ?_
    split
    · exact .look fun w => .bind (.lift (Key.ofValue_noReport name)) fun _ => .lift (Heap.has_noReport _ _ _)
    · exact .pure _

theorem refuseCall_execution (p : PluginId) (f : Value) : Follows (.execution T) (refuseCall p f) :=
  .look fun w => .bind (.lift (describe_noReport w f)) fun _ => .bind (.lift (typeOf_noReport w p f)) fun _ =>
    .stop rfl

theorem apply_execution (steady : ∀ v xs, Follows (.execution T) (invoke v xs)) (p : PluginId) (f this args : Value) :
    Follows (.execution T) (apply invoke p f this args) := by
  refine .look fun w => ?_
  split
  · exact Host.callSpread_execution steady f this args
  · split
    · refine .bind (.lift (Heap.lookup_noReport _ _ _)) fun applier => ?_
      split
      · exact .bind (.lift (Host.spread_noReport args)) fun _ => Host.call_execution steady applier _ _
      · exact refuseCall_execution p _
    · exact refuseCall_execution p f

theorem callMethod_execution (steady : ∀ v xs, Follows (.execution T) (invoke v xs)) (p : PluginId)
    (v name args : Value) :
    Follows (.execution T) (callMethod invoke p v name args) := by
  refine .bind (read_execution p v name) fun f => ?_
  split
  · exact .look fun w => .bind (.lift (describe_noReport w name)) fun _ => .stop rfl
  · exact apply_execution steady p f v args

theorem construct_execution (steady : ∀ v xs, Follows (.execution T) (invoke v xs)) (p : PluginId) (ctor args : Value) :
    Follows (.execution T) (construct invoke p ctor args) := by
  refine .look fun w => ?_
  split
  · exact Host.construct_execution steady ctor args
  · refine .bind (Host.read_execution _ ctor _) fun prototype => ?_
    dsimp only
    have making (proto : ObjId) : Follows (.execution T) (do
        let made ← Act.begetFrom (.obj proto)
        let answer ← apply invoke p ctor (.obj made) args
        return Host.constructed (← get) made answer) :=
      .bind (begetFrom_execution _) fun made => .bind (apply_execution steady p ctor _ args) fun answer =>
        .look fun _ => .pure _
    split
    · exact making _
    · exact making _

theorem getOuters_execution (p : PluginId) : Follows (.execution T) (getOuters p) :=
  .look fun _ => .bind (enforceTag_follows _ _ _).execution fun _ => .pure _

theorem readOuter_execution (p : PluginId) (name : Value) : Follows (.execution T) (readOuter p name) := by
  refine .look fun w => .bind (canRead_execution p name _) fun found => ?_
  split
  · exact read_execution p _ name
  · refine .look fun w => .bind (.lift (bare_noReport w name)) fun _ v => ?_
    exact .of_error rfl (Regime.refl _ v) fun _ => ⟨v, .refl, T.ordinary rfl⟩

theorem setOuter_execution (p : PluginId) (name x : Value) : Follows (.execution T) (setOuter p name x) :=
  .look fun _ => Host.put_execution _ name x

theorem initOuter_execution (p : PluginId) (name : Value) : Follows (.execution T) (initOuter p name) := by
  refine .look fun w => .bind (canRead_execution p name _) fun found => ?_
  split
  · exact .pure _
  · exact .bind (write_execution p _ name .undefined) fun _ => .pure _

end Plugin

namespace Script

theorem namesList_execution (names : List Name) : Follows (.execution T) (namesList names) :=
  (newList_follows _).execution

/-- An operation of a plugin keeps to executions when the callables it calls do. -/
theorem pluginOp_execution (steady : ∀ v xs, Follows (.execution T) (invoke v xs)) (p : PluginId) (op : PluginOp)
    (args : List Value) : Follows (.execution T) (op.run invoke p args) := by
  refine .look fun w => ?_
  dsimp only
  split
  · exact .bind (.lift (Plugin.typeOf_noReport w p _)) fun _ => .pure _
  · exact .bind (Plugin.instanceOf_execution p _ _) fun _ => .pure _
  · exact Plugin.read_execution p _ _
  · exact Plugin.write_execution p _ _ _
  · exact .bind (Plugin.remove_execution p _ _) fun _ => .pure _
  · exact .bind (Plugin.keys_execution p _) fun names => namesList_execution names
  · exact .bind (Plugin.canRead_execution p _ _) fun _ => .pure _
  · exact Plugin.apply_execution steady p _ _ _
  · exact Plugin.apply_execution steady p _ _ _
  · exact Plugin.apply_execution steady p _ _ _
  · exact Plugin.callMethod_execution steady p _ _ _
  · exact Plugin.callMethod_execution steady p _ _ _
  · exact Plugin.construct_execution steady p _ _
  · exact Plugin.construct_execution steady p _ _
  · exact Plugin.emulate_execution p _ _
  · exact Plugin.emulate_execution p _ _
  · exact Plugin.forwarder_execution p _
  · exact Plugin.getOuters_execution p
  · exact Plugin.readOuter_execution p _
  · exact Plugin.setOuter_execution p _ _
  · exact .bind (Plugin.initOuter_execution p _) fun _ => .pure _
  · exact .bind (Plugin.shadowOf_execution p _) fun _ => .pure _
  · exact Plugin.pseudoPrototype_execution p _
  · exact Plugin.supplementOf_execution p _
  · exact .pure _
  · exact (newList_follows _).execution
  · exact .stop rfl
  · exact .stop rfl

end Script

end Overlay
