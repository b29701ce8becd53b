import Overlay.Proofs.Conduct
import Overlay.Script.Transcript

/-!
# Scripts are executions

A script does nothing but effects of the library and things aside, however deeply its functions call each other and
wherever its steps stop. The evaluator is followed over the syntax of scripts, for any way of calling that keeps to
executions; that the calls of the evaluator do so is shown by induction on the levels of the stack. So every world of a
run is reachable.
-/

namespace Overlay.Script
set_option autoImplicit false

open Act World

variable {invoke : Invoker}

/-! ## Things aside -/

theorem define_follows (name : Text) (v : Value) : Follows .aside (define name v) := by
  refine .bind (fun w => .of_ok rfl ⟨rfl, rfl, rfl, rfl, rfl⟩ trivial) fun _ => ?_
  unfold offerLabel
  split
  · exact fun w => .of_ok rfl ⟨rfl, rfl, rfl, rfl, rfl⟩ trivial
  · exact fun w => .of_ok rfl ⟨rfl, rfl, rfl, rfl, rfl⟩ trivial
  · exact .pure _

theorem bind_follows (name : Text) (v : Value) : Follows .aside (bind name v) := by
  refine .look fun w => ?_
  split
  · exact fun w => .of_ok rfl ⟨rfl, rfl, rfl, rfl, rfl⟩ trivial
  · exact define_follows name v

theorem readVar_follows (name : Text) : Follows .aside (readVar name) := by
  refine .look fun w => ?_
  split
  · exact .pure _
  · exact .stop rfl

theorem readCommon_follows (name : Text) : Follows .aside (readCommon name) := by
  refine .look fun w => ?_
  split
  · exact .pure _
  · exact .stop rfl

theorem hostNamed_follows (name : Text) : Follows .aside (hostNamed name) := by
  refine .bind (readCommon_follows name) fun v => ?_
  split
  · exact .pure _
  · exact .stop rfl

theorem enterFrame_follows (params : List Param) (args : List Value) : Follows .aside (enterFrame params args) := by
  refine .bind (.mapM settle_follows) fun _ => ?_
  split
  · exact .mapM fun b => .bind (settle_follows b.2) fun _ => .pure _
  · exact .stop rfl

theorem defineHost_follows (name : Text) (h : HostId) : Follows .aside (defineHost name h) :=
  .look fun _ => .bind (define_follows _ _) fun _ => .bind (define_follows _ _) fun _ =>
    .bind (define_follows _ _) fun _ => .bind (define_follows _ _) fun _ => define_follows _ _

theorem definePlugin_follows (name : Text) (p : PluginId) : Follows .aside (definePlugin name p) :=
  .look fun _ => .bind (define_follows _ _) fun _ => .bind (define_follows _ _) fun _ =>
    .bind (define_follows _ _) fun _ => .bind (define_follows _ _) fun _ => define_follows _ _

theorem readNumeral_follows (text : Text) : Follows .aside (readNumeral text) := by
  unfold readNumeral
  split
  · exact .pure _
  · exact newNan_follows
  · exact .stop rfl

theorem categoryValue_follows (f : Value) : Follows .aside (categoryValue f) := by
  refine .look fun w => ?_
  split
  · exact .pure _
  · exact newList_follows _
  · exact .stop rfl

/-! ## Operations -/

theorem objectOp_execution (op : ObjectOp) (args : List Value) : Follows (.execution .all) (op.run args) := by
  refine .look fun w => ?_
  split
  · dsimp only
    split
    · exact .bind .any fun _ => .pure _
    · exact .bind .any fun _ => .pure _
    · exact .bind .any fun _ => .pure _
    · exact .bind .any fun _ => .bind .any fun _ => .pure _
    · exact .bind .any fun _ => .any
    · exact namesList_execution _
    · exact .bind .any fun _ => .pure _
    · exact .bind .any fun _ => namesList_execution _
    · exact .bind (putProperty_execution _ _ _ _) fun _ => .pure _
    · exact .bind (putProperty_execution _ _ _ _) fun _ => .pure _
    · exact .bind (eraseProperty_execution _ _) fun _ => .pure _
    · exact Host.freeze_execution _
    · exact .pure _
    · exact .pure _
    · exact .bind .any fun _ => (newList_follows _).execution
    · exact .bind .any fun _ => .pure _
    · exact .stop rfl
  · exact .stop rfl

theorem functionOp_execution (op : FunctionOp) (args : List Value) : Follows (.execution .all) (op.run args) := by
  unfold FunctionOp.run
  split
  · refine .look fun w => ?_
    dsimp only
    split
    · cases op <;> exact .pure _
    · exact .stop rfl
  · exact .stop rfl

theorem hostOp_execution (steady : ∀ v xs, Follows (.execution .all) (invoke v xs)) (h : HostId) (op : HostOp)
    (args : List Value) : Follows (.execution .all) (op.run invoke h args) := by
  refine .look fun w => ?_
  split
  · exact .bind (Host.beget_execution _) fun _ => .pure _
  · exact .bind .any fun _ => .bind .any fun _ => .bind (alloc_execution _ _) fun _ => .pure _
  · exact Host.freeze_execution _
  · exact .pure _
  · exact .bind (enforceTag_follows _ _ _).execution fun _ => .pure _
  · exact .bind (enforceTag_follows _ _ _).execution fun _ => .pure _
  · exact .pure _
  · exact .any
  · exact .bind .any fun _ => .pure _
  · exact .bind (Host.has_execution h _ _) fun _ => .pure _
  · exact Host.read_execution h _ _
  · exact Host.put_execution _ _ _
  · exact .bind (Host.delete_execution _ _) fun _ => .pure _
  · exact .bind .any fun _ => namesList_execution _
  · exact .bind .any fun _ => .pure _
  · exact .bind .any fun _ => .pure _
  · exact .bind .any fun _ => .pure _
  · exact .any
  · exact .bind (Host.enforceCallable_execution _ _) fun _ => (categoryValue_follows _).execution
  · exact .bind (Host.enforceCallable_execution _ _) fun _ => .any
  · exact .bind .any fun _ => namesList_execution _
  · exact .bind .any fun _ => namesList_execution _
  · exact .bind .any fun _ => namesList_execution _
  · exact .bind .any fun _ => namesList_execution _
  · exact Host.callSpread_execution steady _ _ _
  · exact Host.construct_execution steady _ _
  · exact .pure _
  · exact (Emulation.sourceText_follows _).execution
  · refine .bind .any fun _ => ?_
    split
    · exact .bind (Host.registerPrimitive_execution h _ _) fun _ => .pure _
    · exact .stop rfl
    · exact .stop rfl
  · exact .bind (Host.defineFunction_execution h _ _) fun _ => .pure _
  · exact .bind (Host.defineConstructor_execution h _ _ _ _ _) fun _ => .pure _
  · exact .bind (Host.defineConstructor_execution h _ _ _ _ _) fun _ => .pure _
  · exact .stop rfl

theorem tableOp_execution (op : TableOp) (args : List Value) : Follows (.execution .all) (op.run args) := by
  have tables {w : World} (t : Array (Registry Name Value)) : Execution w { w with tables := t } :=
    .single (.aside ⟨rfl, rfl, rfl, rfl, rfl⟩)
  refine .bind_get fun w => ?_
  split
  · exact .of_ok rfl (tables _) trivial
  · exact Follows.any w
  · dsimp only
    split
    · refine .bind_lift (Name.ofValue_noReport _) fun name _ => ?_
      split
      · exact .of_ok rfl (tables _) trivial
      · exact .bind (Follows.any w) fun _ v _ _ => .of_error rfl (Regime.refl _ v) (Regime.execution_all v _)
    · exact .bind_lift (Name.ofValue_noReport _) fun _ _ => .pure trivial
    · exact .bind_lift (Name.ofValue_noReport _) fun _ _ => .pure trivial
    · exact namesList_execution _ w
    · exact .stop rfl
  · split
    · exact .pure trivial
    · exact .bind_lift (Name.ofValue_noReport _) fun _ _ =>
        .bind (Follows.any w) fun _ _ _ _ => .pure trivial
  · exact .stop rfl
  · exact .stop rfl
  · exact .stop rfl

theorem hostOpOn_execution (steady : ∀ v xs, Follows (.execution .all) (invoke v xs)) (target : Value) (op : HostOp)
    (args : List Value) : Follows (.execution .all) (op.runOn invoke target args) := by
  unfold HostOp.runOn
  split
  · exact hostOp_execution steady _ op args
  · exact pluginOp_execution steady _ _ args
  · exact pluginOp_execution steady _ _ args
  · exact tableOp_execution _ _
  · refine .look fun w => ?_
    split
    · exact .stop rfl
    · exact .stop rfl
  · split
    · exact objectOp_execution _ _
    · exact .stop rfl
  · exact .stop rfl

theorem pluginOpOn_execution (steady : ∀ v xs, Follows (.execution .all) (invoke v xs)) (target : Value) (op : PluginOp)
    (args : List Value) : Follows (.execution .all) (op.runOn invoke target args) := by
  unfold PluginOp.runOn
  split
  · exact pluginOp_execution steady _ op args
  · exact hostOp_execution steady _ _ args
  · exact hostOp_execution steady _ _ args
  · exact .pure _
  · exact .pure _
  · exact .stop rfl

theorem operation_execution (steady : ∀ v xs, Follows (.execution .all) (invoke v xs)) (op : Operation)
    (args : List Value) : Follows (.execution .all) (op.run invoke args) := by
  unfold Operation.run
  split
  · exact .pure _
  · exact .pure _
  · exact .pure _
  · exact .pure _
  · exact .look fun w => .bind .any fun _ => .stop rfl
  · refine .look fun w => ?_
    split
    · exact steady _ _
    · exact .stop rfl
  · exact objectOp_execution _ _
  · exact functionOp_execution _ _
  · exact .bind (readCommon_follows _).execution fun target => hostOpOn_execution steady target _ _
  · exact .bind (readCommon_follows _).execution fun target => pluginOpOn_execution steady target _ _
  · exact tableOp_execution _ _
  · exact .stop rfl

/-! ## Steps -/

theorem nest_execution (times : Nat) (v : Value) : Follows (.execution .all) (nest times v) := by
  induction times generalizing v with
  | zero => exact .pure v
  | succ n ih => exact .bind (Host.beget_execution v) fun _ => ih _

theorem makePluginOn_execution (target outers : Value) (settings : Settings) :
    Follows (.execution .all) (makePluginOn target outers settings) := by
  unfold makePluginOn
  split
  · exact .bind .any fun config => Plugin.make_execution _ config outers
  · refine .look fun w => ?_
    split
    · exact .bind .any fun config => .bind (Plugin.warn_follows config).execution fun _ => .stop rfl
    · exact .bind Host.make_execution fun h => .bind .any fun config => Plugin.make_execution h config outers

theorem makePlugin_execution (name : Text) (outers : Value) (on : Option Text) (settings : Settings) :
    Follows (.execution .all) (makePlugin name outers on settings) := by
  unfold makePlugin
  split
  · exact .bind (readCommon_follows _).execution fun target =>
      .bind (makePluginOn_execution target outers settings) fun p =>
      (definePlugin_follows name p).execution
  · exact .bind (makePluginOn_execution .null outers settings) fun p => .look fun w =>
      .bind (defineHost_follows _ _).execution fun _ => (definePlugin_follows name p).execution

mutual

theorem evalExpr_execution (steady : ∀ v xs, Follows (.execution .all) (invoke v xs)) :
    (e : Expr) → Follows (.execution .all) (evalExpr invoke e)
  | .datum v => by rw [evalExpr]; exact .pure v
  | .numeral text => by rw [evalExpr]; exact (readNumeral_follows text).execution
  | .list items => by
    rw [evalExpr]
    exact .bind (evalExprs_execution steady items) fun _ => (newList_follows _).execution
  | .var name => by rw [evalExpr]; exact (readVar_follows name).execution
  | .step s => by rw [evalExpr]; exact evalStep_execution steady s
  | .refused f => by
    rw [evalExpr]
    exact fun w => .of_error rfl (Regime.refl _ w) (Regime.execution_all w f)

theorem evalExprs_execution (steady : ∀ v xs, Follows (.execution .all) (invoke v xs)) :
    (es : List Expr) → Follows (.execution .all) (evalExprs invoke es)
  | [] => by rw [evalExprs]; exact .pure []
  | e :: rest => by
    rw [evalExprs]
    exact .bind (evalExpr_execution steady e) fun _ => .bind (evalExprs_execution steady rest) fun _ => .pure _

theorem evalMembers_execution (steady : ∀ v xs, Follows (.execution .all) (invoke v xs)) :
    (es : List (Value × Expr)) → Follows (.execution .all) (evalMembers invoke es)
  | [] => by rw [evalMembers]; exact .pure []
  | (name, e) :: rest => by
    rw [evalMembers]
    exact .bind (evalExpr_execution steady e) fun _ => .bind .any fun _ =>
      .bind (evalMembers_execution steady rest) fun _ => .pure _

/-- A step keeps to executions when the callables it calls do. -/
theorem evalStep_execution (steady : ∀ v xs, Follows (.execution .all) (invoke v xs)) :
    (s : Step) → Follows (.execution .all) (evalStep invoke s)
  | .named name s => by
    rw [evalStep]
    exact .bind (evalStep_execution steady s) fun v => .bind (bind_follows name v).execution fun _ => .pure v
  | .compute op args => by
    rw [evalStep]
    exact .bind (evalExprs_execution steady args) fun xs => operation_execution steady op xs
  | .function name params body source => by
    rw [evalStep]
    exact .bind .any fun _ => newFn_execution _
  | .new proto props hidden => by
    rw [evalStep]
    exact .bind (evalExpr_execution steady proto) fun _ => .bind (evalMembers_execution steady props) fun _ =>
      .bind (alloc_execution _ _) fun o => .bind (evalMembers_execution steady hidden) fun _ =>
        .bind (.forM fun m => putProperty_execution o _ _ false) fun _ => .pure _
  | .nest start times => by
    rw [evalStep]
    exact .bind (evalExpr_execution steady start) fun v => nest_execution times v
  | .defineFunction on name impl arity source => by
    rw [evalStep]
    exact .bind (hostNamed_follows on).execution fun h => .bind (evalExpr_execution steady impl) fun _ =>
      .bind (Host.defineFunction_execution h _ _) fun _ => .pure _
  | .defineConstructor on name init parent methods statics arity source => by
    rw [evalStep]
    exact .bind (hostNamed_follows on).execution fun h => .bind (evalExpr_execution steady init) fun _ =>
      .bind (evalExpr_execution steady parent) fun _ => .bind (evalMembers_execution steady methods) fun _ =>
        .bind (evalMembers_execution steady statics) fun _ =>
          .bind (Host.defineConstructor_execution h _ _ _ _ _) fun _ => .pure _
  | .hostFunction name impl proto prototype arity source => by
    rw [evalStep]
    exact .bind (evalExpr_execution steady impl) fun _ => .bind (evalExpr_execution steady proto) fun _ =>
      .bind (evalExpr_execution steady prototype) fun _ => .bind (Host.newFunction_execution _ _ _ _) fun _ => .pure _
  | .makeHost name => by
    rw [evalStep]
    exact .bind Host.make_execution fun h => .bind (defineHost_follows name h).execution fun _ => .pure _
  | .makePlugin name outers on settings => by
    rw [evalStep]
    exact .bind (evalExpr_execution steady outers) fun v =>
      .bind (makePlugin_execution name v on settings) fun _ => .pure _

end

theorem evalBody_execution (steady : ∀ v xs, Follows (.execution .all) (invoke v xs)) (body : List Step) :
    Follows (.execution .all) (evalBody invoke body) := by
  induction body with
  | nil => exact .pure _
  | cons s rest ih =>
    cases rest with
    | nil => exact evalStep_execution steady s
    | cons s' rest => exact .bind (evalStep_execution steady s) fun _ => ih

/-! ## Calls -/

/-- What runs in a frame of its own keeps to executions if it does so anyway: frames stand aside. -/
theorem inFrame_execution {α : Type} (frame : Bindings) {body : Act α} (follows : Follows (.execution .all) body) :
    Follows (.execution .all) (inFrame frame body) := by
  intro w
  have entering : Transition w { w with frame := some frame } := .aside ⟨rfl, rfl, rfl, rfl, rfl⟩
  have inside := (follows { w with frame := some frame }).world
  have leaving (v : World) : Transition v { v with frame := w.frame } := .aside ⟨rfl, rfl, rfl, rfl, rfl⟩
  exact ⟨(Relation.ReflTransGen.head entering inside).tail (leaving _), fun _ _ => trivial,
    fun e _ => Regime.execution_all w e⟩

theorem runFn_execution (steady : ∀ v xs, Follows (.execution .all) (invoke v xs)) (f : Fn) (args : List Value) :
    Follows (.execution .all) (runFn invoke f args) := by
  unfold runFn
  split
  · exact .look fun w => .any
  · exact .stop rfl
  · exact .bind .any fun _ => (settle_follows _).execution
  · exact .bind (enterFrame_follows _ _).execution fun frame => inFrame_execution frame (evalBody_execution steady _)
  · exact Host.call_execution steady _ _ _
  · exact Host.call_execution steady _ _ _
  · exact Host.call_execution steady _ _ _
  · exact .bind .any fun _ => Host.call_execution steady _ _ _
  · exact .stop rfl
  · exact .bind (.mapM fun v => (settle_follows v).execution) fun _ => newFn_execution _
  · exact Host.call_execution steady _ _ _
  · exact .pure _
  · exact .pure _
  · exact .bind (Host.read_execution _ _ _) fun _ => Host.call_execution steady _ _ _
  · exact .stop rfl

theorem callDirectly_execution (steady : ∀ v xs, Follows (.execution .all) (invoke v xs)) (v : Value)
    (args : List Value) :
    Follows (.execution .all) (callDirectly invoke v args) := by
  refine .look fun w => ?_
  split
  · exact runFn_execution steady _ args
  · split
    · exact Host.impl_execution steady _ _ args
    · exact .stop rfl

/-- The calls of the evaluator keep to executions, by induction on the levels of the stack. -/
theorem invokeAfter_execution (levels taken : Nat) (v : Value) (args : List Value) :
    Follows (.execution .all) (invokeAfter levels taken v args) := by
  induction levels generalizing taken v args with
  | zero => exact .stop rfl
  | succ levels ih =>
    cases taken with
    | zero => exact .look fun w => callDirectly_execution (fun v xs => ih _ v xs) v args
    | succ taken => exact ih taken v args

theorem invoke_execution (levels : Nat) (v : Value) (args : List Value) :
    Follows (.execution .all) (Script.invoke levels v args) :=
  invokeAfter_execution levels 0 v args

/-! ## Answers and runs -/

/-- Things may get other labels. -/
def Relabels (L : Regime) : Prop :=
  ∀ w naming, L.step w { w with naming := naming }

variable {L : Regime}

theorem showRef_follows (labels : Relabels L) (r : Ref) : Follows L (showRef r) := by
  refine .bind_get fun w => ?_
  rcases w.naming.ensure r with ⟨text, naming⟩
  have labelled (kind : LabelKind) : Leaves L (do
      set { w with naming := naming }
      return (.ref ⟨kind, text⟩ : Shown)) w fun _ _ => True :=
    .of_ok rfl (labels w naming) trivial
  dsimp only
  split
  · exact labelled _
  · exact labelled _
  · exact .stop rfl
  · exact .stop rfl
  · exact .stop rfl

mutual

theorem showWithin_follows (labels : Relabels L) : (v : Value) → (depth : Nat) → Follows L (showWithin v depth)
  | .null, _ => by rw [showWithin]; exact .pure _
  | .undefined, _ => by rw [showWithin]; exact .pure _
  | .bool b, _ => by rw [showWithin]; exact .pure _
  | .int i, _ => by rw [showWithin]; exact .pure _
  | .float x, _ => by rw [showWithin]; exact .pure _
  | .nan _, _ => by rw [showWithin]; exact .pure _
  | .str s, _ => by rw [showWithin]; exact .pure _
  | .list _ items, depth + 1 => by
    rw [showWithin]
    exact .bind (showItems_follows labels items depth) fun _ => .pure _
  | .record entries, depth + 1 => by
    rw [showWithin]
    exact .bind (showEntries_follows labels entries depth) fun _ => .pure _
  | .list _ _, 0 => by rw [showWithin]; exact .stop rfl
  | .record _, 0 => by rw [showWithin]; exact .stop rfl
  | .ref r, _ => by rw [showWithin]; exact showRef_follows labels r

theorem showItems_follows (labels : Relabels L) : (items : List Value) → (depth : Nat) → Follows L (showItems items depth)
  | [], _ => by rw [showItems]; exact .pure _
  | v :: rest, depth => by
    rw [showItems]
    exact .bind (showWithin_follows labels v depth) fun _ => .bind (showItems_follows labels rest depth) fun _ => .pure _

theorem showEntries_follows (labels : Relabels L) : (entries : List (Value × Value)) → (depth : Nat) →
    Follows L (showEntries entries depth)
  | [], _ => by rw [showEntries]; exact .pure _
  | (k, v) :: rest, depth => by
    rw [showEntries]
    exact .bind (showWithin_follows labels k depth) fun _ => .bind (showWithin_follows labels v depth) fun _ =>
      .bind (showEntries_follows labels rest depth) fun _ => .pure _

end

theorem dumpObject_follows (labels : Relabels L) (o : ObjId) : Follows L (dumpObject o) := by
  have showing (v : Value) : Follows L (showValue v) := showWithin_follows labels v answerDepth
  have property (p : Property) : Follows L (showProperty p) :=
    .bind (showing _) fun _ => .bind (showing _) fun _ => .pure _
  refine .look fun w => .bind (showing _) fun _ => .bind (showing _) fun _ => .bind (.mapM property) fun _ => ?_
  dsimp only
  split
  · exact .bind (showing _) fun _ => .bind (showing _) fun _ => .bind (showing _) fun _ => .pure _
  · exact .pure _

theorem answer_follows (labels : Relabels L) (s : Step) (v : Value) : Follows L (answer s v) := by
  unfold answer
  split
  · exact .pure _
  · split
    · exact .bind (dumpObject_follows labels _) fun _ => .pure _
    · exact .bind (showWithin_follows labels _ answerDepth) fun _ => .pure _

theorem answerStep_execution (depth : Nat) (s : Step) : Follows (.execution .all) (answerStep depth s) :=
  .bind (evalStep_execution (invoke_execution depth) s) fun v =>
    (answer_follows (L := .aside) (fun _ _ => ⟨rfl, rfl, rfl, rfl, rfl⟩) s v).execution

theorem afterFault_aside (w : World) (s : Step) : Aside w (afterFault w s) := by
  unfold afterFault
  split
  · split
    · exact Aside.refl w
    · exact ⟨rfl, rfl, rfl, rfl, rfl⟩
  · exact Aside.refl w

/-- A step of a run leads from the world before it to the world after it, also when it stops midway. -/
theorem perform_execution (depth : Nat) (w : World) (s : Step) : Execution w (perform depth w s).2 := by
  have clearing : Transition w { w with log := #[] } := .aside ⟨rfl, rfl, rfl, rfl, rfl⟩
  have running := (answerStep_execution depth s { w with log := #[] }).world
  have run : Execution w (exec (answerStep depth s) { w with log := #[] }).2 := .head clearing running
  rcases ended : exec (answerStep depth s) { w with log := #[] } with ⟨result, after⟩
  rw [ended] at run
  have stopped : (answerStep depth s).run { w with log := #[] } = (result, after) := ended
  cases result with
  | ok _ =>
    have performed : (perform depth w s).2 = after := by
      unfold perform
      rw [stopped]
    rw [performed]
    exact run
  | error _ =>
    have performed : (perform depth w s).2 = afterFault after s := by
      unfold perform
      rw [stopped]
    rw [performed]
    exact run.tail (.aside (afterFault_aside after s))

/-- The worlds between the steps of a run: the one in which it starts, and the one after each step. -/
def worlds (depth : Nat) : World → List Step → List World
  | w, [] => [w]
  | w, s :: rest => w :: worlds depth (perform depth w s).2 rest

/-- What a run starts with is made in an execution. -/
theorem setUp_execution (settings : Settings) : Follows (.execution .all) (setUp settings) :=
  .bind (define_follows _ _).execution fun _ => .bind (define_follows _ _).execution fun _ =>
    .bind (define_follows _ _).execution fun _ => .bind Host.make_execution fun _ =>
      .bind (defineHost_follows _ _).execution fun _ => .look fun _ => .bind (begetFrom_execution _) fun _ =>
        .bind (define_follows _ _).execution fun _ => .bind .any fun _ => .bind (Plugin.make_execution _ _ _) fun _ =>
          (definePlugin_follows _ _).execution

/-- The world in which the first step of a script runs is reachable. -/
theorem start_reachable {settings : Settings} {logging : Bool} {w : World} (started : start settings logging = .ok w) :
    Reachable w := by
  have waking : Transition World.initial { World.initial with logging := logging } := .aside ⟨rfl, rfl, rfl, rfl, rfl⟩
  have making := (setUp_execution settings { World.initial with logging := logging }).world
  unfold start at started
  split at started
  · rename_i v ended
    have same : exec (setUp settings) { World.initial with logging := logging } = (.ok (), v) := ended
    rw [same] at making
    cases started
    exact .head waking making
  · cases started

/-- With the default settings a run starts, with one host and one plugin. -/
theorem start_default : ∃ w, start {} false = .ok w ∧ w.hosts.size = 1 ∧ w.plugins.size = 1 := by
  have sizes : (start {} false).toOption.map (fun w => (w.hosts.size, w.plugins.size)) = some (1, 1) := by
    decide +kernel
  rcases started : start {} false with _ | w
  · rw [started] at sizes
    cases sizes
  · rw [started] at sizes
    obtain ⟨hosts, plugins⟩ := Prod.mk.inj (Option.some.inj sizes)
    exact ⟨w, rfl, hosts, plugins⟩

/-- A run leads from each of its worlds to those after it. -/
theorem worlds_execution (depth : Nat) (w : World) (steps : List Step) :
    (worlds depth w steps).Pairwise Execution ∧ ∀ v ∈ worlds depth w steps, Execution w v := by
  induction steps generalizing w with
  | nil => exact ⟨List.pairwise_singleton _ _, fun v here => List.mem_singleton.1 here ▸ .refl⟩
  | cons s rest ih =>
    obtain ⟨pairwise, reached⟩ := ih (perform depth w s).2
    have first := perform_execution depth w s
    refine ⟨List.pairwise_cons.2 ⟨fun v here => first.trans (reached v here), pairwise⟩, fun v here => ?_⟩
    rcases List.mem_cons.1 here with rfl | later
    · exact .refl
    · exact first.trans (reached v later)

end Overlay.Script
