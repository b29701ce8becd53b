import Overlay.Proofs.Forwarding

/-!
# Deeper stacks

A stack limits how deeply calls nest, and only that: a call that does not stop for want of levels ends in the same way
on every deeper stack. `Act.Deepens` says of two actions that the second ends as the first does unless that one stops
for want of levels. The library and the evaluator are followed for two ways of calling of which the second is the first
on a deeper stack; that the calls of the evaluator are so is shown by induction on the levels.
-/

namespace Overlay
set_option autoImplicit false

open Act World

namespace Act
variable {α β : Type} {x y : Act α} {f g : α → Act β}

/-- Wherever they start, the second action ends as the first does, unless that one stops for want of levels. -/
def Deepens (x y : Act α) : Prop :=
  ∀ w, (exec x w).1 = .error .tooDeep ∨ exec y w = exec x w

namespace Deepens

protected theorem refl (x : Act α) : Deepens x x :=
  fun _ => .inr rfl

protected theorem bind (first : Deepens x y) (next : ∀ a, Deepens (f a) (g a)) : Deepens (x >>= f) (y >>= g) := by
  intro w
  rcases run : exec x w with ⟨e | a, v⟩
  · rw [exec_bind_error run]
    rcases first w with stopped | same
    · rw [run] at stopped
      cases stopped
      exact .inl rfl
    · exact .inr (exec_bind_error (same.trans run))
  · rcases first w with stopped | same
    · rw [run] at stopped
      cases stopped
    · rw [exec_bind_ok run, exec_bind_ok (same.trans run)]
      exact next a v

/-- The first action is the same for both. -/
theorem after (x : Act α) (next : ∀ a, Deepens (f a) (g a)) : Deepens (x >>= f) (x >>= g) :=
  .bind (.refl x) next

end Deepens

end Act

variable {shallow deep : Invoker}

/-! ## The library -/

namespace Host

theorem impl_deepens (deeper : ∀ v xs, Deepens (shallow v xs) (deep v xs)) (impl : Impl) (this : Value)
    (args : List Value) : Deepens (impl.run shallow this args) (impl.run deep this args) := by
  cases impl with
  | value v => exact deeper v (this :: args)
  | _ => exact .refl _

theorem call_deepens (deeper : ∀ v xs, Deepens (shallow v xs) (deep v xs)) (f this : Value) (args : List Value) :
    Deepens (call shallow f this args) (call deep f this args) := by
  refine .after _ fun _ => .after _ fun w => ?_
  cases w.hostFn? f with
  | some host => exact impl_deepens deeper host.impl this args
  | none => exact deeper f args

theorem callSpread_deepens (deeper : ∀ v xs, Deepens (shallow v xs) (deep v xs)) (f this args : Value) :
    Deepens (callSpread shallow f this args) (callSpread deep f this args) :=
  .after _ fun _ => .after _ fun xs => call_deepens deeper f this xs

theorem construct_deepens (deeper : ∀ v xs, Deepens (shallow v xs) (deep v xs)) (ctor args : Value) :
    Deepens (construct shallow ctor args) (construct deep ctor args) := by
  refine .after _ fun _ => .after _ fun w => ?_
  split
  · exact .refl _
  · exact .refl _
  · exact .after _ fun made => .after _ fun xs => .bind (impl_deepens deeper _ _ xs) fun _ => .refl _

end Host

namespace Plugin

theorem apply_deepens (deeper : ∀ v xs, Deepens (shallow v xs) (deep v xs)) (p : PluginId) (f this args : Value) :
    Deepens (apply shallow p f this args) (apply deep p f this args) := by
  refine .after _ fun w => ?_
  split
  · exact Host.callSpread_deepens deeper f this args
  · split
    · refine .after _ fun applier => ?_
      split
      · exact .after _ fun xs => Host.call_deepens deeper applier _ _
      · exact .refl _
    · exact .refl _

theorem callMethod_deepens (deeper : ∀ v xs, Deepens (shallow v xs) (deep v xs)) (p : PluginId) (v name args : Value) :
    Deepens (callMethod shallow p v name args) (callMethod deep p v name args) := by
  refine .after _ fun f => ?_
  split
  · exact .refl _
  · exact apply_deepens deeper p f v args

theorem construct_deepens (deeper : ∀ v xs, Deepens (shallow v xs) (deep v xs)) (p : PluginId) (ctor args : Value) :
    Deepens (construct shallow p ctor args) (construct deep p ctor args) := by
  refine .after _ fun w => ?_
  split
  · exact Host.construct_deepens deeper ctor args
  · refine .after _ fun prototype => ?_
    dsimp only
    have making (proto : ObjId) : Deepens
        (do
          let made ← Act.begetFrom (.obj proto)
          let answer ← apply shallow p ctor (.obj made) args
          return Host.constructed (← get) made answer)
        (do
          let made ← Act.begetFrom (.obj proto)
          let answer ← apply deep p ctor (.obj made) args
          return Host.constructed (← get) made answer) :=
      .after _ fun made => .bind (apply_deepens deeper p ctor _ args) fun _ => .refl _
    split
    · exact making _
    · exact making _

end Plugin

/-! ## Operations -/

namespace Script

theorem hostOp_deepens (deeper : ∀ v xs, Deepens (shallow v xs) (deep v xs)) (h : HostId) (op : HostOp)
    (args : List Value) : Deepens (op.run shallow h args) (op.run deep h args) := by
  refine .after _ fun w => ?_
  split
  -- what calls nothing is the same action for both
  any_goals with_reducible exact .refl _
  · exact Host.callSpread_deepens deeper _ _ _
  · exact Host.construct_deepens deeper _ _

theorem pluginOp_deepens (deeper : ∀ v xs, Deepens (shallow v xs) (deep v xs)) (p : PluginId) (op : PluginOp)
    (args : List Value) : Deepens (op.run shallow p args) (op.run deep p args) := by
  refine .after _ fun w => ?_
  dsimp only
  split
  any_goals with_reducible exact .refl _
  · exact Plugin.apply_deepens deeper p _ _ _
  · exact Plugin.apply_deepens deeper p _ _ _
  · exact Plugin.apply_deepens deeper p _ _ _
  · exact Plugin.callMethod_deepens deeper p _ _ _
  · exact Plugin.callMethod_deepens deeper p _ _ _
  · exact Plugin.construct_deepens deeper p _ _
  · exact Plugin.construct_deepens deeper p _ _

theorem hostOpOn_deepens (deeper : ∀ v xs, Deepens (shallow v xs) (deep v xs)) (target : Value) (op : HostOp)
    (args : List Value) : Deepens (op.runOn shallow target args) (op.runOn deep target args) := by
  unfold HostOp.runOn
  split
  · exact hostOp_deepens deeper _ op args
  · exact pluginOp_deepens deeper _ _ args
  · exact pluginOp_deepens deeper _ _ args
  · exact .refl _
  · exact .refl _
  · exact .refl _
  · exact .refl _

theorem pluginOpOn_deepens (deeper : ∀ v xs, Deepens (shallow v xs) (deep v xs)) (target : Value) (op : PluginOp)
    (args : List Value) : Deepens (op.runOn shallow target args) (op.runOn deep target args) := by
  unfold PluginOp.runOn
  split
  · exact pluginOp_deepens deeper _ op args
  · exact hostOp_deepens deeper _ _ args
  · exact hostOp_deepens deeper _ _ args
  · exact .refl _
  · exact .refl _
  · exact .refl _

theorem operation_deepens (deeper : ∀ v xs, Deepens (shallow v xs) (deep v xs)) (op : Operation)
    (args : List Value) : Deepens (op.run shallow args) (op.run deep args) := by
  unfold Operation.run
  split
  · exact .refl _
  · exact .refl _
  · exact .refl _
  · exact .refl _
  · exact .refl _
  · refine .after _ fun w => ?_
    split
    · exact deeper _ _
    · exact .refl _
  · exact .refl _
  · exact .refl _
  · exact .after _ fun target => hostOpOn_deepens deeper target _ _
  · exact .after _ fun target => pluginOpOn_deepens deeper target _ _
  · exact .refl _
  · exact .refl _

/-! ## Steps and calls -/

mutual

theorem evalExpr_deepens (deeper : ∀ v xs, Deepens (shallow v xs) (deep v xs)) :
    (e : Expr) → Deepens (evalExpr shallow e) (evalExpr deep e)
  | .datum v => by rw [evalExpr, evalExpr]; exact .refl _
  | .numeral text => by rw [evalExpr, evalExpr]; exact .refl _
  | .list items => by
    rw [evalExpr, evalExpr]
    exact .bind (evalExprs_deepens deeper items) fun _ => .refl _
  | .var name => by rw [evalExpr, evalExpr]; exact .refl _
  | .step s => by rw [evalExpr, evalExpr]; exact evalStep_deepens deeper s
  | .refused f => by rw [evalExpr, evalExpr]; exact .refl _

theorem evalExprs_deepens (deeper : ∀ v xs, Deepens (shallow v xs) (deep v xs)) :
    (es : List Expr) → Deepens (evalExprs shallow es) (evalExprs deep es)
  | [] => by rw [evalExprs, evalExprs]; exact .refl _
  | e :: rest => by
    rw [evalExprs, evalExprs]
    exact .bind (evalExpr_deepens deeper e) fun _ => .bind (evalExprs_deepens deeper rest) fun _ => .refl _

theorem evalMembers_deepens (deeper : ∀ v xs, Deepens (shallow v xs) (deep v xs)) :
    (es : List (Value × Expr)) → Deepens (evalMembers shallow es) (evalMembers deep es)
  | [] => by rw [evalMembers, evalMembers]; exact .refl _
  | (name, e) :: rest => by
    rw [evalMembers, evalMembers]
    exact .bind (evalExpr_deepens deeper e) fun _ => .after _ fun _ =>
      .bind (evalMembers_deepens deeper rest) fun _ => .refl _

theorem evalStep_deepens (deeper : ∀ v xs, Deepens (shallow v xs) (deep v xs)) :
    (s : Step) → Deepens (evalStep shallow s) (evalStep deep s)
  | .named name s => by
    rw [evalStep, evalStep]
    exact .bind (evalStep_deepens deeper s) fun _ => .refl _
  | .compute op args => by
    rw [evalStep, evalStep]
    exact .bind (evalExprs_deepens deeper args) fun xs => operation_deepens deeper op xs
  | .function name params body source => by rw [evalStep, evalStep]; exact .refl _
  | .new proto props hidden => by
    rw [evalStep, evalStep]
    exact .bind (evalExpr_deepens deeper proto) fun _ => .bind (evalMembers_deepens deeper props) fun _ =>
      .after _ fun _ => .bind (evalMembers_deepens deeper hidden) fun _ => .refl _
  | .nest start times => by
    rw [evalStep, evalStep]
    exact .bind (evalExpr_deepens deeper start) fun _ => .refl _
  | .defineFunction on name impl arity source => by
    rw [evalStep, evalStep]
    exact .after _ fun _ => .bind (evalExpr_deepens deeper impl) fun _ => .refl _
  | .defineConstructor on name init parent methods statics arity source => by
    rw [evalStep, evalStep]
    exact .after _ fun _ => .bind (evalExpr_deepens deeper init) fun _ => .bind (evalExpr_deepens deeper parent) fun _ =>
      .bind (evalMembers_deepens deeper methods) fun _ => .bind (evalMembers_deepens deeper statics) fun _ => .refl _
  | .hostFunction name impl proto prototype arity source => by
    rw [evalStep, evalStep]
    exact .bind (evalExpr_deepens deeper impl) fun _ => .bind (evalExpr_deepens deeper proto) fun _ =>
      .bind (evalExpr_deepens deeper prototype) fun _ => .refl _
  | .makeHost name => by rw [evalStep, evalStep]; exact .refl _
  | .makePlugin name outers on settings => by
    rw [evalStep, evalStep]
    exact .bind (evalExpr_deepens deeper outers) fun _ => .refl _

end

theorem evalBody_deepens (deeper : ∀ v xs, Deepens (shallow v xs) (deep v xs)) (body : List Step) :
    Deepens (evalBody shallow body) (evalBody deep body) := by
  induction body with
  | nil => exact .refl _
  | cons s rest ih =>
    cases rest with
    | nil => exact evalStep_deepens deeper s
    | cons s' rest => exact .bind (evalStep_deepens deeper s) fun _ => ih

/-- The frame that was there comes back in both runs. -/
theorem inFrame_deepens (frame : Bindings) {body body' : Act Value} (deeper : Deepens body body') :
    Deepens (inFrame frame body) (inFrame frame body') := by
  intro w
  rcases deeper { w with frame := some frame } with stopped | same
  · exact .inl stopped
  · exact .inr (congrArg (fun ended => (ended.1, { ended.2 with frame := w.frame })) same)

theorem runFn_deepens (deeper : ∀ v xs, Deepens (shallow v xs) (deep v xs)) (f : Fn) (args : List Value) :
    Deepens (runFn shallow f args) (runFn deep f args) := by
  unfold runFn
  split
  · exact .refl _
  · exact .refl _
  · exact .refl _
  · exact .after _ fun frame => inFrame_deepens frame (evalBody_deepens deeper _)
  · exact Host.call_deepens deeper _ _ _
  · exact Host.call_deepens deeper _ _ _
  · exact Host.call_deepens deeper _ _ _
  · exact .after _ fun xs => Host.call_deepens deeper _ _ _
  · exact .refl _
  · exact .refl _
  · exact Host.call_deepens deeper _ _ _
  · exact .refl _
  · exact .refl _
  · exact .after _ fun found => Host.call_deepens deeper found _ _
  · exact .refl _

theorem callDirectly_deepens (deeper : ∀ v xs, Deepens (shallow v xs) (deep v xs)) (v : Value) (args : List Value) :
    Deepens (callDirectly shallow v args) (callDirectly deep v args) := by
  refine .after _ fun w => ?_
  split
  · exact runFn_deepens deeper _ args
  · split
    · exact Host.impl_deepens deeper _ _ args
    · exact .refl _

/-- Levels that are taken are missing, and nothing else. -/
theorem invokeAfter_eq (levels taken : Nat) : invokeAfter levels taken = invoke (levels - taken) := by
  induction levels generalizing taken with
  | zero =>
    rw [Nat.zero_sub]
    rfl
  | succ levels ih =>
    cases taken with
    | zero => rfl
    | succ taken =>
      rw [Nat.add_sub_add_right, ← ih taken]
      rfl

/-- A call takes a level, and what it calls runs on the levels that it leaves. -/
theorem exec_invoke_succ (levels : Nat) (v : Value) (args : List Value) (w : World) :
    exec (invoke (levels + 1) v args) w = exec (callDirectly (invoke (levels - furtherLevels w v)) v args) w := by
  rw [← invokeAfter_eq levels (furtherLevels w v), invoke, invokeAfter, exec_get_bind]

/-- A call that does not stop for want of levels ends in the same way on every deeper stack. -/
theorem invoke_deepens {levels levels' : Nat} (deeper : levels ≤ levels') (v : Value) (args : List Value) :
    Deepens (invoke levels v args) (invoke levels' v args) := by
  induction levels using Nat.strongRecOn generalizing levels' v args with
  | ind levels ih =>
    intro w
    cases levels with
    | zero => exact .inl rfl
    | succ levels =>
      obtain ⟨n, rfl⟩ : ∃ n, levels' = n + 1 := ⟨levels' - 1, by omega⟩
      rw [exec_invoke_succ, exec_invoke_succ]
      have inner (u : Value) (xs : List Value) :
          Deepens (invoke (levels - furtherLevels w v) u xs) (invoke (n - furtherLevels w v) u xs) :=
        ih _ (by omega) (by omega) u xs
      exact callDirectly_deepens inner v args w

end Script

end Overlay
