import Overlay.Proofs.Raising
import Overlay.Proofs.Depth

/-!
# Ways to call an emulated function

The raw callable of an emulated function takes the receiver as its first argument. It is called directly as the member
`call`; by the member `apply`, which takes the receiver and a list; by a plugin, which calls `apply`; and by what the
member `bind` gives, with the arguments that were bound in front. All these ways call the raw callable on the same
arguments. They differ in the levels of the stack that they take: a direct call takes up to two levels fewer.
-/

namespace Overlay
set_option autoImplicit false

open Act World Emulation Script

variable {w : World} {raw : Value} {levels : Nat}

/-! ## Calls of the members -/

namespace Script

/-- A callable is called by a function that is called for it. -/
def callThrough (levels : Nat) (raw : Value) (args : List Value) : Act Value :=
  match levels with
  | 0 => Act.stop .tooDeep
  | rest + 1 => Host.call (invoke (rest - 1)) raw (.obj World.useless) args

/-- The function that applies a callable calls it on the receiver and what the list spreads into. -/
theorem exec_invoke_applier {a : FnId} {r args : Value} {xs : List Value} (found : w.fns[a]? = some (.applier raw))
    (spread : Host.spread args = .ok xs) :
    exec (invoke levels (.fn a) [r, args]) w = exec (callThrough levels raw (r :: xs)) w := by
  cases levels with
  | zero => rfl
  | succ rest =>
    have further : furtherLevels w (.fn a) = 1 := by
      simp only [furtherLevels, found, Option.getD_some]
    rw [exec_invoke_succ, further, exec_callDirectly_fn found, callThrough, runFn, spread, exec_lift_ok_bind]
    · rintro rfl
      cases spread
    · rintro rfl
      cases spread

/-- A bound function calls its callable on what was bound and then on what it is given. -/
theorem exec_invoke_bound {c : FnId} {left : List Value} (found : w.fns[c]? = some (.bound raw left))
    (more : List Value) : exec (invoke levels (.fn c) more) w = exec (callThrough levels raw (left ++ more)) w := by
  cases levels with
  | zero => rfl
  | succ rest =>
    have further : furtherLevels w (.fn c) = 1 := by
      simp only [furtherLevels, found, Option.getD_some]
    rw [exec_invoke_succ, further, exec_callDirectly_fn found, callThrough, runFn]

/-- Marking lists ends and changes nothing but what stands aside. -/
theorem exists_settled (w : World) (left : List Value) :
    ∃ marked u, exec (left.mapM Act.settle) w = (.ok marked, u) ∧ Aside w u := by
  have one (v : Value) (w : World) : ∃ x u, exec (Act.settle v) w = (.ok x, u) := by
    unfold Act.settle
    split
    · exact ⟨_, _, rfl⟩
    · exact ⟨_, _, rfl⟩
  have all : ∃ marked u, exec (left.mapM Act.settle) w = (.ok marked, u) := by
    induction left generalizing w with
    | nil => exact ⟨[], w, rfl⟩
    | cons v rest ih =>
      obtain ⟨x, u, first⟩ := one v w
      obtain ⟨xs, t, others⟩ := ih u
      exact ⟨x :: xs, t, by rw [List.mapM_cons, exec_bind_ok first, exec_bind_ok others, exec_pure]⟩
  obtain ⟨marked, u, ran⟩ := all
  have follows : Follows .aside (left.mapM Act.settle) := .mapM settle_follows
  obtain ⟨aside, -⟩ := (follows w).of_run ran
  exact ⟨marked, u, ran, aside⟩

/-- Lists that have their marks keep them. -/
theorem exec_settled (w : World) {left : List Value} (have_marks : ∀ items, .list none items ∉ left) :
    exec (left.mapM Act.settle) w = (.ok left, w) := by
  induction left with
  | nil => rfl
  | cons v rest ih =>
    have first : exec (Act.settle v) w = (.ok v, w) := by
      unfold Act.settle
      split
      · exact absurd List.mem_cons_self (have_marks _)
      · rfl
    have others := ih fun items listed => have_marks items (List.mem_cons_of_mem v listed)
    rw [List.mapM_cons, exec_bind_ok first, exec_bind_ok others, exec_pure]

/-- The function that binds a callable makes a function of the callable and of what it is given. -/
theorem exec_invoke_binder {b : FnId} {left marked : List Value} {u : World}
    (found : w.fns[b]? = some (.binder raw)) (settled : exec (left.mapM Act.settle) w = (.ok marked, u))
    (rest : Nat) : exec (invoke (rest + 1) (.fn b) left) w =
      (.ok (.fn u.fns.size), { u with fns := u.fns.push (.bound raw marked) }) := by
  rw [exec_invoke_succ, exec_callDirectly_fn found, runFn, exec_bind_ok settled]
  rfl

/-- A callable that is called by a function that is called for it is called directly, on a stack that has up to two
levels fewer. -/
theorem exec_callThrough (callable : w.isCallable raw = true) (levels : Nat) (args : List Value) :
    ∃ fewer ≤ levels, levels ≤ fewer + 2 ∧
      exec (callThrough levels raw args) w = exec (invoke fewer raw args) w := by
  cases levels with
  | zero => exact ⟨0, Nat.le_refl 0, Nat.zero_le 2, rfl⟩
  | succ rest =>
    obtain ⟨category, known⟩ := isCallable_iff.1 callable
    rcases Host.category?_cases known with ⟨g, rfl, -⟩ | ⟨o, fn, rfl, found, -⟩
    · refine ⟨rest - 1, by omega, by omega, ?_⟩
      rw [callThrough, exec_call_fn]
    · -- the call of a host function itself takes one level
      refine ⟨rest - 1 + 1, by omega, by omega, ?_⟩
      have host : w.hostFn? (.obj o) = some fn := found
      rw [callThrough, Host.call, exec_bind_ok (exec_enforceCallable "value" callable), exec_get_bind, exec_invoke_succ,
        callDirectly, exec_get_bind]
      simp only [host]
      rfl

end Script

/-! ## The ways -/

namespace Plugin

/-- The ways to call the emulated function `d`, which was made before the world `made`, through what it holds: on the
receiver `r` and the arguments `xs`, in the world `w`. -/
inductive Way (made : World) (p : PluginId) (d : ObjId) (r : Value) (xs : List Value) (w : World) :
    (Invoker → Act Value) → Prop
  /-- The plugin applies the function. -/
  | apply {args : Value} (spread : Host.spread args = .ok xs) :
    Way made p d r xs w fun call => Plugin.apply call p (.obj d) r args
  /-- The plugin calls the function without a receiver. -/
  | callFunction {args : Value} (spread : Host.spread args = .ok xs) (nobody : r = .obj World.useless) :
    Way made p d r xs w fun call => Plugin.callFunction call p (.obj d) args
  /-- The plugin calls the method `apply` of the function. -/
  | callMethod {args both : Value} (spread : Host.spread args = .ok xs) (pair : Host.spread both = .ok [r, args]) :
    Way made p d r xs w fun call => Plugin.callMethod call p (.obj d) (.str "apply") both
  /-- The member `apply` is called. -/
  | member {f args : Value} (held : w.heap.member? d "apply" = some f) (spread : Host.spread args = .ok xs) :
    Way made p d r xs w fun call => call f [r, args]
  /-- The first arguments, the receiver among them if there are any, were given to the member `bind` in an earlier world,
  which marked the lists that had no mark; the function that it answered is called on the others. -/
  | bound {u u' v : World} {f c : Value} {levels : Nat} {left marked more : List Value} (before : Execution made u)
    (same : u.heap.member? d "bind" = made.heap.member? d "bind") (held : u.heap.member? d "bind" = some f)
    (ran : exec (invoke levels f left) u = (.ok c, v)) (settled : exec (left.mapM Act.settle) u = (.ok marked, u'))
    (after : Execution v w) (parts : marked ++ more = r :: xs) : Way made p d r xs w fun call => call c more

variable {w₀ w₁ : World} {p : PluginId} {d : ObjId} {name r : Value} {xs : List Value} {x : Invoker → Act Value}

/-- What was emulated is callable, and the emulated function is equipped to be called. -/
theorem equipped_of_emulate (ran : exec (emulate p raw name) w₀ = (.ok (.obj d), w₁)) :
    w₀.isCallable raw = true ∧ Equipped w₁ d raw := by
  unfold emulate at ran
  rw [exec_get_bind] at ran
  obtain ⟨o, u, making, answer⟩ := exists_of_exec_bind ran
  cases answer
  obtain ⟨-, -, equipped, -⟩ := (emulate_equipped_leaves _ _ raw name (Nat.le_refl w₀.heap.size)).of_run making
  obtain ⟨_, v, enforced, -⟩ := exists_of_exec_bind making
  obtain ⟨-, -, callable⟩ := (enforceCallable_leaves raw _).of_run enforced
  exact ⟨callable, equipped.1⟩

/-- What the member `bind` answered holds what it was given, in every later world. -/
theorem bound_of_bind {u u' v : World} {b : FnId} {c : Value} {n : Nat} {left marked : List Value} (sound : u.Sound)
    (code : u.fns[b]? = some (.binder raw)) (ran : exec (invoke n (.fn b) left) u = (.ok c, v))
    (settled : exec (left.mapM Act.settle) u = (.ok marked, u')) (after : Execution v w) :
    ∃ g, c = .fn g ∧ w.fns[g]? = some (.bound raw marked) := by
  obtain ⟨execution, -⟩ := (invoke_execution n (.fn b) left u).of_run ran
  have later := after.advances (Execution.advances sound execution).sound
  cases n with
  | zero => cases ran
  | succ n =>
    rw [exec_invoke_binder code settled] at ran
    cases ran
    exact ⟨_, rfl, getElem?_of_longer later.fns Array.getElem?_push_size⟩

/-- Every way through what an emulated function holds is a call of the raw callable by a function that is called for
it. -/
theorem Way.exec_eq (sound : w₁.Sound) (first : Equipped w₁ d raw) (equipped : Equipped w d raw)
    (way : Way w₁ p d r xs w x) (levels : Nat) :
    exec (x (invoke levels)) w = exec (callThrough levels raw (r :: xs)) w := by
  obtain ⟨a, applier, code⟩ := equipped.applies
  have alone : Host.spread (.list none xs) = .ok xs := rfl
  cases way with
  | apply spread =>
    rw [exec_apply_emulated equipped.plain applier spread]
    exact exec_invoke_applier code alone
  | callFunction spread nobody =>
    change exec (Plugin.apply (invoke levels) p (.obj d) (.obj World.useless) _) w = _
    rw [exec_apply_emulated equipped.plain applier spread, nobody]
    exact exec_invoke_applier code alone
  | callMethod spread pair =>
    have plain : w.isCallable (.obj d) = false := by
      rw [World.isCallable_obj, equipped.plain, Option.isSome_none]
    have callable : w.isCallable (.fn a) = true := rfl
    have named : Key.of? (.str "apply") = some "apply" := rfl
    have defined : (.fn a : Value) ≠ .undefined := by
      rintro ⟨⟩
    rw [exec_callMethod_owned plain (Heap.owner?_of_member? applier) applier named defined,
      exec_apply_callable callable pair, exec_call_fn]
    exact exec_invoke_applier code spread
  | member held spread =>
    obtain rfl := Option.some.inj (held.symm.trans applier)
    exact exec_invoke_applier code spread
  | bound before same held ran settled after parts =>
    obtain ⟨b, binder, code'⟩ := first.binds
    obtain rfl := Option.some.inj (held.symm.trans (same.trans binder))
    have advances := before.advances sound
    obtain ⟨g, rfl, found⟩ := bound_of_bind advances.sound (getElem?_of_longer advances.fns code') ran settled after
    rw [exec_invoke_bound found, parts]

/-- All ways to call an emulated function agree. The members of the function that it is called by are as they were when
it was made: the raw callable itself, one that applies it, and one that binds it, which answers a function for whatever
it is given and changes no object; what it is given it keeps, with marks for the lists that had none.

On one stack, all ways through what the function holds end in the same way, with the same value or fault and the same
world. So does the direct call of the raw callable on the receiver and the arguments, unless the others stop for want
of levels; they take two levels more at most. -/
theorem emulated_calls_agree (reachable : Reachable w₀) (made : exec (emulate p raw name) w₀ = (.ok (.obj d), w₁))
    (execution : Execution w₁ w) (same : ∀ s ∈ callNames, w.heap.member? d (.text s) = w₁.heap.member? d (.text s))
    (r : Value) (xs : List Value) :
    w.heap.member? d "call" = some raw ∧
    (∃ f b, w.heap.member? d "apply" = some f ∧ w.heap.member? d "bind" = some b ∧ ∀ levels left,
      ∃ c v marked u, exec (invoke (levels + 1) b left) w = (.ok c, v) ∧ Execution w v ∧ v.heap = w.heap ∧
        exec (left.mapM Act.settle) w = (.ok marked, u) ∧ ((∀ items, .list none items ∉ left) → marked = left)) ∧
    ∀ x, Way w₁ p d r xs w x → ∀ levels,
      (∀ y, Way w₁ p d r xs w y → exec (y (invoke levels)) w = exec (x (invoke levels)) w) ∧
      ((exec (x (invoke levels)) w).1 = .error .tooDeep ∨
        exec (invoke levels raw (r :: xs)) w = exec (x (invoke levels)) w) ∧
      ∃ fewer ≤ levels, levels ≤ fewer + 2 ∧
        exec (x (invoke levels)) w = exec (invoke fewer raw (r :: xs)) w := by
  obtain ⟨callable, first⟩ := equipped_of_emulate made
  obtain ⟨making, -⟩ := (emulate_execution (T := .all) p raw name w₀).of_run made
  have before := Execution.advances reachable.sound making
  have advances := execution.advances before.sound
  have equipped := first.later advances.trail advances.fns same
  have callable' := isCallable_later (before.trail.trans advances.trail) callable
  obtain ⟨a, applier, -⟩ := equipped.applies
  obtain ⟨b, binder, code⟩ := equipped.binds
  refine ⟨equipped.calls, ⟨.fn a, .fn b, applier, binder, fun levels left => ?_⟩, fun x way levels => ?_⟩
  · obtain ⟨marked, u, settled, aside⟩ := exists_settled w left
    have ran := exec_invoke_binder code settled levels
    obtain ⟨moved, -⟩ := (invoke_execution (levels + 1) (.fn b) left w).of_run ran
    refine ⟨_, _, marked, u, ran, moved, aside.heap, settled, fun have_marks => ?_⟩
    rw [exec_settled w have_marks] at settled
    cases settled
    rfl
  · have through := way.exec_eq before.sound first equipped levels
    refine ⟨fun y way' => (way'.exec_eq before.sound first equipped levels).trans through.symm, ?_, ?_⟩
    · obtain ⟨fewer, less, -, direct⟩ := exec_callThrough callable' levels (r :: xs)
      rw [through, direct]
      exact invoke_deepens less raw (r :: xs) w
    · rw [through]
      exact exec_callThrough callable' levels (r :: xs)

/-- The emulated function of the one that gives the greatest of its arguments, with a first argument bound to it. -/
theorem emulated_calls_agree_greatest : ∃ w d c, Reachable w ∧ w.fns[1]? = some .maximum ∧
    w.heap.member? d "call" = some (.fn 1) ∧ ∀ levels more,
      exec (apply (invoke levels) 0 (.obj d) (.int 1) (.list none more)) w = exec (invoke levels c more) w ∧
      ((exec (invoke levels c more) w).1 = .error .tooDeep ∨
        exec (invoke levels (.fn 1) (.int 1 :: more)) w = exec (invoke levels c more) w) := by
  obtain ⟨w₀, started, -⟩ := start_default
  have emulating : (start {} false).toOption.map (fun w₀ =>
      ((exec (emulate 0 (.fn 1) .null) w₀).1.toOption.bind Key.of?)) = some (some (.ref (.object 16))) := by
    decide +kernel
  rw [started] at emulating
  have emulated : (exec (emulate 0 (.fn 1) .null) w₀).1.toOption.bind Key.of? = some (.ref (.object 16)) :=
    Option.some.inj emulating
  rcases ran : exec (emulate 0 (.fn 1) .null) w₀ with ⟨_ | x, w₁⟩
  · rw [ran] at emulated
    cases emulated
  rw [ran] at emulated
  obtain rfl : x = .obj 16 := Key.eq_ref_of_of? emulated
  have reachable := start_reachable started
  obtain ⟨making, -⟩ := (emulate_execution (T := .all) 0 (.fn 1) .null w₀).of_run ran
  -- a function is bound in the world in which the emulated function was made, and called in the one it leaves
  obtain ⟨-, ⟨f, b, -, binder, binds⟩, -⟩ := emulated_calls_agree reachable ran .refl (fun _ _ => rfl) .null []
  obtain ⟨c, w, marked, u, bound, execution, heap, settled, kept⟩ := binds 0 [.int 1]
  obtain rfl := kept (by simp)
  have same : ∀ s ∈ callNames, w.heap.member? 16 (.text s) = w₁.heap.member? 16 (.text s) := by
    intro s _
    rw [heap]
  have reaches : Reachable w := (reachable.execution making).execution execution
  have greatest : w.fns[1]? = some .maximum :=
    getElem?_of_longer (Execution.advances initial_sound reaches).fns rfl
  refine ⟨w, 16, c, reaches, greatest, ?_, fun levels more => ?_⟩
  · exact (emulated_calls_agree reachable ran execution same (.int 1) []).1
  · obtain ⟨-, -, agree⟩ := emulated_calls_agree reachable ran execution same (.int 1) more
    have applied : Way w₁ 0 16 (.int 1) more w fun call => apply call 0 (.obj 16) (.int 1) (.list none more) :=
      .apply rfl
    have called : Way w₁ 0 16 (.int 1) more w fun call => call c more :=
      .bound .refl rfl binder bound settled .refl rfl
    obtain ⟨others, direct, -⟩ := agree _ called levels
    exact ⟨others _ applied, direct⟩

end Plugin

end Overlay
