import Overlay.Proofs.Founding
import Overlay.Proofs.Resolution

/-!
# Executions

A run has one effect on the world after the other, with whatever arguments, and changes its own surroundings in
between. An `Effect` is an operation of the library that calls no function it is given: making an object (`new`), `put`,
`delete` and `freeze` on it, making a host (`host`), `define_fn` and `define_ctor` on it, registering the constructor of
a primitive, making a plugin (`make`), and `shadow_of`, `dis` and forwarders in it. `Execution` is the relation that
such a sequence makes between two worlds, and a world is `Reachable` when an execution leads to it from the start. What an effect can do to a sound world is said once (`Effect.advances`), so every
reachable world is sound and no execution loses anything.

An action keeps to executions when it is made of effects. The regime has a parameter for the faults that callables
called on the way may stop with, and where; an effect itself never reports that something was registered twice.
-/

namespace Overlay
set_option autoImplicit false

open Act World

/-- An operation of the library that changes the world and calls no function that it is given. -/
inductive Effect where
  | newFn (f : Fn)
  | newObject (proto : Value) (members : List (Name × Value))
  | put (o : ObjId) (name value : Value) (enumerable : Bool)
  | erase (o : ObjId) (name : Value)
  | freeze (o : ObjId)
  | newFunction (impl : Impl) (s : Host.Signature) (proto prototype : Value)
  | defineFunction (h : HostId) (impl : Impl) (s : Host.Signature)
  | defineConstructor (h : HostId) (s : Host.Signature) (init parent : Value) (methods statics : List (Name × Value))
  | makeHost
  | registerPrimitive (h : HostId) (kind : Primitive) (ctor : Value)
  | makePlugin (h : HostId) (config : Config) (outers : Value)
  | shadowOf (p : PluginId) (f : Value)
  | emulate (p : PluginId) (raw name : Value)
  | forwarder (p : PluginId) (name : Value)

/-- The world in which an effect ends, whether it stops or not. -/
def Effect.after (w : World) : Effect → World
  | .newFn f => (exec (Act.newFn f) w).2
  | .newObject proto members => (exec (Act.alloc { proto := proto, bag := .ofMembers members }) w).2
  | .put o name value enumerable => (exec (Act.putProperty o name value enumerable) w).2
  | .erase o name => (exec (Act.eraseProperty o name) w).2
  | .freeze o => (exec (Act.freeze o) w).2
  | .newFunction impl s proto prototype => (exec (Host.newFunction impl s proto prototype) w).2
  | .defineFunction h impl s => (exec (Host.defineFunction h impl s) w).2
  | .defineConstructor h s init parent methods statics =>
    (exec (Host.defineConstructor h s init parent methods statics) w).2
  | .makeHost => (exec Host.make w).2
  | .registerPrimitive h kind ctor => (exec (Host.registerPrimitive h kind ctor) w).2
  | .makePlugin h config outers => (exec (Plugin.make h config outers) w).2
  | .shadowOf p f => (exec (Plugin.shadowOf p f) w).2
  | .emulate p raw name => (exec (Plugin.emulate p raw name) w).2
  | .forwarder p name => (exec (Plugin.forwarder p name) w).2

/-- One thing that a run does: an effect, or something aside. -/
inductive Transition (w : World) : World → Prop
  | aside {v : World} (h : Aside w v) : Transition w v
  | effect (d : Effect) : Transition w (d.after w)

/-- A run leads from one world to the other. -/
def Execution : World → World → Prop :=
  Relation.ReflTransGen Transition

/-- A run leads to the world from the start. -/
def Reachable (w : World) : Prop :=
  Execution World.initial w

theorem Plugin.emulate_leaves {w : World} (p : PluginId) (raw name : Value) :
    Leaves (.growth w.heap.size) (Plugin.emulate p raw name) w fun _ _ => True :=
  .bind_get (.bind (Emulation.emulate_leaves _ _ raw name (Nat.le_refl _)) fun _ _ _ _ => .pure trivial)

theorem Plugin.forwarder_leaves {w : World} (p : PluginId) (name : Value) :
    Leaves (.growth w.heap.size) (Plugin.forwarder p name) w fun _ _ => True :=
  .bind_get (.bind (Emulation.forwarder_leaves _ _ _ name (Nat.le_refl _)) fun _ _ _ _ => .pure trivial)

/-- What an effect can do to a sound world. -/
theorem Effect.advances {w : World} (sound : w.Sound) (d : Effect) : Advances w (d.after w) := by
  have grow {n : Nat} {v : World} (grown : Grows n w v) : Advances w v := sound.advances grown
  have old : w.heap.size ≤ w.heap.size := Nat.le_refl _
  cases d with
  | newFn f => exact grow (newFn_leaves (n := 0) f).world
  | newObject proto members => exact grow (alloc_leaves proto members old).world
  | put o name value enumerable => exact grow (putProperty_leaves o name value enumerable (Nat.zero_le o)).world
  | erase o name => exact grow (eraseProperty_leaves o name (Nat.zero_le o)).world
  | freeze o => exact grow (freeze_leaves o (Nat.zero_le o)).world
  | newFunction impl s proto prototype => exact grow (Host.newFunction_leaves impl s proto prototype old).world
  | defineFunction h impl s => exact grow (Host.defineFunction_leaves h impl s old).world
  | defineConstructor h s init parent methods statics =>
    exact grow (Host.defineConstructor_leaves h s init parent methods statics old).world
  | makeHost => exact (Host.make_follows w).world sound
  | registerPrimitive h kind ctor => exact (Host.registerPrimitive_follows h kind ctor w).world sound
  | makePlugin h config outers => exact (Plugin.make_leaves sound h config outers).world sound
  | shadowOf p f => exact ((Plugin.shadowOf_leaves sound old).world sound).advances
  | emulate p raw name => exact grow (Plugin.emulate_leaves p raw name).world
  | forwarder p name => exact grow (Plugin.forwarder_leaves p name).world

theorem Transition.advances {w v : World} (sound : w.Sound) (step : Transition w v) : Advances w v := by
  cases step with
  | aside h => exact sound.advances (n := 0) (.of_aside h)
  | effect d => exact d.advances sound

theorem Execution.advances {w v : World} (sound : w.Sound) (execution : Execution w v) : Advances w v := by
  induction execution with
  | refl => exact .refl sound
  | tail _ step ih => exact ih.trans (step.advances ih.sound)

/-- The world of the start has one object, frozen and linked to nothing. -/
theorem World.initial_sound : World.initial.Sound := by
  have plain (o : ObjId) : World.initial.heap.hostFn? o = none := by
    match o with
    | 0 => rfl
    | o + 1 => rfl
  have top : World.initial.heap.IsTop 0 := ⟨⟨by decide, rfl⟩, rfl⟩
  refine ⟨⟨fun {o _} found => ?_, fun {o _ _ _} found => ?_⟩, fun h => ?_, fun p bound => ?_, fun p _ bound => ?_⟩
  · rw [plain o] at found; cases found
  · rw [plain o] at found; cases found
  · have none_yet : World.initial.host h = default := rfl
    rw [none_yet]
    refine ⟨top, fun o root => ?_, .inr (plain 0)⟩
    have zero : o = 0 := by
      simp only [Host.roots, List.mem_cons, List.not_mem_nil, or_false] at root
      rcases root with same | same | same | same <;> exact same
    rw [zero]
    exact top.2
  · exact absurd bound (Nat.not_lt_zero p)
  · exact absurd bound (Nat.not_lt_zero p)

theorem Reachable.sound {w : World} (reachable : Reachable w) : w.Sound :=
  (Execution.advances World.initial_sound reachable).sound

theorem Reachable.execution {w v : World} (reachable : Reachable w) (execution : Execution w v) : Reachable v :=
  Relation.ReflTransGen.trans reachable execution

/-- Faults that may be met in an execution: all but the report that something was registered twice, and that
too if what is called there reports it. -/
structure Tolerance where
  admits : World → Fault → Prop
  ordinary : ∀ {w e}, e.isDuplicate = false → admits w e

/-- Every fault may be met. -/
def Tolerance.all : Tolerance :=
  ⟨fun _ _ => True, fun _ => trivial⟩

/-- The world goes on in an execution; from a reachable world only a fault that is admitted on the way stops the
action. -/
def Regime.execution (T : Tolerance) : Regime where
  step := Execution
  fault w e := Reachable w → ∃ v, Execution w v ∧ T.admits v e
  refl _ := Relation.ReflTransGen.refl
  trans := Relation.ReflTransGen.trans
  back far late reachable :=
    let ⟨v, later, admitted⟩ := late (reachable.execution far)
    ⟨v, Relation.ReflTransGen.trans far later, admitted⟩
  ordinary w _ h _ := ⟨w, Relation.ReflTransGen.refl, T.ordinary (Fault.isDuplicate_of_isReport h)⟩

variable {α : Type} {T : Tolerance}

theorem Act.Follows.execution {x : Act α} (h : Follows .aside x) : Follows (.execution T) x :=
  h.mono (fun _ _ aside => .single (.aside aside)) fun w _ => (Regime.execution T).ordinary w

/-- Where every fault may be met, any fault may stop an action. -/
theorem Regime.execution_all (w : World) (e : Fault) : (Regime.execution .all).fault w e :=
  fun _ => ⟨w, .refl, trivial⟩

theorem Act.Follows.any {q : Except Fault α} : Follows (.execution .all) (liftM q) := by
  intro w
  cases q with
  | error e => exact .of_error rfl (Regime.refl _ w) (Regime.execution_all w e)
  | ok a => exact .of_ok rfl (Regime.refl _ w) trivial

/-- An action that is an effect keeps to executions, if no report stops it. -/
theorem Effect.follows {x : Act α} (d : Effect) (run : ∀ w, (exec x w).2 = d.after w)
    (fault : ∀ w, w.Sound → ∀ e, (exec x w).1 = .error e → e.isReport = false) : Follows (.execution T) x := by
  intro w
  refine ⟨?_, fun _ _ => trivial, fun e stopped reachable => ?_⟩
  · rw [run]
    exact .single (.effect d)
  · exact ⟨w, .refl, T.ordinary (Fault.isDuplicate_of_isReport (fault w reachable.sound e stopped))⟩

namespace Act

theorem newFn_execution (f : Fn) : Follows (.execution T) (newFn f) :=
  Effect.follows (.newFn f) (fun _ => rfl) fun _ _ => (newFn_leaves (n := 0) f).fault

theorem alloc_execution (proto : Value) (members : List (Name × Value)) :
    Follows (.execution T) (alloc { proto := proto, bag := .ofMembers members }) :=
  Effect.follows (.newObject proto members) (fun _ => rfl) fun _ _ =>
    (alloc_leaves proto members (Nat.zero_le _)).fault

theorem begetFrom_execution (proto : Value) : Follows (.execution T) (begetFrom proto) :=
  alloc_execution proto []

theorem putProperty_execution (o : ObjId) (name value : Value) (enumerable : Bool) :
    Follows (.execution T) (putProperty o name value enumerable) :=
  Effect.follows (.put o name value enumerable) (fun _ => rfl) fun _ _ =>
    (putProperty_leaves o name value enumerable (Nat.zero_le _)).fault

theorem eraseProperty_execution (o : ObjId) (name : Value) : Follows (.execution T) (eraseProperty o name) :=
  Effect.follows (.erase o name) (fun _ => rfl) fun _ _ => (eraseProperty_leaves o name (Nat.zero_le _)).fault

theorem freeze_execution (o : ObjId) : Follows (.execution T) (freeze o) :=
  Effect.follows (.freeze o) (fun _ => rfl) fun _ _ => (freeze_leaves o (Nat.zero_le _)).fault

end Act

namespace Host

theorem newFunction_execution (impl : Impl) (s : Signature) (proto prototype : Value) :
    Follows (.execution T) (newFunction impl s proto prototype) :=
  Effect.follows (.newFunction impl s proto prototype) (fun _ => rfl) fun _ _ =>
    (newFunction_leaves impl s proto prototype (Nat.zero_le _)).fault

theorem defineFunction_execution (h : HostId) (impl : Impl) (s : Signature) :
    Follows (.execution T) (defineFunction h impl s) :=
  Effect.follows (.defineFunction h impl s) (fun _ => rfl) fun _ _ =>
    (defineFunction_leaves h impl s (Nat.zero_le _)).fault

theorem defineConstructor_execution (h : HostId) (s : Signature) (init parent : Value)
    (methods statics : List (Name × Value)) :
    Follows (.execution T) (defineConstructor h s init parent methods statics) :=
  Effect.follows (.defineConstructor h s init parent methods statics) (fun _ => rfl) fun _ _ =>
    (defineConstructor_leaves h s init parent methods statics (Nat.zero_le _)).fault

theorem make_execution : Follows (.execution T) make :=
  Effect.follows (.makeHost) (fun _ => rfl) fun w _ => (make_follows w).fault

theorem registerPrimitive_execution (h : HostId) (kind : Primitive) (ctor : Value) :
    Follows (.execution T) (registerPrimitive h kind ctor) :=
  Effect.follows (.registerPrimitive h kind ctor) (fun _ => rfl) fun w _ =>
    (registerPrimitive_follows h kind ctor w).fault

end Host

namespace Plugin

theorem make_execution (h : HostId) (config : Config) (outers : Value) : Follows (.execution T) (make h config outers) :=
  Effect.follows (.makePlugin h config outers) (fun _ => rfl) fun _ sound =>
    (make_leaves sound h config outers).fault

theorem shadowOf_execution (p : PluginId) (f : Value) : Follows (.execution T) (shadowOf p f) :=
  Effect.follows (.shadowOf p f) (fun _ => rfl) fun _ sound => (shadowOf_leaves sound (Nat.le_refl _)).fault

theorem emulate_execution (p : PluginId) (raw name : Value) : Follows (.execution T) (emulate p raw name) :=
  Effect.follows (.emulate p raw name) (fun _ => rfl) fun _ _ => (emulate_leaves p raw name).fault

theorem forwarder_execution (p : PluginId) (name : Value) : Follows (.execution T) (forwarder p name) :=
  Effect.follows (.forwarder p name) (fun _ => rfl) fun _ _ => (forwarder_leaves p name).fault

end Plugin

end Overlay
