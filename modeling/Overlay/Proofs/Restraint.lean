import Overlay.Proofs.Completion
import Overlay.Proofs.Execution

/-!
# Runs under a restraint

A run may be held to do only such effects as a restraint allows where they are done. `ExecutionUnder` is the relation
that such a run makes between two worlds; it is an execution, and what each allowed effect keeps, the run keeps
(`ExecutionUnder.keeps`). The restraints that matter here say what host functions and objects a run makes by itself,
and are given as a `Licence`.
-/

namespace Overlay
set_option autoImplicit false

open Act World

/-- One thing that a run does under a restraint: an effect that is allowed there, or something aside. -/
inductive TransitionUnder (allows : World → Effect → Prop) (w : World) : World → Prop
  | aside {v : World} (h : Aside w v) : TransitionUnder allows w v
  | effect (d : Effect) (allowed : allows w d) : TransitionUnder allows w (d.after w)

/-- A run under a restraint leads from one world to the other. -/
def ExecutionUnder (allows : World → Effect → Prop) : World → World → Prop :=
  Relation.ReflTransGen (TransitionUnder allows)

/-- A run under a restraint leads to the world from the start. -/
def ReachableUnder (allows : World → Effect → Prop) (w : World) : Prop :=
  ExecutionUnder allows World.initial w

variable {allows permits : World → Effect → Prop} {w v : World}

theorem TransitionUnder.transition (step : TransitionUnder allows w v) : Transition w v := by
  cases step with
  | aside h => exact .aside h
  | effect d _ => exact .effect d

theorem ExecutionUnder.execution (execution : ExecutionUnder allows w v) : Execution w v :=
  Relation.ReflTransGen.mono (fun _ _ => TransitionUnder.transition) _ _ execution

/-- A run under a restraint is one under any looser restraint. -/
theorem ExecutionUnder.loosen (execution : ExecutionUnder allows w v) (looser : ∀ u d, allows u d → permits u d) :
    ExecutionUnder permits w v := by
  refine Relation.ReflTransGen.mono (fun u t step => ?_) _ _ execution
  cases step with
  | aside h => exact .aside h
  | effect d allowed => exact .effect d (looser u d allowed)

/-- What survives everything aside and every allowed effect in a sound world survives a run under the restraint. -/
theorem ExecutionUnder.keeps {I : World → Prop} (execution : ExecutionUnder allows w v) (sound : w.Sound) (start : I w)
    (aside : ∀ u t, u.Sound → Aside u t → I u → I t)
    (effect : ∀ u d, u.Sound → allows u d → I u → I (d.after u)) : I v := by
  induction execution with
  | refl => exact start
  | @tail u t before step ih =>
    have sound' : u.Sound := (ExecutionUnder.execution before |>.advances sound).sound
    cases step with
    | aside h => exact aside u t sound' h ih
    | effect d allowed => exact effect u d sound' allowed ih

theorem ReachableUnder.reachable (reachable : ReachableUnder allows w) : Reachable w :=
  ExecutionUnder.execution reachable

theorem ReachableUnder.loosen (reachable : ReachableUnder allows w) (looser : ∀ u d, allows u d → permits u d) :
    ReachableUnder permits w :=
  ExecutionUnder.loosen reachable looser

/-- The world after some effects from the start. -/
def World.after (ds : List Effect) : World :=
  ds.foldl Effect.after World.initial

theorem reachableUnder_after {ds : List Effect} (allowed : ∀ d ∈ ds, ∀ u, allows u d) :
    ReachableUnder allows (World.after ds) := by
  have further (w : World) (start : ReachableUnder allows w) : ReachableUnder allows (ds.foldl Effect.after w) := by
    induction ds generalizing w with
    | nil => exact start
    | cons d rest ih =>
      exact ih (fun d' listed => allowed d' (List.mem_cons_of_mem d listed)) _
        (Relation.ReflTransGen.tail start (.effect d (allowed d List.mem_cons_self w)))
  exact further _ Relation.ReflTransGen.refl

/-- Each of some effects is allowed where it is done. -/
def Effect.AllowedFrom (allows : World → Effect → Prop) : World → List Effect → Prop
  | _, [] => True
  | w, d :: rest => allows w d ∧ AllowedFrom allows (d.after w) rest

theorem Effect.AllowedFrom.append {ds es : List Effect} (near : AllowedFrom allows w ds)
    (far : AllowedFrom allows (ds.foldl Effect.after w) es) : AllowedFrom allows w (ds ++ es) := by
  induction ds generalizing w with
  | nil => exact far
  | cons d rest ih => exact ⟨near.1, ih near.2 far⟩

theorem Effect.AllowedFrom.execution {ds : List Effect} (allowed : AllowedFrom allows w ds) :
    ExecutionUnder allows w (ds.foldl Effect.after w) := by
  induction ds generalizing w with
  | nil => exact Relation.ReflTransGen.refl
  | cons d rest ih => exact Relation.ReflTransGen.head (.effect d allowed.1) (ih allowed.2)

theorem reachableUnder_of_allowed {ds : List Effect} (allowed : Effect.AllowedFrom allows World.initial ds) :
    ReachableUnder allows (World.after ds) :=
  allowed.execution

/-- A host, a plugin on it, and two constructors, the second of which descends from the first. -/
def Effect.family : List Effect :=
  [.makeHost, .newObject (.obj 1) [], .makePlugin 0 {} (.obj 11),
    .defineConstructor 0 { name := .str "Base" } .null .null [] [],
    .defineConstructor 0 { name := .str "Sub" } .null (.obj 17) [] []]

/-- The value can be the link of an object: null or an object. -/
def IsLink (v : Value) : Prop :=
  v = .null ∨ ∃ o, v = .obj o

/-- What a run may do by itself: link an object to a value that is no object, make a host function without defining
it, and which names methods and statics of a constructor may have. -/
structure Licence where
  objects : Prop
  functions : Prop
  methods : Value → Prop
  statics : Key → Prop

/-- The effect keeps to the licence. An object that is constructed has the link which the host function was made
with, so a licence for host functions extends to objects. -/
def Effect.Within (l : Licence) : Effect → Prop
  | .newObject proto _ => l.objects ∨ l.functions ∨ IsLink proto
  | .newFunction _ _ _ _ => l.functions
  | .defineConstructor _ _ _ _ methods statics =>
    (∀ m ∈ methods, l.methods m.1.value) ∧ ∀ m ∈ statics, l.statics m.1.key
  | _ => True

/-- All host functions come with a host or by definition. Names of methods have to have texts, for a definition that
stops at a method leaves a host function behind that no one ever sees. -/
def Licence.definitions (statics : Key → Prop) : Licence :=
  ⟨True, False, Writable, statics⟩

theorem Effect.family_within (statics : Key → Prop) : ∀ d ∈ family, d.Within (.definitions statics) := by
  simp [family, Within, Licence.definitions]

end Overlay
