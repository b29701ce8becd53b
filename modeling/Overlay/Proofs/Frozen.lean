import Mathlib.Data.List.Chain
import Overlay.Proofs.Running

/-!
# What is frozen never changes

A heap is changed in four ways, and none of them touches a frozen object (`Heap.Change.keeps`); an execution
makes no other changes (`Execution.advances`). So an object that is frozen at any point of a run is the same at every
later point: between two steps, in the middle of one, after one that failed, and inside the functions it calls. The
points are listed one change apart in a trail. The roots of hosts and everything that the two definitions make are
frozen before anyone can see them, and so they never change at all.
-/

namespace Overlay
set_option autoImplicit false

open Act World

namespace Heap

/-- Heaps that come from one another by changes lie on a trail on which at most one thing changes at a time. -/
theorem exists_trail {h : Heap} {heaps : List Heap} (chain : (h :: heaps).IsChain Changes) :
    ∃ trail, (h :: heaps).Sublist (h :: trail) ∧ (h :: trail).IsChain (Relation.ReflGen Change) := by
  induction heaps generalizing h with
  | nil => exact ⟨[], List.Sublist.refl _, .singleton h⟩
  | cons k rest ih =>
    obtain ⟨changes, later⟩ := List.isChain_cons_cons.1 chain
    obtain ⟨trail, sublist, linked⟩ := ih later
    obtain ⟨between, steps, last⟩ := List.exists_isChain_cons_of_relationReflTransGen changes
    refine ⟨between ++ k :: trail, ?_, ?_⟩
    · exact (sublist.trans (List.sublist_append_right between (k :: trail))).cons_cons h
    · -- the two parts meet in `k`, which ends the first and begins the second
      rw [← List.cons_append, List.isChain_append]
      refine ⟨steps.imp fun _ _ change => .single change, linked, fun x ends y begins => ?_⟩
      rw [List.getLast?_eq_some_getLast (List.cons_ne_nil _ _), last] at ends
      rw [List.head?_cons] at begins
      cases ends
      cases begins
      exact .refl

/-- Along a trail everything keeps what was frozen before it. -/
theorem pairwise_keeps {trail : List Heap} (chain : trail.IsChain (Relation.ReflGen Change)) :
    trail.Pairwise Keeps := by
  have keep : ∀ {h k : Heap}, Relation.ReflGen Change h k → Keeps h k := by
    rintro h k (_ | change)
    · exact fun _ _ => rfl
    · exact change.keeps
  have : IsTrans Heap Keeps := ⟨fun _ _ _ => Keeps.trans⟩
  exact List.isChain_iff_pairwise.1 (chain.imp fun _ _ => keep)

end Heap

namespace Host

/-- One of the two definitions ran from the first world to the second and made the function. -/
inductive Defines (w : World) (f : ObjId) (v : World) : Prop
  | function (h : HostId) (impl : Impl) (s : Signature) (ran : exec (defineFunction h impl s) w = (.ok f, v))
  | constructor (h : HostId) (s : Signature) (init parent : Value) (methods statics : List (Name × Value))
    (ran : exec (defineConstructor h s init parent methods statics) w = (.ok f, v))

namespace Defines
variable {w v : World} {f : ObjId}

theorem execution (defines : Defines w f v) : Execution w v := by
  cases defines with
  | function h impl s ran =>
    have moved : Transition w _ := .effect (.defineFunction h impl s)
    rw [Effect.after, ran] at moved
    exact .single moved
  | constructor h s init parent methods statics ran =>
    have moved : Transition w _ := .effect (.defineConstructor h s init parent methods statics)
    rw [Effect.after, ran] at moved
    exact .single moved

theorem sealed (defines : Defines w f v) : v.heap.Sealed f ∧ v.heap.FrozenFrom w.heap.size := by
  cases defines with
  | function h impl s ran =>
    have made := (defineFunction_leaves h impl s (Nat.le_refl w.heap.size)).value f (by rw [ran])
    rw [ran] at made
    exact made.2
  | constructor h s init parent methods statics ran =>
    have made := (defineConstructor_leaves h s init parent methods statics (Nat.le_refl w.heap.size)).value f
      (by rw [ran])
    rw [ran] at made
    exact made.2

end Defines

end Host

namespace Script

/-- Frozen means frozen. The worlds between the steps of a run, and those passed on the way, lie on a trail of
heaps with at most one change from each to the next, and whatever is frozen at a place of the trail is the same
object at every later place. Steps in the bodies of functions keep what is frozen when they begin, however deep they
are nested and also when they fail. From when they are made, nothing changes the roots of a host, or a defined function,
its prototype, or anything else that the definition made. -/
theorem frozen_never_changes {settings : Settings} {logging : Bool} {w : World}
    (started : start settings logging = .ok w) (depth : Nat) (steps : List Step) :
    (∃ trail, (World.initial.heap :: (worlds depth w steps).map (·.heap)).Sublist trail ∧
      trail.IsChain (Relation.ReflGen Heap.Change) ∧ trail.Pairwise Heap.Keeps) ∧
    ((∀ v ∈ worlds depth w steps, Reachable v) ∧ (worlds depth w steps).Pairwise Execution) ∧
    ∀ u, Reachable u →
      (∀ levels taken s, u.heap.Keeps (exec (evalStep (invokeAfter levels taken) s) u).2.heap) ∧
      (∀ v, Execution u v → ∀ h, h < u.hosts.size → (v.host h).roots = (u.host h).roots ∧
        ∀ o ∈ (u.host h).roots, v.heap.get o = u.heap.get o) ∧
      ∀ f v, Host.Defines u f v → ∃ fn p, v.heap.hostFn? f = some fn ∧ fn.prototype = .obj p ∧
        ∀ t, Execution v t → ∀ o, o = f ∨ o = p ∨ u.heap.size ≤ o ∧ o < v.heap.size →
          t.heap.get o = v.heap.get o := by
  have reachable := start_reachable started
  obtain ⟨pairwise, reached⟩ := worlds_execution depth w steps
  refine ⟨?_, ⟨fun v here => reachable.execution (reached v here), pairwise⟩, fun u now => ⟨?_, ?_, ?_⟩⟩
  · have executions : (World.initial :: worlds depth w steps).Pairwise Execution :=
      List.pairwise_cons.2 ⟨fun v here => reachable.execution (reached v here), pairwise⟩
    have changes : (World.initial :: worlds depth w steps).Pairwise fun v u => v.heap.Changes u.heap := by
      refine executions.imp_of_mem fun {v u} here _ execution => (execution.advances ?_).trail
      rcases List.mem_cons.1 here with rfl | later
      · exact World.initial_sound
      · exact (reachable.execution (reached v later)).sound
    have chain : (World.initial.heap :: (worlds depth w steps).map (·.heap)).IsChain Heap.Changes :=
      (List.pairwise_map.2 changes).isChain
    obtain ⟨trail, sublist, linked⟩ := Heap.exists_trail chain
    exact ⟨World.initial.heap :: trail, sublist, linked, Heap.pairwise_keeps linked⟩
  · intro levels taken s
    have execution := (evalStep_execution (invokeAfter_execution levels taken) s u).world
    exact (Execution.advances now.sound execution).trail.keeps
  · intro v execution h bound
    have advances := execution.advances now.sound
    exact ⟨advances.roots bound, fun o root => advances.trail.keeps o ((now.sound.hosts h).frozen o root)⟩
  · intro f v defines
    obtain ⟨⟨frozen, fn, p, found, link, frozen'⟩, new⟩ := defines.sealed
    refine ⟨fn, p, found, link, fun t execution o made => ?_⟩
    have keeps := (execution.advances (now.execution defines.execution).sound).trail.keeps
    rcases made with rfl | rfl | ⟨above, inside⟩
    · exact keeps o frozen
    · exact keeps o frozen'
    · exact keeps o (new o above inside)

theorem frozen_never_changes_roots : ∃ w, start {} false = .ok w ∧ ∀ o ∈ (w.host 0).roots,
    ((perform stackDepth w (.makeHost "g")).2.heap.get o) = w.heap.get o := by
  obtain ⟨w, started, hosts, -⟩ := start_default
  obtain ⟨-, ⟨reachable, executions⟩, frozen⟩ := frozen_never_changes started stackDepth [.makeHost "g"]
  have execution : Execution w (perform stackDepth w (.makeHost "g")).2 :=
    (List.pairwise_cons.1 executions).1 _ (List.mem_singleton_self _)
  obtain ⟨-, roots, -⟩ := frozen w (reachable w List.mem_cons_self)
  exact ⟨w, started, (roots _ execution 0 (hosts ▸ Nat.zero_lt_one)).2⟩

end Script

end Overlay
