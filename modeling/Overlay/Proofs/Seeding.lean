import Overlay.Proofs.Ancestry

/-!
# A plugin's first shadows

The roots of a new plugin are four objects at the end of the heap, known to the last member. A plugin comes with its
table already seeded: the shadows of its host's two constructors are roots, and hold their pseudo-prototypes.
-/

namespace Overlay
set_option autoImplicit false

open Act World

namespace Act
variable {w : World}

/-- A put stops and changes nothing, or puts the value under a name into an open bag. -/
theorem putProperty_cases (o : ObjId) (name x : Value) (e : Bool) :
    (exec (putProperty o name x e) w).2 = w ∨ ∃ k, Name.of? name = some k ∧ (w.heap.get o).bag.frozen = false ∧
      exec (putProperty o name x e) w = (.ok (), { w with heap := w.heap.setBag o ((w.heap.get o).bag.put k x e) }) := by
  cases closed : (w.heap.get o).bag.frozen with
  | true =>
    left
    rw [putProperty, exec_get_bind]
    simp only [closed, if_true]
    cases w.bare name <;> rfl
  | false =>
    cases named : Name.of? name with
    | some k => exact .inr ⟨k, rfl, rfl, exec_putProperty x e closed named⟩
    | none =>
      left
      rw [putProperty, exec_get_bind]
      simp only [closed, Bool.false_eq_true, if_false, Name.ofValue, named]
      rfl

/-- Erasing stops and changes nothing, or erases a key from an open bag. -/
theorem eraseProperty_cases (o : ObjId) (name : Value) :
    (exec (eraseProperty o name) w).2 = w ∨ ∃ k, Name.of? name = some k ∧ (w.heap.get o).bag.frozen = false ∧
      (exec (eraseProperty o name) w).2 = { w with heap := w.heap.setBag o ((w.heap.get o).bag.erase k.key) } := by
  cases closed : (w.heap.get o).bag.frozen with
  | true =>
    left
    rw [eraseProperty, exec_get_bind]
    simp only [closed, if_true]
    cases w.bare name <;> rfl
  | false =>
    cases named : Name.of? name with
    | some k => exact .inr ⟨k, rfl, rfl, by rw [exec_eraseProperty closed named]⟩
    | none =>
      left
      rw [eraseProperty, exec_get_bind]
      simp only [closed, Bool.false_eq_true, if_false, Name.ofValue, named]
      rfl

end Act

/-- Setting a property of a value stops and changes nothing, or is a put into an object. -/
theorem Host.put_cases {w : World} (v name x : Value) :
    (exec (Host.put v name x) w).2 = w ∨ ∃ o, v = .obj o ∧
      (exec (Host.put v name x) w).2 = (exec (putProperty o name x true) w).2 := by
  rw [Host.put, exec_get_bind]
  cases checked : checkBase w v name .set with
  | error e => exact .inl rfl
  | ok _ =>
    rw [exec_lift_ok_bind]
    split
    · rename_i o
      refine .inr ⟨o, rfl, ?_⟩
      rcases run : exec (putProperty o name x true) w with ⟨_ | _, u⟩
      · rw [exec_bind_error run]
      · rw [exec_bind_ok run]
        rfl
    · left
      cases w.bare name <;> rfl

namespace Emulation
variable {w : World}

/-- The roots of a plugin to come, the first of which stands at a position. -/
def seedObjects (n : ObjId) (host : Host) (printer : FnId) : List Obj :=
  [⟨.obj host.objectPrototype, ({} : Bag).put (Name.ofText "constructor") (.obj host.object) false, none⟩,
    ⟨.obj n, (({} : Bag).put (Name.ofText "constructor") (.obj (n + 2)) false).put (Name.ofText "toString")
      (.fn printer) false, none⟩,
    ⟨.obj (n + 1), (({} : Bag).put (Name.ofText "prototype") (.obj (n + 1)) false).put (Name.ofText "length")
      (.int 1) false, none⟩,
    ⟨.obj (n + 1), ({} : Bag).put (Name.ofText "prototype") (.obj n) false, none⟩]

theorem exec_seedRoots (h : HostId) (config : Config) :
    exec (seedRoots h config) w = (.ok ⟨w.heap.size, w.heap.size + 1, w.heap.size + 2, w.heap.size + 3⟩,
      Host.extended { w with fns := w.fns.push (.rootPrinter config.constructorText.toValue) }
        (seedObjects w.heap.size (w.host h) w.fns.size) w.nextCategory) := by
  let n := w.heap.size
  let c := w.nextCategory
  let w' : World := { w with fns := w.fns.push (.rootPrinter config.constructorText.toValue) }
  let top : Obj := ⟨.obj (w.host h).objectPrototype,
    ({} : Bag).put (Name.ofText "constructor") (.obj (w.host h).object) false, none⟩
  let B₁ := ({} : Bag).put (Name.ofText "constructor") (.obj (n + 2)) false
  let B₂ := B₁.put (Name.ofText "toString") (.fn w.fns.size) false
  let P₁ := ({} : Bag).put (Name.ofText "prototype") (.obj (n + 1)) false
  let P₂ := P₁.put (Name.ofText "length") (.int 1) false
  -- the world in which the prototype of functions and the function constructor hold so much
  let laid (x : World) (fp function : Bag) (rest : List Obj) : World :=
    Host.extended x ([top, ⟨.obj n, fp, none⟩, ⟨.obj (n + 1), function, none⟩] ++ rest) c
  have start : Host.extended w [] c = w := by simp [Host.extended, c]
  have op : exec (Act.begetFrom (.obj (w.host h).objectPrototype)) w =
      (.ok n, Host.extended w [{ proto := .obj (w.host h).objectPrototype }] c) := start ▸ Host.exec_beget_extended _
  have put₁ : exec (Act.putHidden n (.str "constructor") (.obj (w.host h).object))
      (Host.extended w [{ proto := .obj (w.host h).objectPrototype }] c) = (.ok (), Host.extended w [top] c) :=
    Host.exec_put_extended (i := 0) rfl rfl rfl
  have fp : exec (Act.begetFrom (.obj n)) (Host.extended w [top] c) =
      (.ok (n + 1), Host.extended w [top, { proto := .obj n }] c) := Host.exec_beget_extended _
  have function : exec (Act.begetFrom (.obj (n + 1))) (Host.extended w [top, { proto := .obj n }] c) =
      (.ok (n + 2), laid w {} {} []) := Host.exec_beget_extended _
  have put₂ : exec (Act.putHidden (n + 2) (.str "prototype") (.obj (n + 1))) (laid w {} {} []) =
      (.ok (), laid w {} P₁ []) := Host.exec_put_extended (i := 2) rfl rfl rfl
  have put₃ : exec (Act.putHidden (n + 2) (.str "length") (.int 1)) (laid w {} P₁ []) = (.ok (), laid w {} P₂ []) :=
    Host.exec_put_extended (i := 2) rfl rfl rfl
  have put₄ : exec (Act.putHidden (n + 1) (.str "constructor") (.obj (n + 2))) (laid w {} P₂ []) =
      (.ok (), laid w B₁ P₂ []) := Host.exec_put_extended (i := 1) rfl rfl rfl
  have printer : exec (Act.newFn (.rootPrinter config.constructorText.toValue)) (laid w B₁ P₂ []) =
      (.ok (.fn w.fns.size), laid w' B₁ P₂ []) := rfl
  have put₅ : exec (Act.putHidden (n + 1) (.str "toString") (.fn w.fns.size)) (laid w' B₁ P₂ []) =
      (.ok (), laid w' B₂ P₂ []) := Host.exec_put_extended (w := w') (i := 1) rfl rfl rfl
  have shadow : exec (Act.begetFrom (.obj (n + 1))) (laid w' B₂ P₂ []) =
      (.ok (n + 3), laid w' B₂ P₂ [{ proto := .obj (n + 1) }]) := Host.exec_beget_extended (w := w') _
  have put₆ : exec (Act.putHidden (n + 3) (.str "prototype") (.obj n)) (laid w' B₂ P₂ [{ proto := .obj (n + 1) }]) =
      (.ok (), Host.extended w' (seedObjects n (w.host h) w.fns.size) c) :=
    Host.exec_put_extended (w := w') (i := 3) rfl rfl rfl
  rw [seedRoots, exec_get_bind]
  dsimp only
  rw [exec_bind_ok op, exec_bind_ok put₁, exec_bind_ok fp, exec_bind_ok function, exec_bind_ok put₂, exec_bind_ok put₃,
    exec_bind_ok put₄, exec_bind_ok printer, exec_bind_ok put₅, exec_bind_ok shadow, exec_bind_ok put₆]
  rfl

end Emulation

namespace Host

/-- Setting a property under a text leaves the members of other keys alone. -/
theorem member?_put {w : World} {s : Text} {k : Key} (v x : Value) (other : Key.text s ≠ k) (o : ObjId) :
    (exec (Host.put v (.str s) x) w).2.heap.member? o k = w.heap.member? o k := by
  rcases put_cases v (.str s) x with stopped | ⟨q, rfl, run⟩
  · rw [stopped]
  · rw [run]
    rcases putProperty_cases q (.str s) x true with stopped | ⟨name, named, -, put⟩
    · rw [stopped]
    · obtain rfl : Name.ofText s = name := Option.some.inj named
      rw [put]
      exact Heap.member?_put_other _ _ _ (.inl other)

end Host

namespace Plugin
variable {w : World}

/-- The two roots that are shadows hold the two roots that are their pseudo-prototypes. -/
structure Seeded (h : Heap) (r : Roots) : Prop where
  function : h.member? r.function "prototype" = some (.obj r.functionPrototype)
  objectShadow : h.member? r.objectShadow "prototype" = some (.obj r.objectPrototype)

theorem Seeded.of_same {h k : Heap} {r : Roots} (seeded : Seeded h r)
    (same : ∀ o, k.member? o "prototype" = h.member? o "prototype") : Seeded k r :=
  ⟨(same _).trans seeded.function, (same _).trans seeded.objectShadow⟩

theorem seedRoots_seeded (h : HostId) (config : Config) {r : Roots} {v : World}
    (run : exec (Emulation.seedRoots h config) w = (.ok r, v)) : Seeded v.heap r := by
  rw [Emulation.exec_seedRoots] at run
  obtain ⟨rfl, rfl⟩ := Prod.mk.inj run |>.imp Except.ok.inj id
  refine ⟨?_, ?_⟩
  · rw [Heap.member?, Host.get_extended _ _ _ 2]
    rfl
  · rw [Heap.member?, Host.get_extended _ _ _ 3]
    rfl

/-- Making a plugin stops before the plugin is there, or ends with a plugin over new roots. Whatever the outer bindings
are, no object that was there gets another `prototype`. -/
theorem make_cases (h : HostId) (config : Config) (outers : Value) : ∃ u, Grows 0 w u ∧
    (∀ o, o < w.heap.size → u.heap.member? o "prototype" = w.heap.member? o "prototype") ∧
    ((exec (make h config outers) w).2 = u ∨ ∃ r, Seeded u.heap r ∧
      Emulation.Rooted u.heap (w.host h).objectPrototype r ∧
      (exec (make h config outers) w).2 =
        { u with plugins := u.plugins.push ⟨h, config, r, outers, ⟨seededShadows w (w.host h) r⟩⟩ }) := by
  have aside := (warn_follows config w).world
  rcases warned : exec (warn config) w with ⟨_ | _, v₁⟩
  all_goals rw [warned] at aside
  all_goals have still : Aside w v₁ := aside
  · exact ⟨v₁, .of_aside still, fun o _ => by rw [still.heap], .inl (by rw [make, exec_bind_error warned])⟩
  rw [make, exec_bind_ok warned]
  rcases seeds : exec (Emulation.seedRoots h config) v₁ with ⟨_ | r, v₂⟩
  · rw [Emulation.exec_seedRoots] at seeds
    cases seeds
  obtain ⟨grown₂, -, rooted⟩ := (Emulation.seedRoots_leaves h config (Nat.le_refl v₁.heap.size)).of_run seeds
  have seeded := seedRoots_seeded h config seeds
  have grown : Grows 0 w v₂ := (Grows.of_aside still).trans (grown₂.mono (Nat.zero_le _))
  have old (o : ObjId) (before : o < w.heap.size) : v₂.heap.get o = w.heap.get o := by
    rw [grown₂.old o (by rw [still.heap]; exact before), still.heap]
  have same : seededShadows v₂ (v₂.host h) r = seededShadows w (w.host h) r := by
    have functions := ((Emulation.seedRoots_plain h config v₁).of_run seeds).1.1
    rw [seededShadows, grown.host]
    have categories (o : ObjId) : Host.category? v₂ (.obj o) = Host.category? w (.obj o) := by
      simp only [Host.category?, World.hostFn?, functions, still.heap]
    simp only [categories]
    rfl
  rw [exec_bind_ok seeds, exec_get_bind]
  dsimp only
  have host : v₁.host h = w.host h := by rw [World.host, still.hosts, World.host]
  have grown₃ : Grows 0 v₂ (exec (Host.put outers (.str "Function") (.obj r.function)) v₂).2 :=
    (hostPut_leaves fun o _ => Nat.zero_le o).world
  have members := Host.member?_put (w := v₂) (k := "prototype") outers (.obj r.function)
    (show Key.text "Function" ≠ Key.text "prototype" by decide)
  rcases put : exec (Host.put outers (.str "Function") (.obj r.function)) v₂ with ⟨_ | _, v₃⟩
  all_goals rw [put] at grown₃ members
  · exact ⟨v₃, grown.trans grown₃, fun o before => (members o).trans (Heap.member?_of_get (old o before) _),
      .inl (by rw [exec_bind_error put])⟩
  rw [exec_bind_ok put]
  obtain ⟨v₄, said, -, aside₄⟩ := say_adds (w := v₃)
    (fun _ => .ok (.pluginReady (seededShadows v₂ (v₂.host h) r).length)) fun _ => ⟨_, rfl⟩
  refine ⟨v₄, (grown.trans grown₃).trans (.of_aside aside₄), fun o before => ?_, .inr ⟨r, ?_, ?_, ?_⟩⟩
  · rw [aside₄.heap]
    exact (members o).trans (Heap.member?_of_get (old o before) _)
  · exact (seeded.of_same members).of_same fun o => by rw [aside₄.heap]
  · rw [← host]
    exact rooted.change (grown₃.trail.trans (by rw [aside₄.heap]; exact .refl _))
  · rw [exec_bind_ok said, exec_get_bind, ← same]
    rfl

end Plugin

end Overlay
