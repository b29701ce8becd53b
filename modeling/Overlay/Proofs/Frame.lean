import Overlay.Proofs.Conduct
import Overlay.Proofs.Registration

/-!
# What access changes

Even a question may make shadows, and with them forwarders and entries of the table; but whatever is made is new, so
the questions of the access protocol follow a regime in which no object changes that was there (`Regime.asking`).
Setting and removing a property ask for a shadow first, if it is a callable's, and then edit one bag. The object that is
edited is the `Plugin.target?` of the value, unless it is a shadow that was made on the way.
-/

namespace Overlay
set_option autoImplicit false

open Act World

/-- Nothing changes that was there, but the table of one plugin may get shadows. -/
def Regime.asking (p : PluginId) : Regime where
  step w v := w.Sound → Resolves p w.heap.size w v
  fault _ _ := True
  refl w sound := sound.resolves (.refl _ w)
  trans near far sound :=
    (near sound).trans ((far (near sound).advances.sound).mono (near sound).advances.trail.sameShape.size)
  back _ _ := trivial
  ordinary _ _ _ := trivial

/-! ## Questions -/

section Questions
variable {α : Type} {p : PluginId}

theorem Act.Follows.asking {x : Act α} (h : Follows .aside x) : Follows (.asking p) x :=
  h.mono (fun _ _ aside sound => sound.resolves (.of_aside aside)) fun _ _ _ => trivial

theorem Act.lift_asking (q : Except Fault α) : Follows (.asking p) (liftM q) := by
  intro w
  cases q with
  | error e => exact .of_error rfl (Regime.refl _ w) trivial
  | ok a => exact .of_ok rfl (Regime.refl _ w) trivial

theorem Host.has_asking (h : HostId) (v name : Value) : Follows (.asking p) (Host.has h v name) :=
  .look fun _ => .bind (lift_asking _) fun _ => .bind (lift_asking _) fun _ => .pure _

theorem Host.read_asking (h : HostId) (v name : Value) : Follows (.asking p) (Host.read h v name) :=
  .look fun _ => .bind (lift_asking _) fun _ => .bind (lift_asking _) fun _ => .pure _

end Questions

namespace Plugin

theorem shadowOf_asking (p : PluginId) (f : Value) : Follows (.asking p) (shadowOf p f) := fun _ =>
  ⟨fun sound => (shadowOf_leaves sound (Nat.le_refl _)).world sound, fun _ _ => trivial, fun _ _ => trivial⟩

theorem pseudoPrototype_asking (p : PluginId) (f : Value) : Follows (.asking p) (pseudoPrototype p f) := by
  refine .look fun w => ?_
  split
  · exact .bind (shadowOf_asking p f) fun _ => .look fun _ => lift_asking _
  · split
    · exact .look fun _ => lift_asking _
    · exact .pure _

theorem supplementOf_asking (p : PluginId) (v : Value) : Follows (.asking p) (supplementOf p v) := by
  refine .look fun w => ?_
  split
  · exact .bind (shadowOf_asking p v) fun _ => .pure _
  · exact .bind (lift_asking _) fun _ => pseudoPrototype_asking p _

theorem instanceOf_asking (p : PluginId) (v f : Value) : Follows (.asking p) (instanceOf p v f) := by
  refine .look fun w => .bind (lift_asking _) fun really => ?_
  split
  · exact .pure _
  · exact .bind (pseudoPrototype_asking p f) fun _ => .look fun _ => lift_asking _

theorem read_asking (p : PluginId) (v name : Value) : Follows (.asking p) (read p v name) := by
  refine .look fun w => ?_
  dsimp only
  split
  · exact .bind (shadowOf_asking p v) fun _ => .look fun _ => .bind (lift_asking _) fun _ => lift_asking _
  · refine .bind (Host.has_asking _ v name) fun there => ?_
    split
    · exact Host.read_asking _ v name
    · refine .bind (lift_asking _) fun _ => .bind (pseudoPrototype_asking p _) fun _ => .look fun _ => ?_
      refine .bind (lift_asking _) fun found => ?_
      split
      · exact .pure _
      · exact Host.read_asking _ v name

theorem suppliedKeys_asking (p : PluginId) (v : Value) (names : List Name) :
    Follows (.asking p) (suppliedKeys p v names) :=
  .look fun _ => .filterM fun n => .bind (Host.has_asking _ v n.value) fun _ => .pure _

theorem keys_asking (p : PluginId) (v : Value) : Follows (.asking p) (keys p v) := by
  refine .look fun w => .bind (lift_asking _) fun own => .bind (supplementOf_asking p v) fun supplement => ?_
  split
  · exact .look fun _ => .bind (lift_asking _) fun names => .bind (suppliedKeys_asking p v names) fun _ => .pure _
  · exact .pure _

theorem canRead_asking (p : PluginId) (name v : Value) : Follows (.asking p) (canRead p name v) := by
  refine .look fun w => .bind (Host.has_asking _ v name) fun there => ?_
  split
  · exact .pure _
  · refine .bind (supplementOf_asking p v) fun supplement => ?_
    split
    · exact .look fun _ => .bind (lift_asking _) fun _ => lift_asking _
    · exact .pure _

theorem readOuter_asking (p : PluginId) (name : Value) : Follows (.asking p) (readOuter p name) := by
  refine .look fun w => .bind (canRead_asking p name _) fun there => ?_
  split
  · exact read_asking p _ name
  · exact .look fun _ => .bind (lift_asking _) fun _ v => .of_error rfl (Regime.refl _ v) trivial

end Plugin

namespace Script

/-- The operation asks and does not write. -/
def PluginOp.asks : PluginOp → Bool
  | .typeOf | .instanceOf | .read | .keys | .canRead | .shadowOf | .pseudoPrototype | .supplementOf | .readOuter => true
  | _ => false

/-- Whatever arguments it is given, an operation that asks changes nothing that was there. -/
theorem pluginOp_asking (invoke : Invoker) (p : PluginId) {op : PluginOp} (asks : op.asks = true) (args : List Value) :
    Follows (.asking p) (op.run invoke p args) := by
  refine .look fun w => ?_
  dsimp only
  split
  · exact .bind (lift_asking _) fun _ => .pure _
  · exact .bind (Plugin.instanceOf_asking p _ _) fun _ => .pure _
  · exact Plugin.read_asking p _ _
  · cases asks
  · cases asks
  · exact .bind (Plugin.keys_asking p _) fun _ => (newList_follows _).asking
  · exact .bind (Plugin.canRead_asking p _ _) fun _ => .pure _
  all_goals first | cases asks | skip
  · exact Plugin.readOuter_asking p _
  · exact .bind (Plugin.shadowOf_asking p _) fun _ => .pure _
  · exact Plugin.pseudoPrototype_asking p _
  · exact Plugin.supplementOf_asking p _
  · exact .stop rfl

end Script

/-! ## Edits -/

/-- The object without the property of a key. -/
def Obj.without (x : Obj) (k : Key) : Obj :=
  { x with bag := x.bag.erase k }

namespace Bag

theorem erase_put (b : Bag) (n : Name) (x : Value) (e : Bool) : (b.put n x e).erase n.key = b.erase n.key := by
  unfold erase put insert
  congr 1
  dsimp only
  split
  · -- what is replaced has the key and goes, whatever it holds
    induction b.props with
    | nil => rfl
    | cons q rest ih =>
      by_cases same : q.name.key = n.key
      · simpa [same] using ih
      · simpa [same] using ih
  · simp [List.filter_append]

theorem erase_erase (b : Bag) (k : Key) : (b.erase k).erase k = b.erase k := by
  simp [erase, List.filter_filter]

end Bag

namespace World
variable {p : PluginId} {o : ObjId} {k : Key} {u v w : World}

/-- At most the property of one key of one object was put or erased. -/
inductive Edits (o : ObjId) (k : Key) (w : World) : World → Prop
  | nothing : Edits o k w w
  | one (b : Bag) (change : w.heap.Change (w.heap.setBag o b)) (others : b.erase k = (w.heap.get o).bag.erase k) :
    Edits o k w { w with heap := w.heap.setBag o b }

theorem Edits.without (edits : Edits o k w v) : (v.heap.get o).without k = (w.heap.get o).without k := by
  cases edits with
  | nothing => rfl
  | one b change others =>
    by_cases inside : o < w.heap.size
    · rw [Heap.get_setBag_same b inside, Obj.without, others, Obj.without]
    · have out := Nat.le_of_not_lt inside
      rw [Heap.get_of_size_le (by rw [Heap.size_setBag]; exact out), Heap.get_of_size_le out]

/-- An edit is a growth in which only one object changes. -/
theorem Edits.grows (edits : Edits o k w v) : Grows 0 w v ∧ ∀ a, a ≠ o → v.heap.get a = w.heap.get a := by
  cases edits with
  | nothing => exact ⟨.refl 0 _, fun _ _ => rfl⟩
  | one b change others => exact ⟨.of_change (Nat.zero_le o) change, fun a other => Heap.get_setBag_other _ b other⟩

theorem exec_putProperty_frozen (n : Text) (x : Value) (e : Bool) (frozen : (w.heap.get o).bag.frozen = true) :
    exec (putProperty o (.str n) x e) w = (.error (.frozen .set n), w) := by
  rw [putProperty, exec_get_bind]
  simp only [frozen, if_true]
  rfl

theorem exec_eraseProperty_frozen (n : Text) (frozen : (w.heap.get o).bag.frozen = true) :
    exec (eraseProperty o (.str n)) w = (.error (.frozen .delete n), w) := by
  rw [eraseProperty, exec_get_bind]
  simp only [frozen, if_true]
  rfl

theorem putProperty_edits (o : ObjId) (n : Text) (x : Value) (e : Bool) (w : World) :
    Edits o n w (exec (putProperty o (.str n) x e) w).2 := by
  cases frozen : (w.heap.get o).bag.frozen with
  | true =>
    rw [exec_putProperty_frozen n x e frozen]
    exact .nothing
  | false =>
    rw [exec_putProperty x e frozen (Name.of?_str n)]
    exact .one _ (.put o _ x e frozen) (Bag.erase_put _ (Name.ofText n) x e)

theorem eraseProperty_edits (o : ObjId) (n : Text) (w : World) :
    Edits o n w (exec (eraseProperty o (.str n)) w).2 := by
  cases frozen : (w.heap.get o).bag.frozen with
  | true =>
    rw [exec_eraseProperty_frozen n frozen]
    exact .nothing
  | false =>
    rw [exec_eraseProperty frozen (Name.of?_str n)]
    exact .one _ (.erase o _ frozen) (Bag.erase_erase _ _)

/-- A plugin got shadows and one object was edited in the property of a key, a given one if it was there before. -/
structure Touches (p : PluginId) (target : Option ObjId) (k : Key) (w v : World) : Prop where
  advances : Advances w v
  objects : ∀ o, o < w.heap.size → target ≠ some o → v.heap.get o = w.heap.get o
  target : ∀ o, target = some o → (v.heap.get o).without k = (w.heap.get o).without k
  others : ∀ q, q ≠ p → v.plugin q = w.plugin q
  hosts : v.hosts = w.hosts

theorem Edits.touches (edits : Edits o k w v) (sound : w.Sound) : Touches p (some o) k w v := by
  obtain ⟨grows, others⟩ := edits.grows
  refine ⟨sound.advances grows, fun a _ other => others a fun same => other (congrArg some same.symm), fun a here => ?_,
    fun q _ => grows.plugin q, grows.hosts⟩
  cases here
  exact edits.without

theorem Resolves.touches (resolves : Resolves p w.heap.size w v) (target : Option ObjId)
    (inside : ∀ o, target = some o → o < w.heap.size) : Touches p target k w v :=
  ⟨resolves.advances, fun o old _ => resolves.old o old, fun o here => by rw [resolves.old o (inside o here)],
    resolves.others, resolves.hosts⟩

/-- What is edited after a plugin got shadows is the object given, or a new one. -/
theorem Resolves.edits {target : Option ObjId} (resolves : Resolves p w.heap.size w u) (edits : Edits o k u v)
    (inside : ∀ o, target = some o → o < w.heap.size) (edited : target = some o ∨ w.heap.size ≤ o) :
    Touches p target k w v := by
  obtain ⟨grows, others⟩ := edits.grows
  have later := resolves.advances.sound.advances grows
  refine ⟨resolves.advances.trans later, fun a old other => ?_, fun a here => ?_, fun q other => ?_, ?_⟩
  · have apart : a ≠ o := by
      rintro rfl
      exact edited.elim other (Nat.not_le.2 old)
    rw [others a apart, resolves.old a old]
  · rw [← resolves.old a (inside a here)]
    by_cases this : a = o
    · rw [this, edits.without]
    · rw [others a this]
  · rw [grows.plugin, resolves.others q other]
  · rw [grows.hosts, resolves.hosts]

end World

/-! ## Setting and removing -/

/-- The value has no properties at all. -/
def Datum.isNil : Value → Bool
  | .null | .undefined => true
  | _ => false

namespace Plugin
variable {w v : World} {statics : Key → Prop} {p : PluginId} {f : Value} {o : ObjId} {s : Shadow}

/-- The object that is there and to which a plugin's code writes when it writes to a value: the shadow of a callable,
and any other object itself. -/
def target? (w : World) (p : PluginId) (v : Value) : Option ObjId :=
  if w.isCallable v then (shadow? w p v).map (·.object)
  else
    match v with
    | .obj o => some o
    | _ => none

theorem target?_callable (callable : w.isCallable f = true) : target? w p f = (shadow? w p f).map (·.object) := by
  unfold target?
  rw [if_pos callable]

theorem target?_obj (plain : w.isCallable (.obj o) = false) : target? w p (.obj o) = some o := by
  rw [target?, plain]
  rfl

theorem target?_plain {x : Value} (plain : w.isCallable x = false) (other : ∀ o, x ≠ .obj o) :
    target? w p x = none := by
  unfold target?
  rw [if_neg (by rw [plain]; exact Bool.false_ne_true)]
  split
  · next o => exact absurd rfl (other o)
  · rfl

/-- Does something to the object that a value stands for: to the shadow of a callable, and to any other object itself.
What is no object has an answer of its own. -/
def edit {α : Type} (p : PluginId) (x : Value) (f : ObjId → Act α) (plain : Except Fault α) : Act α := do
  if (← get).isCallable x then shadowOf p x >>= f
  else
    match x with
    | .obj o => f o
    | _ => liftM plain

/-- Sets a visible property, and answers its value. -/
def setting (n : Text) (y : Value) (o : ObjId) : Act Value := do
  putProperty o (.str n) y true
  return y

theorem exec_write (p : PluginId) (x : Value) (n : Text) (y : Value) (w : World) :
    exec (write p x (.str n) y) w = exec (edit p x (setting n y)
      (.error (if x.isNil then .nullBase .set n x.leafText else .primitiveBase n (w.tagWord x)))) w := by
  unfold write edit
  rw [exec_get_bind, exec_get_bind]
  split
  · rfl
  · rcases x with _ | _ | _ | _ | _ | _ | _ | _ | _ | (_ | _ | _ | _ | _) <;> rfl

theorem exec_remove (p : PluginId) (x : Value) (n : Text) (w : World) :
    exec (remove p x (.str n)) w = exec (edit p x (fun o => eraseProperty o (.str n))
      (if x.isNil then .error (.nullBase .delete n x.leafText) else .ok false)) w := by
  unfold remove edit
  rw [exec_get_bind, exec_get_bind]
  split
  · rfl
  · rcases x with _ | _ | _ | _ | _ | _ | _ | _ | _ | (_ | _ | _ | _ | _) <;> rfl

theorem shadowBag_open (w : World) (config : Config) (f : Value) (q : ObjId) :
    (shadowBag w config f q).frozen = false := by
  have copies (source : Bag) (names : List Name) (b : Bag) : (copied source names b).frozen = b.frozen := by
    induction names generalizing b with
    | nil => rfl
    | cons n rest ih => exact ih _
  exact copies _ _ _

/-- The shadow of a callable is found where it was, or is new and open. -/
theorem Raised.fresh {l : List Value} (raised : Raised p l w v) (sound : w.Sound) (found : shadow? v p f = some s) :
    shadow? w p f = some s ∨ w.heap.size ≤ s.object ∧ (v.heap.get s.object).bag.frozen = false := by
  induction raised with
  | nil _ => exact .inl found
  | @cons g rest w u v made further ih =>
    have advances := made.resolves.advances
    rcases ih advances.sound found with before | ⟨new, unfrozen⟩
    · by_cases this : f = g
      · rw [this, made.shadow?_eq] at before
        cases before
        have inside : w.heap.size < u.heap.size := by
          rw [made.size]
          omega
        refine .inr ⟨Nat.le_refl _, ?_⟩
        rw [(further.resolves advances.sound).old _ inside, made.shadow]
        exact shadowBag_open _ _ _ _
      · rw [made.shadow?_other sound this] at before
        exact .inl before
    · exact .inr ⟨Nat.le_trans advances.trail.sameShape.size new, unfrozen⟩

/-- What is given as the shadow of a callable is the target of the callable, or new and open. -/
theorem shadowOf_target (sound : w.Sound) (ancestral : w.Ancestral statics) (bound : p < w.plugins.size)
    (callable : w.isCallable f = true) (run : exec (shadowOf p f) w = (.ok o, v)) :
    target? w p f = some o ∨ w.heap.size ≤ o ∧ (v.heap.get o).bag.frozen = false := by
  obtain ⟨l, done, v', -, raised, ⟨⟨s, run', found⟩, -⟩ | ⟨-, -, e, run'⟩⟩ :=
    shadowOf_raises sound ancestral bound callable
  · obtain ⟨answer, rfl⟩ := Prod.mk.inj (run.symm.trans run')
    cases answer
    rcases raised.fresh sound found with before | new
    · unfold target?
      rw [if_pos callable, before]
      exact .inl rfl
    · exact .inr new
  · cases run.symm.trans run'

theorem target?_inside (sound : w.Sound) (bound : p < w.plugins.size) (callable : w.isCallable f = true)
    (here : target? w p f = some o) : o < w.heap.size := by
  rw [target?_callable callable] at here
  obtain ⟨s, found, rfl⟩ := Option.map_eq_some_iff.1 here
  obtain ⟨c, -, entry⟩ := Option.bind_eq_some_iff.1 found
  exact ((sound.plugins p bound).shadows _ (Registry.mem_of_find? entry)).1.1

/-- What edits an object in the property of a key touches the target of a value. -/
theorem edit_touches {α : Type} {k : Key} {f : ObjId → Act α} {plain : Except Fault α} (sound : w.Sound)
    (ancestral : w.Ancestral statics) (bound : p < w.plugins.size) (edits : ∀ o u, Edits o k u (exec (f o) u).2)
    (x : Value) : Touches p (target? w p x) k w (exec (edit p x f plain) w).2 := by
  unfold edit
  rw [exec_get_bind]
  split
  · next callable =>
    have inside : ∀ o, target? w p x = some o → o < w.heap.size := fun o => target?_inside sound bound callable
    have resolves := (shadowOf_asking p x w).world sound
    rw [exec_bind]
    cases run : exec (shadowOf p x) w with
    | mk r u =>
      rw [run] at resolves
      cases r with
      | error e => exact resolves.touches _ inside
      | ok o =>
        have edited := shadowOf_target sound ancestral bound callable run
        exact resolves.edits (edits o u) inside (edited.imp_right And.left)
  · next refused =>
    have uncallable : w.isCallable x = false := Bool.eq_false_iff.2 refused
    split
    · next o =>
      rw [target?_obj uncallable]
      exact (edits o w).touches sound
    · next other =>
      rw [target?_plain uncallable other, exec_lift]
      exact (sound.resolves (.refl _ w)).touches _ (by rintro _ ⟨⟩)

theorem setting_edits (n : Text) (y : Value) (o : ObjId) (w : World) : Edits o n w (exec (setting n y o) w).2 := by
  have edited := putProperty_edits o n y true w
  rw [setting, exec_bind]
  cases run : exec (putProperty o (.str n) y true) w with
  | mk r u =>
    rw [run] at edited
    cases r <;> exact edited

/-- The frame of the access protocol, where all host functions come with a host or by definition. An operation that asks
changes no object that was there and no entry of a table: it makes objects and appends entries. Setting and removing a
property, whether or not they stop, change no more than that one property of one object that was there, which is the
shadow of a callable and any other object itself; a callable's shadow that was not there is new. So neither a host
function nor its real prototype changes. -/
theorem access_frame (reachable : ReachableUnder (fun _ d => d.Within (.definitions fun _ => True)) w)
    (bound : p < w.plugins.size) :
    (∀ (invoke : Invoker) (op : Script.PluginOp) (args : List Value), op.asks = true →
      Resolves p w.heap.size w (exec (op.run invoke p args) w).2) ∧
    ∀ (x : Value) (n : Text) (y : Value) (u : World),
      u = (exec (write p x (.str n) y) w).2 ∨ u = (exec (remove p x (.str n)) w).2 →
      Touches p (target? w p x) n w u ∧
        ∀ f fn, x = .obj f → w.heap.hostFn? f = some fn →
          ∃ q, fn.prototype = .obj q ∧ u.heap.get f = w.heap.get f ∧ u.heap.get q = w.heap.get q := by
  have sound := reachable.reachable.sound
  have ancestral := reachable.ancestral fun _ _ within => within
  refine ⟨fun invoke op args asks => (Script.pluginOp_asking invoke p asks args w).world sound,
    fun x n y u made => ?_⟩
  have touches : Touches p (target? w p x) n w u := by
    rcases made with rfl | rfl
    · rw [exec_write]
      exact edit_touches sound ancestral bound (setting_edits n y) x
    · rw [exec_remove]
      exact edit_touches sound ancestral bound (fun o => eraseProperty_edits o n) x
  refine ⟨touches, fun f fn _ found => ?_⟩
  obtain ⟨q, descended⟩ := ancestral.functions f fn (Nat.zero_le f) found
  have keeps := touches.advances.trail.keeps
  exact ⟨q, descended.link, keeps f descended.frozen, keeps q descended.sealed⟩

/-- Listing the names of a constructor makes two shadows with their prototypes and changes nothing that was there;
setting a property of the host's object constructor changes that property of its shadow, and not the constructor. -/
theorem access_frame_family : ∃ w u v,
    ReachableUnder (fun _ d => d.Within (.definitions fun _ => True)) w ∧ 0 < w.plugins.size ∧
    w.heap.size = 20 ∧ u.heap.size = 24 ∧ Resolves 0 20 w u ∧
    target? w 0 (.obj 3) = some 15 ∧ w.heap.owns 15 "a" = false ∧ v.heap.owns 15 "a" = true ∧
    Touches 0 (some 15) "a" w v ∧ v.heap.get 3 = w.heap.get 3 := by
  let w := World.after Effect.family
  let invoke : Invoker := fun _ _ => stop .badCall
  let u := (exec (Script.PluginOp.run invoke 0 .keys [.obj 19]) w).2
  let v := (exec (write 0 (.obj 3) (.str "a") .null) w).2
  have reachable : ReachableUnder (fun _ d => d.Within (.definitions fun _ => True)) w :=
    reachableUnder_after fun d listed _ => Effect.family_within _ d listed
  have facts : 0 < w.plugins.size ∧ w.heap.size = 20 ∧ u.heap.size = 24 ∧ target? w 0 (.obj 3) = some 15 ∧
      (w.heap.hostFn? 3).isSome = true ∧ w.heap.owns 15 "a" = false ∧ v.heap.owns 15 "a" = true := by
    decide +kernel
  obtain ⟨bound, size, larger, target, callable, before, after⟩ := facts
  obtain ⟨asking, editing⟩ := access_frame reachable bound
  obtain ⟨fn, found⟩ := Option.isSome_iff_exists.1 callable
  obtain ⟨touches, kept⟩ := editing (.obj 3) "a" .null v (.inl rfl)
  obtain ⟨-, -, same, -⟩ := kept 3 fn rfl found
  rw [target] at touches
  exact ⟨w, u, v, reachable, bound, size, larger, size ▸ asking invoke .keys [.obj 19] rfl, target, before, after,
    touches, same⟩

end Plugin

end Overlay
