import Overlay.Proofs.Frame
import Overlay.Proofs.WellFormed

/-!
# When access stops

Null and undefined have no properties, only objects take new ones, and a frozen object takes and loses none. The access
protocol stops for no other reason, as long as walks along links end, registered constructors are host functions, and
lines of the log can be written. `InOrder` is such a world of a plugin. It stays in order while the plugin resolves what
it is asked, so that an action ends if each of its questions has an answer (`Ends`).
-/

namespace Overlay
set_option autoImplicit false

open Act World

/-! ## Bases -/

theorem Heap.enumerableKeys_ends {h : Heap} {o : ObjId} (whole : h.isWhole o = true) :
    ∃ names, h.enumerableKeys o = .ok names := by
  rw [enumerableKeys, atEnd, if_pos whole]
  exact ⟨_, rfl⟩

theorem Name.key_ofValue (n : Name) : Key.ofValue n.value = .ok n.key := by
  rw [Key.ofValue, Name.ofValue, Name.of?_value]
  rfl

namespace Host
variable {w : World} {h : HostId} {v : Value}

theorem checkBase_of_base (base : v.isNil = false) (name : Value) (access : Access) :
    checkBase w v name access = .ok () := by
  cases v <;> first | rfl | cases base

/-- A value that has properties has those that a look-up finds. -/
theorem exec_has (base : v.isNil = false) (name : Value) :
    exec (has h v name) w = ((·.isSome) <$> search w h v name, w) := by
  rw [has, exec_get_bind, checkBase_of_base base, exec_lift_ok_bind]
  cases search w h v name <;> rfl

theorem exec_read (base : v.isNil = false) (name : Value) :
    exec (read h v name) w = ((·.getD .undefined) <$> search w h v name, w) := by
  rw [read, exec_get_bind, checkBase_of_base base, exec_lift_ok_bind]
  cases search w h v name <;> rfl

theorem exec_has_nil (nil : v.isNil = true) (name : Value) : ∃ e, exec (has h v name) w = (.error e, w) := by
  cases v with
  | null | undefined =>
    rw [has, exec_get_bind, checkBase]
    cases w.bare name with
    | error e => exact ⟨e, rfl⟩
    | ok t => exact ⟨_, rfl⟩
  | _ => cases nil

theorem exec_has_nil_str (nil : v.isNil = true) (n : Text) :
    exec (has h v (.str n)) w = (.error (.nullBase .read n v.leafText), w) := by
  cases v <;> first | rfl | cases nil

/-- The constructor that is registered for a plain value. -/
def registered? (w : World) (h : HostId) (v : Value) : Option Value :=
  ((Primitive.of? v).bind fun kind => (w.host h).primitives.lookup kind).filter (!·.isNull)

theorem mem_primitives {x : Host} {kind : Primitive} {ctor : Value} (entry : x.primitives.lookup kind = some ctor) :
    (kind, ctor) ∈ x.primitives := by
  obtain ⟨before, after, split, -⟩ := List.lookup_eq_some_iff.1 entry
  rw [split]
  exact List.mem_append_right before List.mem_cons_self

end Host

/-! ## Worlds in order -/

/-- What is registered as the constructor of plain values is a host function, or null. -/
def World.Constructs (w : World) : Prop :=
  ∀ h kind ctor, (kind, ctor) ∈ (w.host h).primitives →
    ctor = .null ∨ ∃ o fn, ctor = .obj o ∧ w.heap.hostFn? o = some fn

/-- What the hosts hold tells whether they were given constructors. -/
theorem World.constructs_iff {w : World} : w.Constructs ↔
    (w.hosts.all fun x => x.primitives.all fun e => e.2.isNull || (w.hostFn? e.2).isSome) = true := by
  have shown (ctor : Value) : (ctor.isNull || (w.hostFn? ctor).isSome) = true ↔
      ctor = .null ∨ ∃ o fn, ctor = .obj o ∧ w.heap.hostFn? o = some fn := by
    rcases ctor with _ | _ | _ | _ | _ | _ | _ | _ | _ | (_ | _ | _ | _ | _) <;>
      simp [Datum.isNull, World.hostFn?, Option.isSome_iff_exists]
  simp only [Array.all_eq_true_iff_forall_mem, List.all_eq_true, shown]
  constructor
  · intro given x listed e registered
    obtain ⟨h, here⟩ := Array.mem_iff_getElem?.1 listed
    have same : w.host h = x := by rw [World.host, here]; rfl
    exact given h e.1 e.2 (same ▸ registered)
  · intro given h kind ctor registered
    cases found : w.hosts[h]? with
    | none =>
      rw [World.host, found] at registered
      cases registered
    | some x =>
      rw [World.host, found] at registered
      exact given x (Array.mem_of_getElem? found) _ registered

instance (w : World) : Decidable w.Constructs :=
  decidable_of_iff _ World.constructs_iff.symm

theorem Effect.family_lawful (statics : Key → Prop) :
    AllowedFrom (fun u d => d.Lawful u ∧ d.Within (.definitions statics)) World.initial family :=
  family_given True statics false

namespace Plugin
variable {w v : World} {p : PluginId} {f : Value}

/-- A world in which nothing keeps a plugin from resolving what it is asked. -/
structure InOrder (w : World) (p : PluginId) : Prop where
  sound : w.Sound
  bound : p < w.plugins.size
  ancestral : w.Ancestral fun _ => True
  intact : w.Intact True
  legible : w.Legible
  constructs : w.Constructs

namespace InOrder

/-- A callable gets its shadow, and the world stays in order. -/
theorem shadowOf (order : InOrder w p) (callable : w.isCallable f = true) :
    ∃ s v, exec (shadowOf p f) w = (.ok s.object, v) ∧ shadow? v p f = some s ∧ InOrder v p := by
  obtain ⟨l, s, v, -, raised, run, found, kept, legible⟩ :=
    shadowOf_legible order.sound order.ancestral order.intact order.bound callable order.legible
  have resolves := raised.resolves order.sound
  refine ⟨s, v, run, found, resolves.advances.sound, ?_, raised.ancestral order.sound order.ancestral, kept.intact,
    legible, fun h kind ctor listed => ?_⟩
  · rw [resolves.plugins]
    exact order.bound
  · rw [World.host, resolves.hosts] at listed
    refine (order.constructs h kind ctor listed).imp_right ?_
    rintro ⟨o, fn, rfl, host⟩
    exact ⟨o, fn, rfl, resolves.advances.trail.hostFn? host⟩

/-! Every question about real objects has an answer. -/

theorem whole (order : InOrder w p) (o : ObjId) : w.heap.isWhole o = true :=
  (order.intact.walk o).2

theorem enumerated (order : InOrder w p) (o : ObjId) : ∃ names, w.heap.enumerableKeys o = .ok names :=
  Heap.enumerableKeys_ends (order.whole o)

theorem inherits (order : InOrder w p) (o q : ObjId) : ∃ b, w.heap.inherits o q = .ok b := by
  rw [Heap.inherits]
  split
  · exact ⟨_, rfl⟩
  · rw [Heap.atEnd, order.whole]
    exact ⟨_, rfl⟩

theorem prototypeOf (order : InOrder w p) (h : HostId) (x : Value) :
    ∃ proto, Host.prototypeOf w h x = .ok proto ∧ IsLink proto := by
  unfold Host.prototypeOf
  split
  · next o =>
    refine ⟨_, rfl, ?_⟩
    rcases order.intact.link o with null | ⟨q, link, -⟩
    · exact .inl null
    · exact .inr ⟨q, link⟩
  · split
    · exact ⟨_, rfl, .inr ⟨_, rfl⟩⟩
    · split
      · next ctor listed =>
        obtain ⟨kind, -, entry⟩ := Option.bind_eq_some_iff.1 listed
        rcases order.constructs h kind ctor (Host.mem_primitives entry) with rfl | ⟨o, fn, rfl, host⟩
        · exact ⟨.null, rfl, .inl rfl⟩
        · obtain ⟨q, descended⟩ := order.ancestral.functions o fn (Nat.zero_le o) host
          refine ⟨.obj q, ?_, .inr ⟨q, rfl⟩⟩
          rw [Host.primitivePrototype, World.hostFn?, host]
          exact congrArg Except.ok descended.link
      · exact ⟨_, rfl, .inl rfl⟩

theorem searchStart (order : InOrder w p) (h : HostId) (x : Value) : ∃ start, Host.searchStart w h x = .ok start := by
  unfold Host.searchStart
  split
  · exact ⟨_, rfl⟩
  · obtain ⟨proto, answer, null | ⟨q, link⟩⟩ := order.prototypeOf h x
    · rw [answer, null]
      exact ⟨_, rfl⟩
    · rw [answer, link]
      exact ⟨_, rfl⟩

theorem search (order : InOrder w p) (h : HostId) (x : Value) (n : Name) :
    ∃ found, Host.search w h x n.value = .ok found := by
  obtain ⟨start, answer⟩ := order.searchStart h x
  rw [Host.search, answer, n.key_ofValue]
  cases start with
  | none => exact ⟨_, rfl⟩
  | some o => exact Heap.search_ends (order.whole o) n.key

theorem enumerableKeys (order : InOrder w p) (h : HostId) (x : Value) :
    ∃ names, Host.enumerableKeys w h x = .ok names := by
  obtain ⟨start, answer⟩ := order.searchStart h x
  rw [Host.enumerableKeys, answer]
  cases start with
  | none => exact ⟨_, rfl⟩
  | some o => exact order.enumerated o

theorem directConstructor (order : InOrder w p) (h : HostId) (x : Value) :
    ∃ ctor, Host.directConstructor w h x = .ok ctor := by
  obtain ⟨proto, answer, null | ⟨q, link⟩⟩ := order.prototypeOf h x
  · rw [Host.directConstructor, answer, null]
    exact ⟨_, rfl⟩
  · rw [Host.directConstructor, answer, link]
    exact ⟨_, rfl⟩

theorem inheritsFrom (order : InOrder w p) (h : HostId) (x proto : Value) :
    ∃ b, Host.inheritsFrom w h x proto = .ok b := by
  unfold Host.inheritsFrom
  split
  · split
    · exact order.inherits _ _
    · split
      · dsimp only
        split
        · exact ⟨_, rfl⟩
        · exact order.inherits _ _
      · exact ⟨_, rfl⟩
  · exact ⟨_, rfl⟩

end InOrder

/-! ## Actions that end -/

/-- The action ends, in a world in order. -/
def Ends {α : Type} (p : PluginId) (x : Act α) (w : World) : Prop :=
  ∃ a v, exec x w = (.ok a, v) ∧ InOrder v p

namespace Ends
variable {α β : Type} {x : Act α} {next : α → Act β}

theorem pure (order : InOrder w p) (a : α) : Ends p (pure a) w :=
  ⟨a, w, rfl, order⟩

theorem lift {q : Except Fault α} (order : InOrder w p) (answer : ∃ a, q = .ok a) : Ends p (liftM q) w := by
  obtain ⟨a, rfl⟩ := answer
  exact ⟨a, w, rfl, order⟩

theorem bind (first : Ends p x w) (then_ : ∀ a v, InOrder v p → Ends p (next a) v) : Ends p (x >>= next) w := by
  obtain ⟨a, v, run, order⟩ := first
  obtain ⟨b, u, run', order'⟩ := then_ a v order
  exact ⟨b, u, (exec_bind_ok run).trans run', order'⟩

theorem ask {q : Except Fault α} (answer : ∃ a, q = .ok a) (then_ : ∀ a, Ends p (next a) w) :
    Ends p (liftM q >>= next) w := by
  obtain ⟨a, rfl⟩ := answer
  exact then_ a

theorem bind_get {next : World → Act β} (rest : Ends p (next w) w) : Ends p (get >>= next) w :=
  rest

theorem filterM {test : Name → Act Bool} (order : InOrder w p)
    (round : ∀ n u, InOrder u p → Ends p (test n) u) (l : List Name) : Ends p (l.filterM test) w := by
  have loop : ∀ kept w, InOrder w p → Ends p (List.filterAuxM test l kept) w := by
    induction l with
    | nil => exact fun kept w order => .pure order kept
    | cons n rest ih => exact fun kept w order => .bind (round n w order) fun _ v order' => ih _ v order'
  exact .bind (loop [] w order) fun _ v order' => .pure order' _

end Ends

theorem pseudoPrototype_ends (order : InOrder w p) (f : Value) : Ends p (pseudoPrototype p f) w := by
  refine .bind_get ?_
  split
  · next callable =>
    obtain ⟨s, v, run, -, order'⟩ := order.shadowOf callable
    exact .bind ⟨s.object, v, run, order'⟩ fun s u order => .bind_get (.lift order (Heap.lookup_ends (order.whole s) _))
  · split
    · exact .bind_get (.lift order (Heap.lookup_ends (order.whole _) _))
    · exact .pure order _

theorem supplementOf_ends (order : InOrder w p) (x : Value) : Ends p (supplementOf p x) w := by
  refine .bind_get ?_
  split
  · next callable =>
    obtain ⟨s, v, run, -, order'⟩ := order.shadowOf callable
    exact .bind ⟨s.object, v, run, order'⟩ fun s u order => .pure order _
  · exact .bind (.lift order (order.directConstructor _ x)) fun ctor u order => pseudoPrototype_ends order ctor

theorem instanceOf_ends (order : InOrder w p) (x f : Value) : Ends p (instanceOf p x f) w := by
  refine .bind_get (.bind (.lift order (order.inheritsFrom _ x _)) fun really u order => ?_)
  split
  · exact .pure order _
  · refine .bind (pseudoPrototype_ends order f) fun proto u order => ?_
    exact .bind_get (.lift order (order.inheritsFrom _ x proto))

theorem has_ends (order : InOrder w p) {x : Value} (base : x.isNil = false) (h : HostId) (n : Name) :
    Ends p (Host.has h x n.value) w := by
  obtain ⟨found, answer⟩ := order.search h x n
  exact ⟨found.isSome, w, by rw [Host.exec_has base, answer]; rfl, order⟩

theorem hostRead_ends (order : InOrder w p) {x : Value} (base : x.isNil = false) (h : HostId) (n : Name) :
    Ends p (Host.read h x n.value) w := by
  obtain ⟨found, answer⟩ := order.search h x n
  exact ⟨found.getD .undefined, w, by rw [Host.exec_read base, answer]; rfl, order⟩

theorem supplied_ends (order : InOrder w p) (config : Config) (supplement : Value) (n : Name) :
    ∃ found, supplied w config supplement n.value = .ok found := by
  unfold supplied
  split
  · next o =>
    obtain ⟨found, answer⟩ := Heap.search_ends (order.whole o) n.key
    rw [n.key_ofValue]
    simp only [bind, Except.bind, answer]
    exact ⟨_, rfl⟩
  · exact ⟨_, rfl⟩

theorem read_ends (before : InOrder w p) {x : Value} (base : x.isNil = false) (n : Name) :
    Ends p (read p x n.value) w := by
  refine .bind_get ?_
  dsimp only
  split
  · next callable =>
    obtain ⟨s, v, run, -, order'⟩ := before.shadowOf callable
    refine .bind ⟨s.object, v, run, order'⟩ fun s u order => .bind_get ?_
    exact .ask ⟨n.key, n.key_ofValue⟩ fun k => .lift order (Heap.lookup_ends (order.whole s) k)
  · refine .bind (has_ends before base _ n) fun there u order => ?_
    split
    · exact hostRead_ends order base _ n
    · refine .ask (before.directConstructor _ x) fun ctor => ?_
      refine .bind (pseudoPrototype_ends order ctor) fun proto u order => ?_
      refine .bind_get (.ask (supplied_ends order _ proto n) fun found => ?_)
      split
      · exact .pure order _
      · exact hostRead_ends order base _ n

theorem canRead_ends (before : InOrder w p) {x : Value} (base : x.isNil = false) (n : Name) :
    Ends p (canRead p n.value x) w := by
  refine .bind_get (.bind (has_ends before base _ n) fun there u order => ?_)
  split
  · exact .pure order _
  · refine .bind (supplementOf_ends order x) fun supplement u order => ?_
    split
    · refine .bind_get (.ask ⟨n.key, n.key_ofValue⟩ fun k => .lift order ?_)
      obtain ⟨found, answer⟩ := Heap.search_ends (order.whole _) k
      rw [Heap.has, answer]
      exact ⟨_, rfl⟩
    · exact .pure order _

theorem keys_ends (order : InOrder w p) {x : Value} (base : x.isNil = false) : Ends p (keys p x) w := by
  refine .bind_get (.ask (order.enumerableKeys _ x) fun own => .bind (supplementOf_ends order x)
    fun supplement u order => ?_)
  split
  · refine .bind_get (.ask (order.enumerated _) fun names => .bind (.bind_get ?_) fun _ u order => .pure order _)
    exact .filterM order (fun n u order => .bind (has_ends order base _ n) fun _ u order => .pure order _) names
  · exact .pure order _

/-! ## Null and undefined -/

section Nil
variable {x : Value}

theorem plain_of_nil (nil : x.isNil = true) : w.isCallable x = false ∧ ∀ o, x ≠ .obj o := by
  cases x <;> first | exact ⟨rfl, nofun⟩ | cases nil

theorem read_nil (nil : x.isNil = true) (n : Text) :
    exec (read p x (.str n)) w = (.error (.nullBase .read n x.leafText), w) := by
  rw [read, exec_get_bind]
  simp only [(plain_of_nil nil).1, Bool.false_eq_true, if_false]
  exact exec_bind_error (Host.exec_has_nil_str nil n)

theorem canRead_nil (nil : x.isNil = true) (n : Text) :
    exec (canRead p (.str n) x) w = (.error (.nullBase .read n x.leafText), w) := by
  rw [canRead, exec_get_bind]
  exact exec_bind_error (Host.exec_has_nil_str nil n)

/-- Without a registered constructor there is no supplement. -/
theorem supplementOf_unregistered (nil : x.isNil = true) (none : Host.registered? w (w.plugin p).host x = none) :
    exec (supplementOf p x) w = (.ok .undefined, w) := by
  have plain := (plain_of_nil (w := w) nil).1
  have proto : Host.prototypeOf w (w.plugin p).host x = .ok .null := by
    unfold Host.prototypeOf
    split
    · cases nil
    · rw [plain, if_neg Bool.false_ne_true]
      split
      · next ctor entry =>
        rw [Host.registered?, entry, Option.filter_some] at none
        have null : ctor.isNull = true := by
          cases isNull : ctor.isNull with
          | true => rfl
          | false => simp [isNull] at none
        rw [Host.primitivePrototype, if_pos null]
      · rfl
  rw [supplementOf, exec_get_bind]
  simp only [plain, Bool.false_eq_true, if_false, Host.directConstructor, proto]
  rfl

/-- The first name that a supplement lists for null or undefined is asked of it, and it has no properties. -/
theorem suppliedKeys_nil (nil : x.isNil = true) (n : Name) (rest : List Name) :
    ∃ e, exec (suppliedKeys p x (n :: rest)) w = (.error e, w) := by
  obtain ⟨e, run⟩ := Host.exec_has_nil (w := w) (h := (w.plugin p).host) nil n.value
  refine ⟨e, ?_⟩
  rw [suppliedKeys, exec_get_bind]
  exact exec_bind_error (exec_bind_error (exec_bind_error run))

theorem keys_nil_error_iff (order : InOrder w p) (nil : x.isNil = true) :
    (∃ e, (exec (keys p x) w).1 = .error e) ↔
      ∃ o u names, exec (supplementOf p x) w = (.ok (.obj o), u) ∧
        u.heap.enumerableKeys o = .ok names ∧ names ≠ [] := by
  obtain ⟨own, listed⟩ := order.enumerableKeys (w.plugin p).host x
  obtain ⟨supplement, u, run, order'⟩ := supplementOf_ends order x
  rw [keys, exec_get_bind, listed, exec_lift_ok_bind, exec_bind_ok run, run]
  by_cases object : ∃ o, supplement = .obj o
  · obtain ⟨o, rfl⟩ := object
    obtain ⟨names, enumerated⟩ := order'.enumerated o
    simp only [exec_get_bind, enumerated, exec_lift_ok_bind]
    constructor
    · rintro ⟨e, stopped⟩
      refine ⟨o, u, names, rfl, enumerated, ?_⟩
      rintro rfl
      cases stopped
    · rintro ⟨o', u', names', same, enumerated', some_names⟩
      obtain ⟨n, rest, rfl⟩ := List.exists_cons_of_ne_nil some_names
      cases same
      obtain rfl := Except.ok.inj (enumerated.symm.trans enumerated')
      obtain ⟨e, stopped⟩ := suppliedKeys_nil (w := u) (p := p) nil n rest
      exact ⟨e, by rw [exec_bind_error stopped]⟩
  · constructor
    · rintro ⟨e, stopped⟩
      split at stopped
      · exact absurd ⟨_, rfl⟩ object
      · cases stopped
    · rintro ⟨o, u', names, same, -⟩
      cases same
      exact absurd ⟨o, rfl⟩ object

end Nil

/-! ## Frozen targets -/

/-- The object that is there and takes what is written to a value is frozen. -/
def TargetFrozen (w : World) (p : PluginId) (x : Value) : Prop :=
  ∃ o, target? w p x = some o ∧ (w.heap.get o).bag.frozen = true

/-- What was made as the shadow of a callable is frozen just if the target was. -/
theorem targetFrozen_iff (order : InOrder w p) (callable : w.isCallable f = true) {o : ObjId}
    (run : exec (shadowOf p f) w = (.ok o, v)) : TargetFrozen w p f ↔ (v.heap.get o).bag.frozen = true := by
  unfold TargetFrozen
  rw [target?_callable callable]
  cases known : shadow? w p f with
  | some s =>
    cases run.symm.trans (exec_shadowOf_known known)
    simp
  | none =>
    have edited := shadowOf_target order.sound order.ancestral order.bound callable run
    rw [target?_callable callable, known] at edited
    rcases edited with there | ⟨-, unfrozen⟩
    · cases there
    · simp [unfrozen]

/-- An edit of what a value stands for stops where the edit of an object does, or with the answer for what is no
object. -/
theorem edit_error_iff {α : Type} {x : Value} {act : ObjId → Act α} {plain : Except Fault α} {stop e : Fault}
    (order : InOrder w p)
    (stops : ∀ o u, (exec (act o) u).1 = .error e ↔ (u.heap.get o).bag.frozen = true ∧ e = stop) :
    (exec (edit p x act plain) w).1 = .error e ↔
      TargetFrozen w p x ∧ e = stop ∨ w.isCallable x = false ∧ (∀ o, x ≠ .obj o) ∧ plain = .error e := by
  unfold edit
  rw [exec_get_bind]
  split
  · next callable =>
    obtain ⟨s, u, run, -, -⟩ := order.shadowOf callable
    rw [exec_bind_ok run, stops, targetFrozen_iff order callable run]
    simp [callable]
  · next refused =>
    have uncallable : w.isCallable x = false := Bool.eq_false_iff.2 refused
    split
    · next o => simp [stops, TargetFrozen, target?_obj uncallable]
    · next other =>
      have object : ∀ o, x ≠ .obj o := other
      simp [TargetFrozen, target?_plain uncallable object, uncallable, object]

/-- An edit that stops has changed nothing, and shadows that were made for it stay. -/
theorem edit_stopped {α : Type} {x : Value} {act : ObjId → Act α} {plain : Except Fault α} {e : Fault} {u : World}
    (sound : w.Sound) (stays : ∀ o v, exec (act o) v = (.error e, u) → u = v)
    (stopped : exec (edit p x act plain) w = (.error e, u)) : Resolves p w.heap.size w u := by
  have unchanged : Resolves p w.heap.size w w := sound.resolves (.refl _ w)
  unfold edit at stopped
  rw [exec_get_bind] at stopped
  split at stopped
  · have resolves := (shadowOf_asking p x w).world sound
    rw [exec_bind] at stopped
    cases run : exec (shadowOf p x) w with
    | mk r v =>
      rw [run] at resolves stopped
      cases r with
      | error e' =>
        cases stopped
        exact resolves
      | ok o =>
        rw [stays o v stopped]
        exact resolves
  · split at stopped
    · rw [stays _ w stopped]
      exact unchanged
    · cases stopped
      exact unchanged

section Editing
variable {u : World} {n : Text} {e : Fault} {o : ObjId}

theorem setting_error_iff (y : Value) :
    (exec (setting n y o) w).1 = .error e ↔ (w.heap.get o).bag.frozen = true ∧ e = .frozen .set n := by
  unfold setting
  cases frozen : (w.heap.get o).bag.frozen with
  | true =>
    rw [exec_bind_error (exec_putProperty_frozen n y true frozen)]
    simp [eq_comm]
  | false =>
    rw [exec_bind_ok (exec_putProperty y true frozen (Name.of?_str n))]
    simp [exec_pure]

theorem erase_error_iff :
    (exec (eraseProperty o (.str n)) w).1 = .error e ↔ (w.heap.get o).bag.frozen = true ∧ e = .frozen .delete n := by
  cases frozen : (w.heap.get o).bag.frozen with
  | true =>
    rw [exec_eraseProperty_frozen n frozen]
    simp [eq_comm]
  | false =>
    rw [exec_eraseProperty frozen (Name.of?_str n)]
    simp

theorem setting_stopped {y : Value} (stopped : exec (setting n y o) w = (.error e, u)) : u = w := by
  obtain ⟨frozen, -⟩ := (setting_error_iff y).1 (congrArg Prod.fst stopped)
  unfold setting at stopped
  rw [exec_bind_error (exec_putProperty_frozen n y true frozen)] at stopped
  exact (congrArg Prod.snd stopped).symm

theorem erase_stopped (stopped : exec (eraseProperty o (.str n)) w = (.error e, u)) : u = w := by
  obtain ⟨frozen, -⟩ := erase_error_iff.1 (congrArg Prod.fst stopped)
  rw [exec_eraseProperty_frozen n frozen] at stopped
  exact (congrArg Prod.snd stopped).symm

end Editing

section Access
variable {x : Value} (n : Text) (e : Fault)

theorem write_error_iff (order : InOrder w p) (y : Value) :
    (exec (write p x (.str n) y) w).1 = .error e ↔
      x.isNil = true ∧ e = .nullBase .set n x.leafText ∨
      x.isNil = false ∧ w.isCallable x = false ∧ (∀ o, x ≠ .obj o) ∧ e = .primitiveBase n (w.tagWord x) ∨
      TargetFrozen w p x ∧ e = .frozen .set n := by
  rw [exec_write, edit_error_iff order fun o u => setting_error_iff y]
  cases nil : x.isNil with
  | true =>
    obtain ⟨uncallable, object⟩ := plain_of_nil (w := w) nil
    simp [uncallable, object, eq_comm, or_comm]
  | false =>
    simp only [Bool.false_eq_true, if_false, Except.error.injEq, false_and, false_or, true_and, @eq_comm _ e]
    exact or_comm

theorem remove_error_iff (order : InOrder w p) :
    (exec (remove p x (.str n)) w).1 = .error e ↔
      x.isNil = true ∧ e = .nullBase .delete n x.leafText ∨ TargetFrozen w p x ∧ e = .frozen .delete n := by
  rw [exec_remove, edit_error_iff order fun o u => erase_error_iff]
  cases nil : x.isNil with
  | true =>
    obtain ⟨uncallable, object⟩ := plain_of_nil (w := w) nil
    simp [uncallable, object, eq_comm, or_comm]
  | false => simp

end Access

/-- An action that ends if the value has properties, and stops with one fault if it has none, stops just then. -/
theorem Ends.error_iff {α : Type} {act : Act α} {x : Value} {stop e : Fault} (ends : x.isNil = false → Ends p act w)
    (stops : x.isNil = true → exec act w = (.error stop, w)) :
    (exec act w).1 = .error e ↔ x.isNil = true ∧ e = stop := by
  cases nil : x.isNil with
  | true =>
    rw [stops nil]
    simp [eq_comm]
  | false =>
    obtain ⟨a, v, run, -⟩ := ends nil
    rw [run]
    simp

/-- The exact conditions under which access stops, where all host functions come with a host or by definition, links
are null or objects, registered constructors are host functions, and there is no log or the texts of host functions can
be written. Reading and asking for a name stop at null and undefined. Setting a property stops there too, at what is
neither callable nor an object, and where the object to be changed is frozen: the value itself, or the shadow of a
callable; removing one stops likewise, but finds nothing in a plain value. Listing the names stops for null and
undefined, if a constructor is registered for them whose supplement has a name to list. No other question stops.
Whatever stops, with any log, has changed no object that was there and no entry of a table. -/
theorem access_failures
    (reachable : ReachableUnder (fun u d => d.Lawful u ∧ d.Within (.definitions fun _ => True)) w)
    (bound : p < w.plugins.size) (constructs : w.Constructs) :
    (w.Legible →
      (∀ (x : Value) (n : Text) (e : Fault),
        ((exec (read p x (.str n)) w).1 = .error e ↔ x.isNil = true ∧ e = .nullBase .read n x.leafText) ∧
        ((exec (canRead p (.str n) x) w).1 = .error e ↔ x.isNil = true ∧ e = .nullBase .read n x.leafText) ∧
        (∀ y, (exec (write p x (.str n) y) w).1 = .error e ↔
          x.isNil = true ∧ e = .nullBase .set n x.leafText ∨
          x.isNil = false ∧ w.isCallable x = false ∧ (∀ o, x ≠ .obj o) ∧ e = .primitiveBase n (w.tagWord x) ∨
          TargetFrozen w p x ∧ e = .frozen .set n) ∧
        ((exec (remove p x (.str n)) w).1 = .error e ↔
          x.isNil = true ∧ e = .nullBase .delete n x.leafText ∨ TargetFrozen w p x ∧ e = .frozen .delete n)) ∧
      (∀ x, (∃ e, (exec (keys p x) w).1 = .error e) ↔
        x.isNil = true ∧ (Host.registered? w (w.plugin p).host x).isSome = true ∧
        ∃ o u names, exec (supplementOf p x) w = (.ok (.obj o), u) ∧ u.heap.enumerableKeys o = .ok names ∧
          names ≠ []) ∧
      (∀ x, (∃ tag, typeOf w p x = .ok tag) ∧ (∀ f, ∃ b u, exec (instanceOf p x f) w = (.ok b, u)) ∧
        (∃ s u, exec (supplementOf p x) w = (.ok s, u)) ∧ ∃ y u, exec (pseudoPrototype p x) w = (.ok y, u))) ∧
    (∀ (invoke : Invoker) (op : Script.PluginOp) (args : List Value) (e : Fault) (u : World), op.asks = true →
      exec (op.run invoke p args) w = (.error e, u) → Resolves p w.heap.size w u) ∧
    ∀ (x : Value) (n : Text) (y : Value) (e : Fault) (u : World),
      exec (write p x (.str n) y) w = (.error e, u) ∨ exec (remove p x (.str n)) w = (.error e, u) →
      Resolves p w.heap.size w u := by
  have sound := reachable.reachable.sound
  have in_order (legible : w.Legible) : InOrder w p := ⟨sound, bound, reachable.ancestral fun _ _ within => within.2,
    (reachable.loosen fun _ _ within => within.1).intact, legible, constructs⟩
  refine ⟨fun legible => ?_, fun invoke op args e u asks stopped => ?_, fun x n y e u => ?_⟩
  · have order := in_order legible
    refine ⟨fun x n e => ⟨?_, ?_, fun y => write_error_iff n e order y, remove_error_iff n e order⟩,
      fun x => ?_, fun x => ?_⟩
    · exact Ends.error_iff (fun base => read_ends order base (Name.ofText n)) fun nil => read_nil nil n
    · exact Ends.error_iff (fun base => canRead_ends order base (Name.ofText n)) fun nil => canRead_nil nil n
    · cases nil : x.isNil with
      | false =>
        obtain ⟨names, u, run, -⟩ := keys_ends order nil
        rw [run]
        simp
      | true =>
        rw [keys_nil_error_iff order nil]
        refine ⟨fun listing => ⟨rfl, ?_, listing⟩, fun conditions => conditions.2.2⟩
        -- without a constructor the supplement would be no object
        cases registered : Host.registered? w (w.plugin p).host x with
        | some ctor => rfl
        | none =>
          obtain ⟨o, u, -, run, -⟩ := listing
          cases (supplementOf_unregistered nil registered).symm.trans run
    · refine ⟨typeOf_ends order.intact x, fun f => ?_, ?_, ?_⟩
      · obtain ⟨b, u, run, -⟩ := instanceOf_ends order x f
        exact ⟨b, u, run⟩
      · obtain ⟨s, u, run, -⟩ := supplementOf_ends order x
        exact ⟨s, u, run⟩
      · obtain ⟨y, u, run, -⟩ := pseudoPrototype_ends order x
        exact ⟨y, u, run⟩
  · have asking := (Script.pluginOp_asking invoke p asks args w).world sound
    rwa [stopped] at asking
  · rintro (stopped | stopped)
    · rw [exec_write] at stopped
      exact edit_stopped sound (fun o v => setting_stopped) stopped
    · rw [exec_remove] at stopped
      exact edit_stopped sound (fun o v => erase_stopped) stopped

/-- The effects that make a family, and a supplement with a visible name for null. -/
def nullFamily : List Effect :=
  Effect.family ++ [.registerPrimitive 0 .null (.obj 17), .shadowOf 0 (.obj 17), .put 21 (.str "extra") .null true]

theorem nullFamily_lawful :
    Effect.AllowedFrom (fun u d => d.Lawful u ∧ d.Within (.definitions fun _ => True)) World.initial nullFamily := by
  refine (Effect.family_lawful _).append ⟨⟨Datum.below_obj.2 ?_, trivial⟩, ⟨Datum.below_obj.2 ?_, trivial⟩,
    ⟨⟨Datum.below_str, Datum.below_null⟩, trivial⟩, trivial⟩
  all_goals decide +kernel

/-- Where a constructor is registered for null and its pseudo-prototype has got a visible name, listing the names of
null stops. Setting a property of the constructor's real prototype stops too, and not so setting one of the constructor,
whose shadow is open. -/
theorem access_failures_null : ∃ w,
    ReachableUnder (fun u d => d.Lawful u ∧ d.Within (.definitions fun _ => True)) w ∧ 0 < w.plugins.size ∧ w.Legible ∧
    w.Constructs ∧ (∃ e, (exec (keys 0 .null) w).1 = .error e) ∧
    (∀ e, (exec (keys 0 .undefined) w).1 ≠ .error e) ∧
    (exec (read 0 .null (.str "a")) w).1 = .error (.nullBase .read "a" "None") ∧
    (exec (write 0 (.obj 16) (.str "a") .null) w).1 = .error (.frozen .set "a") ∧
    (∀ e, (exec (write 0 (.obj 17) (.str "a") .null) w).1 ≠ .error e) := by
  let w := World.after nullFamily
  have reachable : ReachableUnder (fun u d => d.Lawful u ∧ d.Within (.definitions fun _ => True)) w :=
    reachableUnder_of_allowed nullFamily_lawful
  have facts : 0 < w.plugins.size ∧ w.logging = false ∧ w.Constructs ∧
      (Host.registered? w (w.plugin 0).host .null).isSome = true ∧
      (Host.registered? w (w.plugin 0).host .undefined).isSome = false ∧
      (exec (supplementOf 0 .null) w).1.toOption = some (.obj 21) ∧
      ((exec (supplementOf 0 .null) w).2.heap.enumerableKeys 21).toOption = some [Name.ofText "extra"] ∧
      target? w 0 (.obj 16) = some 16 ∧ (w.heap.get 16).bag.frozen = true ∧
      target? w 0 (.obj 17) = some 20 ∧ (w.heap.get 20).bag.frozen = false := by
    decide +kernel
  -- from here on the facts are all that is known of the world
  clear_value w
  obtain ⟨bound, silent, constructs, registered, unregistered, supplement, listing, real, frozen, shadow,
    unfrozen⟩ := facts
  have legible : w.Legible := fun logs => absurd (silent.symm.trans logs) Bool.false_ne_true
  obtain ⟨access, names, -⟩ := (access_failures reachable bound constructs).1 legible
  refine ⟨w, reachable, bound, legible, constructs, (names .null).2 ⟨rfl, registered, ?_⟩, fun e stopped => ?_,
    (access .null "a" _).1.2 ⟨rfl, rfl⟩,
    ((access (.obj 16) "a" _).2.2.1 .null).2 (.inr (.inr ⟨⟨16, real, frozen⟩, rfl⟩)), fun e stopped => ?_⟩
  · exact ⟨21, _, _, Prod.ext (eq_ok_of_toOption supplement) rfl, eq_ok_of_toOption listing, by rintro ⟨⟩⟩
  · have there := ((names .undefined).1 ⟨e, stopped⟩).2.1
    rw [unregistered] at there
    cases there
  · rcases ((access (.obj 17) "a" e).2.2.1 .null).1 stopped with nil | plain | ⟨⟨o, here, closed⟩, -⟩
    · cases nil.1
    · exact plain.2.2.1 17 rfl
    · cases shadow.symm.trans here
      rw [unfrozen] at closed
      cases closed

/-- With a log, and for a constructor whose name is nested too deep for a text: the constructor is neither null nor
undefined, its shadow is open, and yet reading from it, asking for a name and setting one stop, as does asking for its
pseudo-prototype. -/
theorem access_stopped_by_log : ∃ w,
    ReachableUnder (fun u d => d.Lawful u ∧ d.Within (.definitions fun _ => True)) w ∧ 0 < w.plugins.size ∧
    w.Constructs ∧ w.isCallable (.obj 17) = true ∧ ¬ TargetFrozen w 0 (.obj 17) ∧
    (∃ e, (exec (read 0 (.obj 17) (.str "a")) w).1 = .error e) ∧
    (∃ e, (exec (canRead 0 (.str "a") (.obj 17)) w).1 = .error e) ∧
    (∃ e, (exec (write 0 (.obj 17) (.str "a") .null) w).1 = .error e) ∧
    ∃ e, (exec (pseudoPrototype 0 (.obj 17)) w).1 = .error e := by
  let w := Effect.unnamableFamily.foldl Effect.after { World.initial with logging := true }
  have reachable : ReachableUnder (fun u d => d.Lawful u ∧ d.Within (.definitions fun _ => True)) w :=
    Effect.unnamableFamily_reachable True
  have facts : 0 < w.plugins.size ∧ w.Constructs ∧ w.isCallable (.obj 17) = true ∧ target? w 0 (.obj 17) = none ∧
      ¬ Answered (exec (read 0 (.obj 17) (.str "a")) w).1 ∧ ¬ Answered (exec (canRead 0 (.str "a") (.obj 17)) w).1 ∧
      ¬ Answered (exec (write 0 (.obj 17) (.str "a") .null) w).1 ∧
      ¬ Answered (exec (pseudoPrototype 0 (.obj 17)) w).1 := by
    decide +kernel
  clear_value w
  obtain ⟨bound, constructs, callable, unmade, read, canRead, write, prototype⟩ := facts
  refine ⟨w, reachable, bound, constructs, callable, ?_, Answered.exists_error read, Answered.exists_error canRead,
    Answered.exists_error write, Answered.exists_error prototype⟩
  rintro ⟨o, here, -⟩
  cases unmade.symm.trans here

end Plugin

end Overlay
