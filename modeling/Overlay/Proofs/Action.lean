import Overlay.Act

/-!
# How actions end

`Act.exec` runs an action in a world and gives what it yields and the world it leaves; the equations below
run the basic actions. Longer ones are judged by a `Regime`: a preorder of worlds in which an action may move,
and the faults it may stop with. `Act.Leaves` says of an action in one world that it keeps to a regime, and
adds what holds of the value when there is one; `Act.Follows` says it of every world. Both pass through
sequences and loops, so a statement about a library function follows the lines of its definition.

Two faults are told apart from all others, since a plugin reports them in one place only: that a category was
registered twice, and that an outer name cannot be reached. Every regime allows the others, so `NoReport` is all that
has to be known of a question.
-/

namespace Overlay
set_option autoImplicit false

/-- The fault reports that something was registered twice. -/
def Fault.isDuplicate : Fault → Bool
  | .duplicateShadow _ => true
  | _ => false

/-- The fault reports that something was registered twice, or that an outer name cannot be reached. -/
def Fault.isReport : Fault → Bool
  | .duplicateShadow _ => true
  | .unreachable _ => true
  | _ => false

theorem Fault.isDuplicate_of_isReport {e : Fault} (other : e.isReport = false) : e.isDuplicate = false := by
  cases e with
  | duplicateShadow => cases other
  | _ => rfl

/-- The question does not end with one of these reports. -/
def NoReport {α : Type} (q : Except Fault α) : Prop :=
  ∀ e, q = .error e → e.isReport = false

/-- What is asked of an action: in which worlds it may end, and with which faults it may stop. -/
structure Regime where
  step : World → World → Prop
  fault : World → Fault → Prop
  refl : ∀ w, step w w
  trans : ∀ {u v w}, step u v → step v w → step u w
  /-- What may stop an action later may stop it now. -/
  back : ∀ {w v e}, step w v → fault v e → fault w e
  ordinary : ∀ w {e}, e.isReport = false → fault w e

namespace Act
variable {α β : Type}

/-- What an action yields when it starts in a world, and the world in which it ends. -/
def exec (x : Act α) (w : World) : Except Fault α × World :=
  x.run w

@[simp] theorem exec_pure (a : α) (w : World) : exec (pure a) w = (.ok a, w) := rfl

@[simp] theorem exec_stop (f : Fault) (w : World) : exec (stop f : Act α) w = (.error f, w) := rfl

/-- A question is answered without a change. -/
@[simp] theorem exec_lift (q : Except Fault α) (w : World) : exec (liftM q) w = (q, w) := rfl

theorem exec_bind (x : Act α) (f : α → Act β) (w : World) :
    exec (x >>= f) w = match exec x w with
      | (.ok a, v) => exec (f a) v
      | (.error e, v) => (.error e, v) := by
  change (ExceptT.bindCont f (x w).1 (x w).2) = _
  unfold exec ExceptT.run
  rcases x w with ⟨r, v⟩
  cases r <;> rfl

theorem exec_bind_ok {x : Act α} {f : α → Act β} {w v : World} {a : α} (h : exec x w = (.ok a, v)) :
    exec (x >>= f) w = exec (f a) v := by
  rw [exec_bind, h]

theorem exec_bind_error {x : Act α} {f : α → Act β} {w v : World} {e : Fault}
    (h : exec x w = (.error e, v)) : exec (x >>= f) w = (.error e, v) := by
  rw [exec_bind, h]

@[simp] theorem exec_get_bind (f : World → Act β) (w : World) :
    exec (get >>= f) w = exec (f w) w := rfl

@[simp] theorem exec_lift_ok_bind (a : α) (f : α → Act β) (w : World) :
    exec (liftM (.ok a : Except Fault α) >>= f) w = exec (f a) w := rfl

/-- From `w` the action keeps to the regime, and `post` holds of its value where it ends. -/
structure Leaves (L : Regime) (x : Act α) (w : World) (post : α → World → Prop) : Prop where
  world : L.step w (exec x w).2
  value : ∀ a, (exec x w).1 = .ok a → post a (exec x w).2
  fault : ∀ e, (exec x w).1 = .error e → L.fault w e

/-- Whatever world the action starts in, it keeps to the regime. -/
def Follows (L : Regime) (x : Act α) : Prop :=
  ∀ w, Leaves L x w fun _ _ => True

variable {L M : Regime} {x : Act α} {f : α → Act β} {w : World} {P : α → World → Prop} {Q : β → World → Prop}

namespace Leaves

theorem of_ok {a : α} {v : World} (run : exec x w = (.ok a, v)) (world : L.step w v) (value : P a v) :
    Leaves L x w P := by
  refine ⟨by rw [run]; exact world, fun b hb => ?_, fun e he => ?_⟩
  · rw [run] at hb ⊢
    cases hb
    exact value
  · rw [run] at he
    cases he

theorem of_error {e : Fault} {v : World} (run : exec x w = (.error e, v)) (world : L.step w v)
    (fault : L.fault w e) : Leaves L x w P := by
  refine ⟨by rw [run]; exact world, fun b hb => ?_, fun e' he => ?_⟩
  · rw [run] at hb
    cases hb
  · rw [run] at he
    cases he
    exact fault

theorem conseq {S : α → World → Prop} (h : Leaves L x w P) (weaker : ∀ a v, L.step w v → P a v → S a v) :
    Leaves L x w S :=
  ⟨h.world, fun a ha => weaker a _ h.world (h.value a ha), h.fault⟩

theorem mono (h : Leaves L x w P) (step : ∀ v, L.step w v → M.step w v)
    (fault : ∀ e, L.fault w e → M.fault w e) : Leaves M x w P :=
  ⟨step _ h.world, h.value, fun e he => fault e (h.fault e he)⟩

/-- An action that runs as another one does from a later world keeps to the regime if that one does. -/
theorem of_exec {y : Act α} {v : World} (same : exec x w = exec y v) (world : L.step w v)
    (rest : Leaves L y v P) : Leaves L x w P := by
  refine ⟨?_, fun a ha => ?_, fun e he => ?_⟩
  · rw [same]; exact L.trans world rest.world
  · rw [same] at ha ⊢
    exact rest.value a ha
  · rw [same] at he
    exact L.back world (rest.fault e he)

protected theorem pure {a : α} (h : P a w) : Leaves L (pure a) w P :=
  of_ok rfl (L.refl w) h

protected theorem stop {e : Fault} (h : e.isReport = false) : Leaves L (stop e) w P :=
  of_error rfl (L.refl w) (L.ordinary w h)

/-- The rule of sequences: the second action starts where the first one ended. -/
protected theorem bind (first : Leaves L x w P) (next : ∀ a v, L.step w v → P a v → Leaves L (f a) v Q) :
    Leaves L (x >>= f) w Q := by
  rcases run : exec x w with ⟨_ | a, v⟩
  · have world := first.world
    rw [run] at world
    exact of_error (exec_bind_error run) world (first.fault _ (by rw [run]))
  · have world := first.world
    have value := first.value a (by rw [run])
    rw [run] at world value
    exact of_exec (exec_bind_ok run) world (next a v world value)

theorem bind_get {g : World → Act β} (next : Leaves L (g w) w Q) : Leaves L (get >>= g) w Q :=
  ⟨next.world, next.value, next.fault⟩

/-- After a question the action goes on in the same world, with what the answer tells. -/
theorem bind_lift {q : Except Fault α} (sound : NoReport q)
    (next : ∀ a, q = .ok a → Leaves L (f a) w Q) : Leaves L (liftM q >>= f) w Q := by
  cases q with
  | error e => exact of_error rfl (L.refl w) (L.ordinary w (sound e rfl))
  | ok a => exact ⟨(next a rfl).world, (next a rfl).value, (next a rfl).fault⟩

/-- A loop keeps what each round keeps; `I` is what holds between the rounds. -/
protected theorem forM {items : List α} {body : α → Act Unit} {I : World → Prop} (start : I w)
    (round : ∀ a ∈ items, ∀ v, L.step w v → I v → Leaves L (body a) v fun _ => I) :
    Leaves L (items.forM body) w fun _ => I := by
  induction items generalizing w with
  | nil => exact .pure start
  | cons a rest ih =>
    refine .bind (round a (by simp) w (L.refl w) start) fun _ v far held => ?_
    exact ih held fun b hb u near => round b (by simp [hb]) u (L.trans far near)

end Leaves

namespace Follows

theorem mono (h : Follows L x) (step : ∀ w v, L.step w v → M.step w v)
    (fault : ∀ w e, L.fault w e → M.fault w e) : Follows M x :=
  fun w => (h w).mono (step w) (fault w)

protected theorem pure (a : α) : Follows L (pure a) :=
  fun _ => .pure trivial

protected theorem stop {e : Fault} (h : e.isReport = false) : Follows L (stop e : Act α) :=
  fun _ => .stop h

protected theorem bind (first : Follows L x) (next : ∀ a, Follows L (f a)) : Follows L (x >>= f) :=
  fun w => .bind (first w) fun a v _ _ => next a v

/-- An action that begins by looking at the world is judged in the world it looks at. -/
theorem bind_get {g : World → Act β} (next : ∀ w, Leaves L (g w) w fun _ _ => True) :
    Follows L (get >>= g) :=
  fun w => .bind_get (next w)

/-- An action that looks at the world and keeps to the regime whatever it sees. -/
theorem look {g : World → Act β} (next : ∀ w, Follows L (g w)) : Follows L (get >>= g) :=
  bind_get fun w => next w w

theorem lift {q : Except Fault α} (sound : NoReport q) : Follows L (liftM q) := by
  intro w
  cases q with
  | error e => exact .of_error rfl (L.refl w) (L.ordinary w (sound e rfl))
  | ok a => exact .of_ok rfl (L.refl w) trivial

protected theorem forM {items : List α} {body : α → Act Unit} (round : ∀ a, Follows L (body a)) :
    Follows L (items.forM body) :=
  fun _ => .conseq (.forM (I := fun _ => True) trivial fun a _ v _ _ => round a v) fun _ _ _ _ => trivial

protected theorem mapM {items : List α} {body : α → Act β} (round : ∀ a, Follows L (body a)) :
    Follows L (items.mapM body) := by
  induction items with
  | nil => exact .pure []
  | cons a rest ih =>
    rw [List.mapM_cons]
    exact .bind (round a) fun _ => .bind ih fun _ => .pure _

protected theorem filterM {items : List α} {test : α → Act Bool} (round : ∀ a, Follows L (test a)) :
    Follows L (items.filterM test) := by
  have loop : ∀ kept, Follows L (List.filterAuxM test items kept) := by
    induction items with
    | nil => exact fun kept => .pure kept
    | cons a rest ih => exact fun kept => .bind (round a) fun _ => ih _
  exact .bind (loop []) fun _ => .pure _

end Follows

end Act

end Overlay
