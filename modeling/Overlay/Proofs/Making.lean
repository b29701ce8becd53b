import Overlay.Proofs.Completion

/-!
# How host functions come about

The worlds that definitions leave, as equations. A definition stops only where the source text of a function cannot
be made; then no host function was made. Otherwise the prototype and the function are the next two objects, and both
are frozen when the definition ends.
-/

namespace Overlay
set_option autoImplicit false

open Act World

namespace Host
variable {w : World}

/-- The members that a new host function owns. -/
def functionBag (name arity : Value) : Bag :=
  (({} : Bag).put (Name.ofText "name") name false).put (Name.ofText "length") arity false

/-- The arity of a new host function: the given one, or that of its implementation. -/
def Signature.arityIn (w : World) (impl : Impl) (s : Signature) : Value :=
  if s.arity.isNull then .int (implArity w impl) else s.arity

/-- A new host function, which has drawn the next number. -/
def newObject (w : World) (impl : Impl) (s : Signature) (proto prototype source : Value) : Obj where
  proto := proto
  bag := functionBag s.name (s.arityIn w impl)
  host := some ⟨impl, w.nextCategory, prototype, s.arityIn w impl, source⟩

/-- The prototype of a defined function. -/
def definedPrototype (op f : ObjId) : Obj where
  proto := .obj op
  bag := (({} : Bag).put (Name.ofText "constructor") (.obj f) false).freeze

/-- The world in which a number was drawn. -/
def drawn (w : World) : World :=
  { w with nextCategory := w.nextCategory + 1 }

theorem exec_draw : exec Act.drawCategory w = (.ok w.nextCategory, drawn w) := rfl

theorem exec_newFunction (impl : Impl) {s : Signature} (proto prototype : Value) {source : Value}
    (sourced : s.sourceIn (drawn w) = .ok source) :
    exec (newFunction impl s proto prototype) w = (.ok w.heap.size,
      { drawn w with heap := w.heap.push (newObject w impl s proto prototype source) }) := by
  have arity : (if s.arity.isNull then .int (implArity (drawn w) impl) else s.arity) = s.arityIn w impl := by
    cases impl <;> rfl
  let x : Obj := { proto := proto, host := some ⟨impl, w.nextCategory, prototype, s.arityIn w impl, source⟩ }
  let v : World := { drawn w with heap := w.heap.push x }
  have front : exec (newFunction impl s proto prototype) w = exec (do
      Act.putHidden w.heap.size (.str "name") s.name
      Act.putHidden w.heap.size (.str "length") (s.arityIn w impl)
      return w.heap.size) v := by
    rw [newFunction, exec_bind_ok exec_draw, exec_get_bind, sourced, exec_lift_ok_bind, arity]
    rfl
  have named (b : Bag) (name : Text) (y : Value) (is_open : b.frozen = false) :
      exec (Act.putHidden w.heap.size (.str name) y) { drawn w with heap := w.heap.push { x with bag := b } } =
        (.ok (), { drawn w with heap := w.heap.push { x with bag := b.put (Name.ofText name) y false } }) := by
    have put := exec_putProperty (w := { drawn w with heap := w.heap.push { x with bag := b } }) (o := w.heap.size) y false
      (by rw [Heap.get_push_new]; exact is_open) (Name.of?_str name)
    rw [Heap.get_push_new, Heap.setBag_push_last] at put
    exact put
  rw [front, exec_bind_ok (named {} "name" s.name rfl), exec_bind_ok (named _ "length" (s.arityIn w impl) rfl)]
  rfl

theorem exec_newFunction_error (impl : Impl) {s : Signature} (proto prototype : Value) {e : Fault}
    (stopped : s.sourceIn (drawn w) = .error e) :
    exec (newFunction impl s proto prototype) w = (.error e, drawn w) := by
  rw [newFunction, exec_bind_ok exec_draw, exec_get_bind, stopped]
  rfl

/-- Putting a member of the last object but one and freezing the last two. -/
theorem seal_last {h : Heap} {x y : Obj} (n : Name) (z : Value) :
    let k := Heap.setBag ((h.push x).push y) h.size (x.bag.put n z false)
    let l := k.setBag h.size (k.get h.size).bag.freeze
    l.setBag (h.size + 1) (l.get (h.size + 1)).bag.freeze =
      (h.push { x with bag := (x.bag.put n z false).freeze }).push { y with bag := y.bag.freeze } := by
  intro k l
  have before (u : Obj) : h.size < (h.push u).size := by simp
  have last (u : Obj) : h.size + 1 = (h.push u).size := by simp
  have first : k = (h.push { x with bag := x.bag.put n z false }).push y := by
    rw [← Heap.setBag_push_last h x, ← Heap.setBag_push_old y _ (before x)]
  have second : l = (h.push { x with bag := (x.bag.put n z false).freeze }).push y := by
    simp only [l, first]
    rw [Heap.get_push_old _ (before _), Heap.get_push_new, Heap.setBag_push_old y _ (before _),
      Heap.setBag_push_last]
  rw [second, last, Heap.get_push_new, Heap.setBag_push_last]

/-- A function that has a source is defined: its prototype and it are the next two objects, and both are frozen. -/
theorem exec_define (op fp : ObjId) (impl : Impl) {s : Signature} {source : Value}
    (sourced : s.sourceIn (drawn { w with heap := w.heap.push { proto := .obj op } }) = .ok source) :
    exec (define op fp impl s) w = (.ok (w.heap.size + 1), { drawn w with
      heap := (w.heap.push (definedPrototype op (w.heap.size + 1))).push
        { newObject w impl s (.obj fp) (.obj w.heap.size) source with
          bag := (functionBag s.name (s.arityIn w impl)).freeze } }) := by
  let P : Obj := { proto := .obj op }
  let F := newObject w impl s (.obj fp) (.obj w.heap.size) source
  have size : (w.heap.push P).size = w.heap.size + 1 := Array.size_push _
  have old : w.heap.size < (w.heap.push P).size := by omega
  let v₁ : World := { w with heap := w.heap.push P }
  have made := exec_newFunction (w := v₁) impl (.obj fp) (.obj w.heap.size) sourced
  have open₂ : (Heap.get ((w.heap.push P).push F) w.heap.size).bag.frozen = false := by
    rw [Heap.get_push_old _ old, Heap.get_push_new]
  let v₂ : World := { drawn w with heap := (w.heap.push P).push F }
  have put := exec_putProperty (w := v₂) (.obj (w.heap.size + 1)) false open₂ (Name.of?_str "constructor")
  rw [define, exec_bind_ok (exec_begetFrom (.obj op)), exec_bind_ok made]
  show exec (Act.putHidden w.heap.size (.str "constructor") (.obj (w.heap.push P).size) >>= _) v₂ = _
  have here : Heap.get ((w.heap.push P).push F) w.heap.size = P := by
    rw [Heap.get_push_old _ old, Heap.get_push_new]
  rw [size, Act.putHidden, exec_bind_ok put, exec_bind_ok (exec_freeze _), exec_bind_ok (exec_freeze _), exec_pure]
  simp only [v₂, here]
  rw [seal_last]
  rfl

/-- A function that has no source is not defined; its prototype is there and nothing else. -/
theorem exec_define_error (op fp : ObjId) (impl : Impl) {s : Signature} {e : Fault}
    (stopped : s.sourceIn (drawn { w with heap := w.heap.push { proto := .obj op } }) = .error e) :
    exec (define op fp impl s) w = (.error e, drawn { w with heap := w.heap.push { proto := .obj op } }) := by
  rw [define, exec_bind_ok (exec_begetFrom (.obj op))]
  exact exec_bind_error (exec_newFunction_error impl (.obj fp) (.obj w.heap.size) stopped)

/-! ## A new host

All that a host is made of stands at the end of the heap. `extended` is a world with some objects added there, and
each part of the making rewrites the list of them. -/

/-- A world with objects added at the end of its heap and with the number to be drawn next. -/
def extended (w : World) (l : List Obj) (next : Nat) : World :=
  { w with heap := w.heap ++ l.toArray, nextCategory := next }

theorem get_extended (w : World) (l : List Obj) (next i : Nat) :
    (extended w l next).heap.get (w.heap.size + i) = l[i]?.getD {} := by
  have late : ¬ w.heap.size + i < w.heap.size := by omega
  simp [extended, Heap.get, Array.getElem?_append, late]

theorem get_extended_old {l : List Obj} {next : Nat} {o : ObjId} (old : o < w.heap.size) :
    (extended w l next).heap.get o = w.heap.get o := by
  simp [extended, Heap.get, Array.getElem?_append, old]

theorem push_extended (w : World) (l : List Obj) (next : Nat) (x : Obj) :
    { extended w l next with heap := (extended w l next).heap.push x } = extended w (l ++ [x]) next := by
  simp [extended, ← Array.append_singleton]

theorem setBag_extended (w : World) (l : List Obj) (next i : Nat) (b : Bag) :
    { extended w l next with heap := (extended w l next).heap.setBag (w.heap.size + i) b } =
      extended w (l.modify i fun x => { x with bag := b }) next := by
  have same : Heap.setBag (w.heap ++ l.toArray) (w.heap.size + i) b =
      w.heap ++ (l.modify i fun x => { x with bag := b }).toArray := by
    apply Array.ext_getElem?
    intro j
    simp only [Heap.setBag, Array.getElem?_modify, Array.getElem?_append, List.getElem?_toArray, List.getElem?_modify]
    by_cases below : j < w.heap.size
    · have other : ¬ w.heap.size + i = j := by omega
      simp [below, other]
    · simp only [below, if_false]
      by_cases here : w.heap.size + i = j
      · have there : i = j - w.heap.size := by omega
        simp [here, ← there]
      · have elsewhere : ¬ i = j - w.heap.size := by omega
        simp [here, elsewhere]
  simp only [extended, same]

theorem size_extended (w : World) (l : List Obj) (next : Nat) :
    (extended w l next).heap.size = w.heap.size + l.length := by
  simp [extended]

variable {l l' : List Obj} {next i : Nat} {x : Obj}

theorem exec_beget_extended (link : Value) :
    exec (Act.begetFrom link) (extended w l next) =
      (.ok (w.heap.size + l.length), extended w (l ++ [{ proto := link }]) next) := by
  rw [exec_begetFrom, push_extended, size_extended]

theorem exec_put_extended {s : Text} {y : Value} (here : l[i]? = some x) (is_open : x.bag.frozen = false)
    (after : l.modify i (fun z => { z with bag := x.bag.put (Name.ofText s) y false }) = l') :
    exec (Act.putHidden (w.heap.size + i) (.str s) y) (extended w l next) = (.ok (), extended w l' next) := by
  have there : (extended w l next).heap.get (w.heap.size + i) = x := by
    rw [get_extended, here]
    rfl
  rw [Act.putHidden, exec_putProperty y false (by rw [there]; exact is_open) (Name.of?_str s), there, setBag_extended,
    after]

theorem exec_freeze_extended (here : l[i]? = some x)
    (after : l.modify i (fun z => { z with bag := x.bag.freeze }) = l') :
    exec (Act.freeze (w.heap.size + i)) (extended w l next) = (.ok (), extended w l' next) := by
  have there : (extended w l next).heap.get (w.heap.size + i) = x := by
    rw [get_extended, here]
    rfl
  rw [exec_freeze, there, setBag_extended, after]

/-- A function of a new host, before it is frozen. -/
def builtin (name : Text) (impl : Impl) (category : Nat) (arity : Int) (fp prototype : ObjId) : Obj where
  proto := .obj fp
  bag := functionBag (.str name) (.int arity)
  host := some ⟨impl, category, .obj prototype, .int arity, .str (nativeSource name)⟩

theorem exec_newFunction_extended {name : Text} {impl : Impl} {fp prototype : ObjId} :
    exec (newFunction impl { name := .str name, arity := .int 1 } (.obj fp) (.obj prototype)) (extended w l next) =
      (.ok (w.heap.size + l.length), extended w (l ++ [builtin name impl next 1 fp prototype]) (next + 1)) := by
  have sourced : ({ name := .str name, arity := .int 1 } : Signature).sourceIn (drawn (extended w l next)) =
      .ok (.str (nativeSource name)) := rfl
  rw [exec_newFunction impl _ _ sourced, size_extended, ← push_extended]
  rfl

theorem exec_define_extended {name : Text} {impl : Impl} {op fp : ObjId} (arity : Nat)
    (takes : ∀ v, implArity v impl = arity) :
    exec (define op fp impl { name := .str name }) (extended w l next) =
      (.ok (w.heap.size + l.length + 1), extended w (l ++ [definedPrototype op (w.heap.size + l.length + 1),
        { builtin name impl next arity fp (w.heap.size + l.length) with
          bag := (functionBag (.str name) (.int arity)).freeze }]) (next + 1)) := by
  have sourced (v : World) : ({ name := .str name } : Signature).sourceIn v = .ok (.str (nativeSource name)) := rfl
  have counted : ({ name := .str name } : Signature).arityIn (extended w l next) impl = .int arity := by
    show Datum.int (implArity (extended w l next) impl) = _
    rw [takes]
  have two (y z : Obj) : { drawn (extended w l next) with heap := ((extended w l next).heap.push y).push z } =
      extended w (l ++ [y, z]) (next + 1) := by
    simp [drawn, extended, ← Array.append_singleton]
  rw [exec_define op fp impl (sourced _), newObject, counted, size_extended, two]
  rfl

/-- A frozen object. -/
def sealedObj (x : Obj) : Obj :=
  { x with bag := x.bag.freeze }

/-- The members of a new host's object prototype, whose functions start at a position. -/
def topBag (n : ObjId) : Bag :=
  ((((({} : Bag).put (Name.ofText "constructor") (.obj (n + 2)) false).put (Name.ofText "toString")
    (.obj (n + 5)) false).put (Name.ofText "valueOf") (.obj (n + 7)) false).put (Name.ofText "hasOwnProperty")
    (.obj (n + 9)) false)

/-- The objects of a new host: its two prototypes, its two constructors, and three functions with their
prototypes. -/
def foundation (n c : Nat) : List Obj :=
  [sealedObj { proto := .null, bag := topBag n },
    sealedObj { proto := .obj n, bag := ({} : Bag).put (Name.ofText "constructor") (.obj (n + 3)) false },
    sealedObj (builtin "Object" (.makeObject n) c 1 (n + 1) n),
    sealedObj (builtin "Function" .makeFunction (c + 1) 1 (n + 1) (n + 1)),
    definedPrototype n (n + 5), sealedObj (builtin "toString" .describe (c + 2) 0 (n + 1) (n + 4)),
    definedPrototype n (n + 7), sealedObj (builtin "valueOf" .identity (c + 3) 0 (n + 1) (n + 6)),
    definedPrototype n (n + 9), sealedObj (builtin "hasOwnProperty" .ownsName (c + 4) 1 (n + 1) (n + 8))]

theorem exec_make :
    exec make w = (.ok w.hosts.size, { extended w (foundation w.heap.size w.nextCategory) (w.nextCategory + 5) with
      hosts := w.hosts.push ⟨w.heap.size, w.heap.size + 1, w.heap.size + 2, w.heap.size + 3, []⟩ }) := by
  let n := w.heap.size
  let c := w.nextCategory
  -- the world after so many numbers were drawn, in which the two prototypes are still open
  let laid (top fp : Bag) (rest : List Obj) (drawn : Nat) : World :=
    extended w ({ bag := top } :: { proto := .obj n, bag := fp } :: rest) (c + drawn)
  let F₁ := builtin "Object" (.makeObject n) c 1 (n + 1) n
  let F₂ := builtin "Function" .makeFunction (c + 1) 1 (n + 1) (n + 1)
  let F₃ := sealedObj (builtin "toString" .describe (c + 2) 0 (n + 1) (n + 4))
  let F₄ := sealedObj (builtin "valueOf" .identity (c + 3) 0 (n + 1) (n + 6))
  let F₅ := sealedObj (builtin "hasOwnProperty" .ownsName (c + 4) 1 (n + 1) (n + 8))
  let T₁ := ({} : Bag).put (Name.ofText "constructor") (.obj (n + 2)) false
  let T₂ := T₁.put (Name.ofText "toString") (.obj (n + 5)) false
  let T₃ := T₂.put (Name.ofText "valueOf") (.obj (n + 7)) false
  let B := ({} : Bag).put (Name.ofText "constructor") (.obj (n + 3)) false
  let R₃ := [F₁, F₂, definedPrototype n (n + 5), F₃]
  let R₄ := [F₁, F₂, definedPrototype n (n + 5), F₃, definedPrototype n (n + 7), F₄]
  let R₅ := [F₁, F₂, definedPrototype n (n + 5), F₃, definedPrototype n (n + 7), F₄, definedPrototype n (n + 9), F₅]
  have start : extended w [] c = w := by simp [extended, c]
  have op : exec (Act.begetFrom .null) w = (.ok n, extended w [{}] c) := start ▸ exec_beget_extended .null
  have fp : exec (Act.begetFrom (.obj n)) (extended w [{}] c) = (.ok (n + 1), laid {} {} [] 0) :=
    exec_beget_extended _
  have object : exec (newFunction (.makeObject n) { name := .str "Object", arity := .int 1 } (.obj (n + 1)) (.obj n))
      (laid {} {} [] 0) = (.ok (n + 2), laid {} {} [F₁] 1) := exec_newFunction_extended
  have function : exec (newFunction .makeFunction { name := .str "Function", arity := .int 1 } (.obj (n + 1))
      (.obj (n + 1))) (laid {} {} [F₁] 1) = (.ok (n + 3), laid {} {} [F₁, F₂] 2) := exec_newFunction_extended
  have put₁ : exec (Act.putHidden n (.str "constructor") (.obj (n + 2))) (laid {} {} [F₁, F₂] 2) =
      (.ok (), laid T₁ {} [F₁, F₂] 2) := exec_put_extended (i := 0) rfl rfl rfl
  have define₃ : exec (define n (n + 1) .describe { name := .str "toString" }) (laid T₁ {} [F₁, F₂] 2) =
      (.ok (n + 5), laid T₁ {} R₃ 3) := exec_define_extended 0 fun _ => rfl
  have put₂ : exec (Act.putHidden n (.str "toString") (.obj (n + 5))) (laid T₁ {} R₃ 3) = (.ok (), laid T₂ {} R₃ 3) :=
    exec_put_extended (i := 0) rfl rfl rfl
  have define₄ : exec (define n (n + 1) .identity { name := .str "valueOf" }) (laid T₂ {} R₃ 3) =
      (.ok (n + 7), laid T₂ {} R₄ 4) := exec_define_extended 0 fun _ => rfl
  have put₃ : exec (Act.putHidden n (.str "valueOf") (.obj (n + 7))) (laid T₂ {} R₄ 4) = (.ok (), laid T₃ {} R₄ 4) :=
    exec_put_extended (i := 0) rfl rfl rfl
  have define₅ : exec (define n (n + 1) .ownsName { name := .str "hasOwnProperty" }) (laid T₃ {} R₄ 4) =
      (.ok (n + 9), laid T₃ {} R₅ 5) := exec_define_extended 1 fun _ => rfl
  have put₄ : exec (Act.putHidden n (.str "hasOwnProperty") (.obj (n + 9))) (laid T₃ {} R₅ 5) =
      (.ok (), laid (topBag n) {} R₅ 5) := exec_put_extended (i := 0) rfl rfl rfl
  have put₅ : exec (Act.putHidden (n + 1) (.str "constructor") (.obj (n + 3))) (laid (topBag n) {} R₅ 5) =
      (.ok (), laid (topBag n) B R₅ 5) := exec_put_extended (i := 1) rfl rfl rfl
  have freeze₁ : exec (Act.freeze n) (laid (topBag n) B R₅ 5) = (.ok (), laid (topBag n).freeze B R₅ 5) :=
    exec_freeze_extended (i := 0) rfl rfl
  have freeze₂ : exec (Act.freeze (n + 1)) (laid (topBag n).freeze B R₅ 5) =
      (.ok (), laid (topBag n).freeze B.freeze R₅ 5) := exec_freeze_extended (i := 1) rfl rfl
  have freeze₃ : exec (Act.freeze (n + 2)) (laid (topBag n).freeze B.freeze R₅ 5) =
      (.ok (), laid (topBag n).freeze B.freeze (sealedObj F₁ :: R₅.tail) 5) := exec_freeze_extended (i := 2) rfl rfl
  have freeze₄ : exec (Act.freeze (n + 3)) (laid (topBag n).freeze B.freeze (sealedObj F₁ :: R₅.tail) 5) =
      (.ok (), extended w (foundation n c) (c + 5)) := exec_freeze_extended (i := 3) rfl rfl
  rw [make, exec_bind_ok op, exec_bind_ok fp, exec_bind_ok object, exec_bind_ok function, exec_bind_ok put₁,
    exec_bind_ok define₃, exec_bind_ok put₂, exec_bind_ok define₄, exec_bind_ok put₃, exec_bind_ok define₅,
    exec_bind_ok put₄, exec_bind_ok put₅, exec_bind_ok freeze₁, exec_bind_ok freeze₂, exec_bind_ok freeze₃,
    exec_bind_ok freeze₄, exec_get_bind]
  rfl

end Host

end Overlay
