import Overlay.Proofs.Ancestry

/-!
# Definitions keep the ancestry

A function that is defined on a host descends from the host's object prototype; a constructor descends from the
prototype of its parent. What a method puts under `constructor` is a host function as well, so whatever is defined
later on such a prototype still has an older one above it.
-/

namespace Overlay
set_option autoImplicit false

open Act World

namespace Host
variable {statics : Key → Prop} {w : World} {n : ObjId}

/-- What a new host function owns. -/
theorem owns_functionBag {name arity : Value} {k : Key} (owned : (functionBag name arity).owns k = true) :
    k = "name" ∨ k = "length" := by
  rcases Bag.owns_put owned with first | second
  · rcases Bag.owns_put first with none | first
    · cases none
    · exact .inl first
  · exact .inr second

/-- A prototype that owns nothing but a host function, as its `constructor`, may be built on. -/
theorem isHead_of_props {k : Heap} {p f : ObjId} {fn : HostFn} (host : k.hostFn? f = some fn)
    (props : (k.get p).bag.props = (({} : Bag).put (Name.ofText "constructor") (.obj f) false).props) :
    k.IsHead p := by
  refine ⟨fun x found => ?_, fun m listed => ?_⟩
  · rw [Heap.member?, Bag.find?, props] at found
    have value := Bag.find?_put_same {} (Name.ofText "constructor") (.obj f) false
    exact ⟨f, fn, Option.some.inj (found.symm.trans value), host⟩
  · rw [Bag.names, props] at listed
    rcases Bag.mem_names_put (b := {}) listed with none | rfl
    · cases none
    · exact writable_str _

/-- A function that has a source is defined, and descends from the prototype it is defined on. -/
theorem define_descends (statics : Key → Prop) {op : ObjId} (fp : ObjId) (impl : Impl) {s : Signature} {source : Value}
    (numbers : w.Numbered)
    (head : w.heap.IsHead op) (frozen : (w.heap.get op).bag.frozen = true)
    (sourced : s.sourceIn (drawn { w with heap := w.heap.push { proto := .obj op } }) = .ok source) :
    ∃ v, exec (define op fp impl s) w = (.ok (w.heap.size + 1), v) ∧ Grows w.heap.size w v ∧
      v.heap.size = w.heap.size + 2 ∧ (∃ fn, v.heap.hostFn? (w.heap.size + 1) = some fn) ∧
      ∀ n, DescendedFrom statics n w → DescendedFrom statics n v := by
  let P := definedPrototype op (w.heap.size + 1)
  let F : Obj := { newObject w impl s (.obj fp) (.obj w.heap.size) source with
    bag := (functionBag s.name (s.arityIn w impl)).freeze }
  let v : World := { drawn w with heap := (w.heap.push P).push F }
  have run : exec (define op fp impl s) w = (.ok (w.heap.size + 1), v) := exec_define op fp impl sourced
  have grown : Grows w.heap.size w v := ((define_leaves op fp impl s (Nat.le_refl _)).of_run run).1
  have size : (w.heap.push P).size = w.heap.size + 1 := Array.size_push _
  have size' : v.heap.size = w.heap.size + 2 := by simp [v]
  have old : w.heap.size < (w.heap.push P).size := by omega
  have getP : v.heap.get w.heap.size = P := by
    rw [Heap.get_push_old F old, Heap.get_push_new]
  have getF : v.heap.get (w.heap.size + 1) = F := by
    show Heap.get ((w.heap.push P).push F) (w.heap.size + 1) = F
    rw [← size, Heap.get_push_new]
  refine ⟨v, run, grown, size', ⟨_, by rw [Heap.hostFn?, getF]; rfl⟩, fun n descended => ?_⟩
  refine descended.later grown.trail fun o fn late found => ?_
  have bound := Heap.lt_size_of_hostFn? found
  rw [size'] at bound
  rcases Nat.eq_or_lt_of_le late with rfl | above
  · rw [Heap.hostFn?, getP] at found
    cases found
  · obtain rfl : o = w.heap.size + 1 := Nat.le_antisymm (Nat.le_of_lt_succ bound) above
    rw [Heap.hostFn?, getF] at found
    cases found
    have inside := Heap.lt_size_of_frozen frozen
    have host : v.heap.hostFn? (w.heap.size + 1) = F.host := by rw [Heap.hostFn?, getF]
    refine ⟨w.heap.size, rfl, by rw [getF]; rfl, fun k owned => ?_, by rw [getP]; rfl,
      isHead_of_props host (by rw [getP]; rfl), .inr ⟨op, by rw [getP]; rfl, ?_, ?_⟩⟩
    · rw [Heap.owns, getF] at owned
      rcases owns_functionBag owned with first | second
      · exact .inl first
      · exact .inr (.inl second)
    · rw [grown.old op inside]
      exact frozen
    · have elder := numbers.elder head (Nat.le_succ w.heap.size) (Nat.le_refl w.nextCategory)
      exact elder.change grown.trail (grown.old op inside)

/-- A definition that stops makes no host function. -/
theorem define_stops {op fp : ObjId} (impl : Impl) {s : Signature} {e : Fault}
    (stopped : s.sourceIn (drawn { w with heap := w.heap.push { proto := .obj op } }) = .error e) (o : ObjId) :
    (exec (define op fp impl s) w).2.heap.hostFn? o = w.heap.hostFn? o ∧
      (exec (define op fp impl s) w).2.hosts = w.hosts := by
  rw [exec_define_error op fp impl stopped]
  exact ⟨((begetFrom_plain (.obj op) w).of_run (exec_begetFrom _)).1.1 o, rfl⟩

/-- The function that a method becomes has a source, for the method's name has a text. -/
theorem sourceIn_of_writable {name : Value} (writable : Writable name) (v : World) :
    ∃ source, ({ name := name } : Signature).sourceIn v = .ok source := by
  obtain ⟨t, written⟩ := writable v
  exact ⟨.str (nativeSource t), by rw [Signature.sourceIn, written]; rfl⟩

/-- A method whose name has a text can be defined and put on a prototype, which may still be built on. -/
theorem defineMethod_descends (n : ObjId) (h : HostId) {p : ObjId} {m : Name × Value} (numbers : w.Numbered)
    (top : w.heap.IsHead (w.host h).objectPrototype) (frozen : (w.heap.get (w.host h).objectPrototype).bag.frozen = true)
    (inside : p < w.heap.size) (is_open : (w.heap.get p).bag.frozen = false) (head : w.heap.IsHead p)
    (writable : Writable m.1.value) (descended : DescendedFrom statics n w) :
    ∃ v, exec (do
        let f ← defineFunction h (.value m.2) { name := m.1.value }
        Act.putHidden p m.1.value (.obj f)) w = (.ok (), v) ∧ Grows 0 w v ∧ v.heap.IsHead p ∧
      (v.heap.get p).bag.frozen = false ∧ (∀ o, o < w.heap.size → o ≠ p → v.heap.get o = w.heap.get o) ∧
      DescendedFrom statics n v := by
  let op := (w.host h).objectPrototype
  let fp := (w.host h).functionPrototype
  obtain ⟨source, sourced⟩ := sourceIn_of_writable writable (drawn { w with heap := w.heap.push { proto := .obj op } })
  obtain ⟨u, made, grown, -, ⟨fn, host⟩, keeps⟩ := define_descends statics fp (.value m.2) numbers top frozen sourced
  have old (o : ObjId) (before : o < w.heap.size) : u.heap.get o = w.heap.get o := grown.old o before
  have is_open' : (u.heap.get p).bag.frozen = false := by
    rw [old p inside]
    exact is_open
  let b := (u.heap.get p).bag.put m.1 (.obj (w.heap.size + 1)) false
  let v : World := { u with heap := u.heap.setBag p b }
  have put : exec (Act.putHidden p m.1.value (.obj (w.heap.size + 1))) u = (.ok (), v) :=
    exec_putProperty _ false is_open' (Name.of?_value m.1)
  have grown' : Grows 0 u v := ((putProperty_leaves p _ _ false (Nat.zero_le p)).of_run put).1
  have getp : v.heap.get p = { u.heap.get p with bag := b } :=
    Heap.get_setBag_same b (Nat.lt_of_lt_of_le inside grown.size_le)
  refine ⟨v, (exec_bind_ok made).trans put, (grown.mono (Nat.zero_le _)).trans grown', ⟨fun x found => ?_, fun k listed => ?_⟩,
    by rw [getp]; exact is_open', fun o before other => ?_, ?_⟩
  · rw [Heap.member?, getp] at found
    by_cases named : m.1.key = "constructor"
    · have value := Bag.find?_put_same (u.heap.get p).bag m.1 (.obj (w.heap.size + 1)) false
      rw [named] at value
      exact ⟨w.heap.size + 1, fn, Option.some.inj (found.symm.trans value), grown'.trail.hostFn? host⟩
    · rw [Bag.find?_put_other _ _ _ named, old p inside] at found
      obtain ⟨c, g, rfl, callable⟩ := head.constructor x found
      exact ⟨c, g, rfl, (grown.trail.trans grown'.trail).hostFn? callable⟩
  · rw [getp] at listed
    rcases Bag.mem_names_put listed with before | rfl
    · rw [old p inside] at before
      exact head.names k before
    · exact writable
  · rw [Heap.get_setBag_other _ b other, old o before]
  · refine (keeps n descended).later grown'.trail fun o g late found => ?_
    have bound := Heap.lt_size_of_hostFn? found
    rw [Heap.size_setBag] at bound
    exact absurd bound (Nat.not_lt.2 late)

/-- Methods can be defined if their names have texts; the prototype that holds them may still be built on. -/
theorem defineMethods_descends (n : ObjId) (h : HostId) {p : ObjId} (methods : List (Name × Value)) (numbers : w.Numbered)
    (top : w.heap.IsHead (w.host h).objectPrototype) (frozen : (w.heap.get (w.host h).objectPrototype).bag.frozen = true)
    (inside : p < w.heap.size) (is_open : (w.heap.get p).bag.frozen = false) (head : w.heap.IsHead p)
    (writable : ∀ m ∈ methods, Writable m.1.value) (descended : DescendedFrom statics n w) :
    ∃ v, exec (defineMethods h p methods) w = (.ok (), v) ∧ Grows 0 w v ∧ v.heap.IsHead p ∧
      (∀ o, o < w.heap.size → o ≠ p → v.heap.get o = w.heap.get o) ∧ DescendedFrom statics n v := by
  induction methods generalizing w with
  | nil => exact ⟨w, rfl, .refl 0 w, head, fun _ _ _ => rfl, descended⟩
  | cons m rest ih =>
    obtain ⟨v, round, grown, head', is_open', others, descended'⟩ := defineMethod_descends n h numbers top frozen inside
      is_open head (writable m List.mem_cons_self) descended
    -- the roots of the host are frozen, so they are not the prototype that gets the method
    have apart : (w.host h).objectPrototype ≠ p := fun same => by
      rw [same, is_open] at frozen
      cases frozen
    have get_op := others _ (Heap.lt_size_of_frozen frozen) apart
    obtain ⟨t, run, more, last, same, final⟩ := ih (w := v) (grown.numbered numbers)
      (by rw [grown.host]; exact top.change grown.trail get_op) (by rw [grown.host, get_op]; exact frozen)
      (Nat.lt_of_lt_of_le inside grown.size_le) is_open' head'
      (fun k listed => writable k (List.mem_cons_of_mem m listed)) descended'
    refine ⟨t, ?_, grown.trans more, last, fun o before other => ?_, final⟩
    · rw [defineMethods, List.forM_eq_forM, List.forM_cons]
      exact (exec_bind_ok round).trans run
    · rw [same o (Nat.lt_of_lt_of_le before grown.size_le) other, others o before other]

/-- A bag with visible members put into it. -/
def withMembers (members : List (Name × Value)) (b : Bag) : Bag :=
  members.foldl (fun b m => b.put m.1 m.2 true) b

theorem owns_withMembers {members : List (Name × Value)} {b : Bag} {k : Key}
    (owned : (withMembers members b).owns k = true) : b.owns k = true ∨ ∃ m ∈ members, k = m.1.key := by
  induction members generalizing b with
  | nil => exact .inl owned
  | cons m rest ih =>
    rcases ih owned with before | ⟨m', listed, key⟩
    · rcases Bag.owns_put before with base | key
      · exact .inl base
      · exact .inr ⟨m, by simp, key⟩
    · exact .inr ⟨m', by simp [listed], key⟩

theorem exec_putMembers {o : ObjId} (members : List (Name × Value)) (inside : o < w.heap.size)
    (is_open : (w.heap.get o).bag.frozen = false) :
    exec (members.forM fun m => Act.putProperty o m.1.value m.2 true) w =
      (.ok (), { w with heap := w.heap.setBag o (withMembers members (w.heap.get o).bag) }) := by
  induction members generalizing w with
  | nil =>
    rw [withMembers, List.foldl_nil, Heap.setBag_self]
    rfl
  | cons m rest ih =>
    let b := (w.heap.get o).bag.put m.1 m.2 true
    let v : World := { w with heap := w.heap.setBag o b }
    have put : exec (Act.putProperty o m.1.value m.2 true) w = (.ok (), v) :=
      exec_putProperty _ _ is_open (Name.of?_value m.1)
    have new : v.heap.get o = { w.heap.get o with bag := b } := Heap.get_setBag_same b inside
    have after := ih (w := v) (by rw [Heap.size_setBag]; exact inside) (by rw [new]; exact is_open)
    rw [new] at after
    rw [List.forM_eq_forM, List.forM_cons, exec_bind_ok put, ← List.forM_eq_forM, after]
    simp only [v, Heap.setBag_setBag, withMembers, List.foldl_cons, b]

/-- The prototype that a new constructor descends from is frozen and may be built on. -/
theorem parentPrototype_head {h : HostId} {parent link : Value} (ancestral : w.Ancestral statics) (sound : w.Sound)
    (answer : parentPrototype w h parent = .ok link) :
    ∃ q, link = .obj q ∧ (w.heap.get q).bag.frozen = true ∧ w.heap.IsHead q := by
  unfold parentPrototype at answer
  split at answer
  · cases answer
    exact ⟨_, rfl, (sound.hosts h).top.2, (ancestral.hosts h).head⟩
  · split at answer
    · rename_i fn found
      cases answer
      unfold World.hostFn? at found
      split at found
      · obtain ⟨p, descended⟩ := ancestral.functions _ fn (Nat.zero_le _) found
        exact ⟨p, descended.link, descended.sealed, descended.head⟩
      · cases found
    · cases answer

/-- A constructor that has a source, before its methods are put: its prototype and it are the next two objects, the
prototype owns it, and what was there is as it was. -/
theorem exec_openConstructor (fp q : ObjId) (impl : Impl) {s : Signature} {source : Value}
    (sourced : s.sourceIn (drawn { w with heap := w.heap.push { proto := .obj q } }) = .ok source) :
    ∃ v u, exec (newFunction impl s (.obj fp) (.obj w.heap.size)) { w with heap := w.heap.push { proto := .obj q } } =
        (.ok (w.heap.size + 1), v) ∧
      exec (Act.putHidden w.heap.size (.str "constructor") (.obj (w.heap.size + 1))) v = (.ok (), u) ∧
      Grows w.heap.size w u ∧ u.heap.size = w.heap.size + 2 ∧
      u.heap.get w.heap.size =
        { proto := .obj q, bag := ({} : Bag).put (Name.ofText "constructor") (.obj (w.heap.size + 1)) false } ∧
      u.heap.get (w.heap.size + 1) = newObject w impl s (.obj fp) (.obj w.heap.size) source := by
  let P : Obj := { proto := .obj q }
  let F := newObject w impl s (.obj fp) (.obj w.heap.size) source
  let v : World := { drawn w with heap := (w.heap.push P).push F }
  have size : (w.heap.push P).size = w.heap.size + 1 := Array.size_push _
  have old : w.heap.size < (w.heap.push P).size := by omega
  have made : exec (newFunction impl s (.obj fp) (.obj w.heap.size)) { w with heap := w.heap.push P } =
      (.ok (w.heap.size + 1), v) := by
    rw [exec_newFunction impl _ _ sourced]
    exact congrArg (fun o => (Except.ok o, v)) size
  have getP : v.heap.get w.heap.size = P := by
    rw [Heap.get_push_old F old, Heap.get_push_new]
  have getF : v.heap.get (w.heap.size + 1) = F := by
    rw [← size]
    exact Heap.get_push_new _ F
  have whole : v.heap.size = w.heap.size + 2 := by simp [v]
  have inside : w.heap.size < v.heap.size := by omega
  let b := P.bag.put (Name.ofText "constructor") (.obj (w.heap.size + 1)) false
  have put : exec (Act.putHidden w.heap.size (.str "constructor") (.obj (w.heap.size + 1))) v =
      (.ok (), { v with heap := v.heap.setBag w.heap.size b }) := by
    have run := exec_putProperty (w := v) (o := w.heap.size) (.obj (w.heap.size + 1)) false (by rw [getP])
      (Name.of?_str "constructor")
    rw [getP] at run
    exact run
  refine ⟨v, _, made, put, ?_, ?_, ?_, ?_⟩
  · have begot := ((begetFrom_leaves (.obj q) (Nat.le_refl w.heap.size)).of_run (exec_begetFrom (.obj q))).1
    have near := ((newFunction_leaves impl s _ _ (Nat.le_of_lt old)).of_run made).1
    exact (begot.trans near).trans ((putProperty_leaves _ _ _ false (Nat.le_refl w.heap.size)).of_run put).1
  · rw [Heap.size_setBag, whole]
  · rw [Heap.get_setBag_same b inside, getP]
  · exact (Heap.get_setBag_other _ b (Nat.succ_ne_self _)).trans getF

/-- A constructor that has its methods gets its statics, and then its prototype and it are frozen. -/
theorem exec_finishConstructor {p f : ObjId} (members : List (Name × Value)) (apart : f ≠ p) (inside : p < w.heap.size)
    (inside' : f < w.heap.size) (is_open : (w.heap.get f).bag.frozen = false) :
    ∃ v, exec (do
        members.forM fun m => Act.putProperty f m.1.value m.2 true
        Act.freeze p
        Act.freeze f
        return f) w = (.ok f, v) ∧ Grows 0 w v ∧ v.heap.size = w.heap.size ∧
      v.heap.get p = { w.heap.get p with bag := (w.heap.get p).bag.freeze } ∧
      v.heap.get f = { w.heap.get f with bag := (withMembers members (w.heap.get f).bag).freeze } := by
  let B := withMembers members (w.heap.get f).bag
  let v₁ : World := { w with heap := w.heap.setBag f B }
  let v₂ : World := { v₁ with heap := v₁.heap.setBag p (v₁.heap.get p).bag.freeze }
  let v₃ : World := { v₂ with heap := v₂.heap.setBag f (v₂.heap.get f).bag.freeze }
  have puts : exec (members.forM fun m => Act.putProperty f m.1.value m.2 true) w = (.ok (), v₁) :=
    exec_putMembers members inside' is_open
  have size₁ : v₁.heap.size = w.heap.size := Heap.size_setBag _ _ _
  have size₂ : v₂.heap.size = w.heap.size := (Heap.size_setBag _ _ _).trans size₁
  have getF₁ : v₁.heap.get f = { w.heap.get f with bag := B } := Heap.get_setBag_same B inside'
  have getF₂ : v₂.heap.get f = { w.heap.get f with bag := B } := (Heap.get_setBag_other _ _ apart).trans getF₁
  refine ⟨v₃, ?_, ?_, (Heap.size_setBag _ _ _).trans size₂, ?_, ?_⟩
  · rw [exec_bind_ok puts, exec_bind_ok (exec_freeze p), exec_bind_ok (exec_freeze f), exec_pure]
  · have grown : Grows 0 w v₁ := (Leaves.of_run (.forM (I := fun _ => True) trivial fun m _ v _ _ =>
      (putProperty_leaves f _ _ true (Nat.zero_le f)).conseq fun _ _ _ _ => trivial) puts).1
    exact (grown.trans ((freeze_leaves p (Nat.zero_le p)).of_run (exec_freeze p)).1).trans
      ((freeze_leaves f (Nat.zero_le f)).of_run (exec_freeze f)).1
  · rw [Heap.get_setBag_other _ _ apart.symm, Heap.get_setBag_same _ (by rw [size₁]; exact inside),
      Heap.get_setBag_other _ _ apart.symm]
  · rw [Heap.get_setBag_same _ (by rw [size₂]; exact inside'), getF₂]

/-- A constructor that has a source is defined if its methods' names have texts, and descends from its parent's
prototype. -/
theorem defineConstructor_descends {h : HostId} {s : Signature} {init parent link source : Value}
    {methods members : List (Name × Value)} (ancestral : w.Ancestral statics) (sound : w.Sound)
    (writable : ∀ m ∈ methods, Writable m.1.value) (allowed : ∀ m ∈ members, statics m.1.key)
    (answer : parentPrototype w h parent = .ok link)
    (sourced : s.sourceIn (drawn { w with heap := w.heap.push { proto := link } }) = .ok source) :
    ∃ v, exec (defineConstructor h s init parent methods members) w = (.ok (w.heap.size + 1), v) ∧
      DescendedFrom statics 0 v := by
  obtain ⟨q, rfl, frozen, head⟩ := parentPrototype_head ancestral sound answer
  let p := w.heap.size
  let f := w.heap.size + 1
  have apart : f ≠ p := Nat.succ_ne_self p
  obtain ⟨v₁, v₂, made, put, near, size₂, getP₂, getF₂⟩ := exec_openConstructor (w.host h).functionPrototype q
    (initialiser w init) sourced
  have inside₂ : w.heap.size < v₂.heap.size := by omega
  have inside₂' : w.heap.size + 1 < v₂.heap.size := by omega
  let op := (w.host h).objectPrototype
  have frozen_op : (w.heap.get op).bag.frozen = true := (sound.hosts h).top.2
  have get_op : v₂.heap.get op = w.heap.get op := near.old op (Heap.lt_size_of_frozen frozen_op)
  have host₂ : v₂.heap.hostFn? f = _ := congrArg Obj.host getF₂
  have head₂ : v₂.heap.IsHead p := isHead_of_props host₂ (by rw [getP₂])
  obtain ⟨v₃, puts, grown, head₃, same₃, descended₃⟩ := defineMethods_descends (w.heap.size + 2) h (p := p)
    methods (near.numbered sound.numbered)
    (by rw [near.host]; exact (ancestral.hosts h).head.change near.trail get_op)
    (by rw [near.host, get_op]; exact frozen_op) inside₂ (by rw [getP₂]; rfl) head₂
    writable (descendedFrom_of_size_le (Nat.le_of_eq size₂))
  have getF₃ : v₃.heap.get f = _ := (same₃ f inside₂' apart).trans getF₂
  obtain ⟨v₄, finished, late, size₄, getP₄, getF₄⟩ := exec_finishConstructor members apart (w := v₃)
    (Nat.lt_of_lt_of_le inside₂ grown.size_le) (Nat.lt_of_lt_of_le inside₂' grown.size_le) (by rw [getF₃]; rfl)
  have run : exec (defineConstructor h s init parent methods members) w = (.ok f, v₄) := by
    rw [defineConstructor, exec_get_bind, answer, exec_lift_ok_bind, exec_bind_ok (exec_begetFrom (.obj q)),
      exec_bind_ok made, exec_bind_ok put, exec_bind_ok puts]
    exact finished
  have whole : Grows w.heap.size w v₄ :=
    ((defineConstructor_leaves h s init parent methods members (Nat.le_refl _)).of_run run).1
  refine ⟨v₄, run, ancestral.functions.later whole.trail fun o fn above found => ?_⟩
  -- the new objects are the prototype, the constructor, and what was made for the methods
  rcases Nat.eq_or_lt_of_le above with rfl | above
  · have plain : v₃.heap.hostFn? p = none := by
      rw [Heap.hostFn?, grown.trail.sameShape.host p inside₂, getP₂]
    rw [Heap.hostFn?, getP₄] at found
    cases plain.symm.trans found
  rcases Nat.eq_or_lt_of_le above with rfl | above
  · rw [Heap.hostFn?, getF₄, getF₃] at found
    cases found
    refine ⟨p, rfl, by rw [getF₄]; rfl, fun k owned => ?_, by rw [getP₄]; rfl, ⟨fun x found => ?_, fun m listed => ?_⟩,
      .inr ⟨q, ?_, whole.trail.frozen frozen, ?_⟩⟩
    · rw [Heap.owns, getF₄, getF₃] at owned
      rcases owns_withMembers (b := functionBag _ _) owned with base | ⟨m, listed, rfl⟩
      · rcases owns_functionBag base with first | second
        · exact .inl first
        · exact .inr (.inl second)
      · exact .inr (.inr (allowed m listed))
    · rw [Heap.member?, getP₄] at found
      obtain ⟨c, g, rfl, host⟩ := head₃.constructor x found
      exact ⟨c, g, rfl, late.trail.hostFn? host⟩
    · rw [getP₄] at listed
      exact head₃.names m listed
    · rw [getP₄]
      show (v₃.heap.get p).proto = .obj q
      rw [grown.trail.sameShape.proto p inside₂, getP₂]
    · have elder := sound.numbered.elder head (Nat.le_succ w.heap.size) (Nat.le_refl w.nextCategory)
      exact elder.change whole.trail (whole.old q (Heap.lt_size_of_frozen frozen))
  · exact (descended₃.later late.trail fun o fn out found => absurd (Heap.lt_size_of_hostFn? found)
      (by rw [size₄]; exact Nat.not_lt.2 out)) o fn above found

/-! ## A new host -/

theorem topBag_constructor (n : ObjId) :
    ((topBag n).find? "constructor").map (·.value) = some (.obj (n + 2)) := by
  unfold topBag
  rw [Bag.find?_put_other _ _ _ (by decide), Bag.find?_put_other _ _ _ (by decide),
    Bag.find?_put_other _ _ _ (by decide)]
  exact Bag.find?_put_same {} (Name.ofText "constructor") _ false

theorem topBag_names {n : ObjId} {m : Name} (listed : m ∈ (topBag n).names) : Writable m.value := by
  rcases Bag.mem_names_put listed with listed | rfl
  · rcases Bag.mem_names_put listed with listed | rfl
    · rcases Bag.mem_names_put listed with listed | rfl
      · rcases Bag.mem_names_put (b := {}) listed with none | rfl
        · cases none
        · exact writable_str _
      · exact writable_str _
    · exact writable_str _
  · exact writable_str _

section NewHost

variable {v : World} {c : Nat}

/-- The objects of a new host stand in the heap from a position on. -/
def Stands (h : Heap) (n c : Nat) : Prop :=
  ∀ i, h.get (n + i) = (foundation n c)[i]?.getD {}

variable {h : Heap}

/-- An object that owns only a `constructor`, which is a host function, may be built on. -/
theorem isHead_of_single {q f : ObjId} {fn : HostFn} {x : Obj} (here : h.get q = x)
    (bag : x.bag.props = (({} : Bag).put (Name.ofText "constructor") (.obj f) false).props)
    (host : h.hostFn? f = some fn) : h.IsHead q := by
  refine ⟨fun y found => ?_, fun m listed => ?_⟩
  · rw [Heap.member?, here, Bag.find?, bag] at found
    have value := Bag.find?_put_same {} (Name.ofText "constructor") (.obj f) false
    exact ⟨f, fn, Option.some.inj (found.symm.trans value), host⟩
  · rw [here, Bag.names, bag] at listed
    rcases Bag.mem_names_put (b := {}) listed with none | rfl
    · cases none
    · exact writable_str _

/-- The first function of a new host is the constructor of objects. -/
theorem Stands.first (stands : Stands h n c) : ∃ fn, h.hostFn? (n + 2) = some fn ∧ fn.category = c := by
  rw [Heap.hostFn?, stands 2]
  exact ⟨_, rfl, rfl⟩

theorem Stands.isHead_top (stands : Stands h n c) : h.IsHead n := by
  have here : h.get n = _ := stands 0
  obtain ⟨fn, host, -⟩ := stands.first
  refine ⟨fun x found => ?_, fun m listed => ?_⟩
  · rw [Heap.member?, here] at found
    exact ⟨n + 2, fn, Option.some.inj (found.symm.trans (topBag_constructor n)), host⟩
  · rw [here] at listed
    exact topBag_names listed

/-- The constructor that the object prototype owns is older than all other functions of the host. -/
theorem Stands.elder (stands : Stands h n c) {o : ObjId} {category : Nat} (greater : c < category)
    (later : n + 2 < o) : h.Elder o category n := by
  intro x found
  have here : h.get n = _ := stands 0
  obtain ⟨fn, host, rfl⟩ := stands.first
  rw [Heap.member?, here] at found
  exact ⟨n + 2, fn, Option.some.inj (found.symm.trans (topBag_constructor n)), host, greater, later⟩

/-- A builtin function other than the constructor of objects descends from the object prototype. -/
theorem Stands.descended (stands : Stands h n c) {i j category : Nat} {name : Text} {impl : Impl} {arity : Int}
    {x : Obj} (function : (foundation n c)[i]?.getD {} = sealedObj (builtin name impl category arity (n + 1) (n + j)))
    (prototype : (foundation n c)[j]?.getD {} = x) (link : x.proto = .obj n) (frozen : x.bag.frozen = true)
    (bag : x.bag.props = (({} : Bag).put (Name.ofText "constructor") (.obj (n + i)) false).props)
    (greater : c < category) (later : 2 < i) :
    ∃ fn p, h.hostFn? (n + i) = some fn ∧ Heap.Descended statics h (n + i) fn p := by
  have here : h.get (n + i) = _ := (stands i).trans function
  have there : h.get (n + j) = _ := (stands j).trans prototype
  have host : h.hostFn? (n + i) = (builtin name impl category arity (n + 1) (n + j)).host := by
    rw [Heap.hostFn?, here]
    rfl
  have top : h.get n = _ := stands 0
  refine ⟨_, n + j, host, rfl, by rw [here]; rfl, fun k owned => ?_, by rw [there]; exact frozen,
    isHead_of_single there bag host, .inr ⟨n, by rw [there]; exact link, by rw [top]; rfl, ?_⟩⟩
  · rw [Heap.owns, here] at owned
    rcases owns_functionBag owned with first | second
    · exact .inl first
    · exact .inr (.inl second)
  · exact stands.elder greater (Nat.add_lt_add_left later n)

/-- Every host function of a new host has its ancestry. -/
theorem Stands.functions (stands : Stands h n c) {o : ObjId} {fn : HostFn} (late : n ≤ o)
    (found : h.hostFn? o = some fn) : ∃ p, Heap.Descended statics h o fn p := by
  have known {i : Nat} (some_fn : ∃ g p, h.hostFn? (n + i) = some g ∧ Heap.Descended statics h (n + i) g p)
      (found : h.hostFn? (n + i) = some fn) : ∃ p, Heap.Descended statics h (n + i) fn p := by
    obtain ⟨g, p, host, descended⟩ := some_fn
    obtain rfl := Option.some.inj (host.symm.trans found)
    exact ⟨p, descended⟩
  obtain ⟨i, rfl⟩ := Nat.exists_eq_add_of_le late
  match i with
  | 0 | 1 | 4 | 6 | 8 =>
    rw [Heap.hostFn?, stands] at found
    cases found
  | 2 =>
    -- the constructor of objects is at the end: its prototype has none above it
    have top : h.get n = _ := stands 0
    have here : h.get (n + 2) = _ := stands 2
    have host := found
    rw [Heap.hostFn?, here] at host
    cases host
    refine ⟨n, rfl, by rw [here]; rfl, fun k owned => ?_, by rw [top]; rfl, stands.isHead_top, .inl (by rw [top]; rfl)⟩
    rw [Heap.owns, here] at owned
    rcases owns_functionBag owned with first | second
    · exact .inl first
    · exact .inr (.inl second)
  | 3 => exact known (stands.descended (i := 3) (j := 1) rfl rfl rfl rfl rfl (Nat.lt_succ_self c) (by decide)) found
  | 5 => exact known (stands.descended (i := 5) (j := 4) rfl rfl rfl rfl rfl (by omega) (by decide)) found
  | 7 => exact known (stands.descended (i := 7) (j := 6) rfl rfl rfl rfl rfl (by omega) (by decide)) found
  | 9 => exact known (stands.descended (i := 9) (j := 8) rfl rfl rfl rfl rfl (by omega) (by decide)) found
  | i + 10 =>
    rw [Heap.hostFn?, stands] at found
    cases found

theorem Stands.heads (stands : Stands h n c) : Heads h ⟨n, n + 1, n + 2, n + 3, []⟩ := by
  have top : h.get n = _ := stands 0
  have here : h.get (n + 1) = _ := stands 1
  refine ⟨stands.isHead_top, fun fn found => ?_, fun fn found => ?_⟩
  · rw [Heap.hostFn?, stands] at found
    cases found
    rfl
  · rw [Heap.hostFn?, stands] at found
    cases found
    refine ⟨rfl, by rw [here]; rfl, ?_⟩
    rw [Heap.member?, top]
    exact topBag_constructor n

end NewHost

theorem make_ancestral (ancestral : w.Ancestral statics) (sound : w.Sound) : (exec make w).2.Ancestral statics := by
  have advances : Advances w (exec make w).2 := (make_follows w).world sound
  rw [exec_make] at advances ⊢
  have stands : Stands (extended w (foundation w.heap.size w.nextCategory) (w.nextCategory + 5)).heap w.heap.size
      w.nextCategory := fun i => get_extended w _ _ i
  refine ⟨ancestral.functions.later advances.trail fun o fn late found => stands.functions late found, fun h => ?_⟩
  by_cases new : h = w.hosts.size
  · rw [World.host, new, Array.getElem?_push_size]
    exact stands.heads
  · rw [World.host, Array.getElem?_push, if_neg new]
    exact (ancestral.hosts h).change (sound.hosts h) advances.trail

end Host

namespace World
variable {statics : Key → Prop} {w : World}

/-- What makes no host function and no host leaves a world ancestral. -/
theorem Ancestral.follows {α : Type} {x : Act α} (ancestral : w.Ancestral statics) (sound : w.Sound)
    (follows : Follows .plain x) (changes : w.heap.Changes (exec x w).2.heap) : (exec x w).2.Ancestral statics := by
  obtain ⟨functions, hosts⟩ := (follows w).world
  refine ancestral.advance sound changes functions fun h => ⟨h, ?_⟩
  rw [World.host, hosts, World.host]

theorem Ancestral.aside {v : World} (ancestral : w.Ancestral statics) (sound : w.Sound) (aside : Aside w v) :
    v.Ancestral statics := by
  refine ancestral.advance sound (by rw [aside.heap]; exact .refl _) (fun o => by rw [aside.heap]) fun h => ⟨h, ?_⟩
  rw [World.host, aside.hosts, World.host]

theorem Ancestral.registerPrimitive (ancestral : w.Ancestral statics) (sound : w.Sound) (h : HostId)
    (kind : Primitive) (ctor : Value) : (exec (Host.registerPrimitive h kind ctor) w).2.Ancestral statics := by
  refine ancestral.advance sound (.refl _) (fun _ => rfl) fun i => ⟨i, ?_⟩
  show Host.roots ((w.hosts.modify h _)[i]?.getD default) = Host.roots (w.hosts[i]?.getD default)
  rw [Array.getElem?_modify]
  split
  · cases w.hosts[i]? <;> rfl
  · rfl

theorem Ancestral.defineFunction (ancestral : w.Ancestral statics) (sound : w.Sound) (h : HostId) (impl : Impl)
    (s : Host.Signature) : (exec (Host.defineFunction h impl s) w).2.Ancestral statics := by
  let op := (w.host h).objectPrototype
  let fp := (w.host h).functionPrototype
  show (exec (Host.define op fp impl s) w).2.Ancestral statics
  cases sourced : s.sourceIn (Host.drawn { w with heap := w.heap.push { proto := .obj op } }) with
  | error e =>
    have stops := @Host.define_stops w op fp impl s e sourced
    refine ancestral.advance sound (Host.define_leaves op fp impl s (Nat.le_refl _)).world.trail
      (fun o => (stops o).1) fun i => ⟨i, ?_⟩
    rw [World.host, (stops 0).2, World.host]
  | ok source =>
    obtain ⟨v, run, grown, -, -, keeps⟩ := Host.define_descends statics fp impl sound.numbered
      (ancestral.hosts h).head (sound.hosts h).top.2 sourced
    rw [run]
    refine ⟨keeps 0 ancestral.functions, fun i => ?_⟩
    rw [grown.host]
    exact (ancestral.hosts i).change (sound.hosts i) grown.trail

theorem Ancestral.defineConstructor (ancestral : w.Ancestral statics) (sound : w.Sound) (h : HostId)
    (s : Host.Signature) (init parent : Value) {methods members : List (Name × Value)}
    (writable : ∀ m ∈ methods, Writable m.1.value) (allowed : ∀ m ∈ members, statics m.1.key) :
    (exec (Host.defineConstructor h s init parent methods members) w).2.Ancestral statics := by
  have grown := (Host.defineConstructor_leaves h s init parent methods members (Nat.le_refl w.heap.size)).world
  have hosts (i : HostId) : (exec (Host.defineConstructor h s init parent methods members) w).2.host i = w.host i :=
    grown.host i
  cases answer : Host.parentPrototype w h parent with
  | error e =>
    have stops : exec (Host.defineConstructor h s init parent methods members) w = (.error e, w) := by
      rw [Host.defineConstructor, exec_get_bind, answer]
      rfl
    rw [stops]
    exact ancestral
  | ok link =>
    let v₁ : World := { w with heap := w.heap.push { proto := link } }
    cases sourced : s.sourceIn (Host.drawn v₁) with
    | error e =>
      have stops : exec (Host.defineConstructor h s init parent methods members) w = (.error e, Host.drawn v₁) := by
        rw [Host.defineConstructor, exec_get_bind, answer, exec_lift_ok_bind, exec_bind_ok (exec_begetFrom link)]
        exact exec_bind_error (Host.exec_newFunction_error _ _ _ sourced)
      refine ancestral.advance sound grown.trail (fun o => ?_) fun i => ⟨i, by rw [hosts]⟩
      rw [stops]
      exact ((begetFrom_plain link w).of_run (exec_begetFrom link)).1.1 o
    | ok source =>
      obtain ⟨v, run, functions⟩ := Host.defineConstructor_descends (s := s) ancestral sound writable allowed answer sourced
      refine ⟨by rw [run]; exact functions, fun i => ?_⟩
      rw [hosts]
      exact (ancestral.hosts i).change (sound.hosts i) grown.trail

end World

/-- An effect by which host functions come only with a host or by definition leaves a world ancestral. -/
theorem Effect.ancestral {statics : Key → Prop} {w : World} (sound : w.Sound) {d : Effect}
    (within : d.Within (.definitions statics)) (ancestral : w.Ancestral statics) : (d.after w).Ancestral statics := by
  have trail := (d.advances sound).trail
  cases d with
  | newFn f => exact ancestral.follows sound (newFn_plain f) trail
  | newObject proto members => exact ancestral.follows sound (alloc_plain proto _) trail
  | put o name value enumerable => exact ancestral.follows sound (putProperty_plain o name value enumerable) trail
  | erase o name => exact ancestral.follows sound (eraseProperty_plain o name) trail
  | freeze o => exact ancestral.follows sound (freeze_plain o) trail
  | newFunction impl s proto prototype => exact absurd within id
  | defineFunction h impl s => exact ancestral.defineFunction sound h impl s
  | defineConstructor h s init parent methods members =>
    exact ancestral.defineConstructor sound h s init parent within.1 within.2
  | makeHost => exact Host.make_ancestral ancestral sound
  | registerPrimitive h kind ctor => exact ancestral.registerPrimitive sound h kind ctor
  | makePlugin h config outers => exact ancestral.follows sound (Plugin.make_plain h config outers) trail
  | shadowOf p f => exact ancestral.follows sound (Plugin.shadowOf_plain p f) trail
  | emulate p raw name =>
    exact ancestral.follows sound (.look fun _ => .bind (Emulation.emulate_plain _ _ raw name) fun _ => .pure _) trail
  | forwarder p name =>
    exact ancestral.follows sound (.look fun _ => .bind (Emulation.forwarder_plain _ _ _ name) fun _ => .pure _) trail

theorem World.initial_ancestral (statics : Key → Prop) : World.initial.Ancestral statics := by
  have plain (o : ObjId) : World.initial.heap.hostFn? o = none := by
    match o with
    | 0 => rfl
    | o + 1 => rfl
  refine ⟨fun o fn _ found => ?_, fun h => ?_⟩
  · rw [plain o] at found
    cases found
  · have none_yet : World.initial.host h = default := rfl
    rw [none_yet]
    refine ⟨⟨nofun, nofun⟩, fun fn found => ?_, fun fn found => ?_⟩
    · rw [plain] at found
      cases found
    · rw [plain] at found
      cases found

/-- Where all host functions come with a host or by definition, each has its ancestry at all times. -/
theorem ReachableUnder.ancestral {statics : Key → Prop} {allows : World → Effect → Prop} {w : World}
    (reachable : ReachableUnder allows w) (within : ∀ u d, allows u d → d.Within (.definitions statics)) :
    w.Ancestral statics := by
  exact ExecutionUnder.keeps reachable World.initial_sound (World.initial_ancestral statics)
    (fun u t sound aside held => held.aside sound aside)
    fun u d sound allowed held => d.ancestral sound (within u d allowed) held

end Overlay
