import Overlay.Proofs.Emulated
import Overlay.Proofs.Grammar

/-!
# Headers hide what follows them

Whether a line starts a header is decided at its first opening parenthesis, and the parameters end at the first closing
one. So a source may go on in any way after the header that is read: no earlier line that did not start a header starts
one then, and the same receiver is left out (`Parse.IsFirst.withAfter`). What is shown of a function is therefore the
same for all sources that agree up to the end of the header, and so is what its emulated function prints (`Prints`).
-/

namespace Overlay
set_option autoImplicit false

open Text (trim)

namespace Header

section Rests
variable {r part rest rest' : Text}

/-! ## What depends on the next character only -/

theorem IsRun.of_head {p : Rune → Bool} {run : Text} (isRun : IsRun p run rest) (same : rest'.head? = rest.head?) :
    IsRun p run rest' :=
  ⟨isRun.inside, by rw [same]; exact isRun.stops⟩

theorem IsTypeMark.of_head {mark : Text} (isMark : IsTypeMark mark rest) (same : rest'.head? = rest.head?) :
    IsTypeMark mark rest' := by
  rcases isMark with ⟨rfl, other⟩ | ⟨run, rfl, isRun⟩
  · exact .inl ⟨rfl, by rw [same]; exact other⟩
  · exact .inr ⟨run, rfl, isRun.of_head same⟩

theorem IsComma.of_head {comma : Text} (isComma : IsComma comma rest) (same : rest'.head? = rest.head?) :
    IsComma comma rest' := by
  rcases isComma with ⟨rfl, other⟩ | rfl
  · exact .inl ⟨rfl, by rw [same]; exact other⟩
  · exact .inr rfl

theorem ReceiverPart.of_head (isPart : ReceiverPart r part rest) (same : rest'.head? = rest.head?) :
    ReceiverPart r part rest' := by
  obtain ⟨isDollar, ends, isGap, isMark, isComma, isSpace⟩ := isPart
  have heads (t : Text) : (t ++ rest').head? = (t ++ rest).head? := by
    rw [List.head?_append, List.head?_append, same]
  refine .intro isDollar ?_ (isGap.of_head (heads _)) (isMark.of_head (heads _)) (isComma.of_head (heads _))
    (isSpace.of_head same)
  rw [heads]
  exact ends

end Rests

/-- A cut that comes before a character, when the character is not in what is cut off. -/
theorem split_before {c : Rune} {t tail part rest : Text} (same : t ++ c :: tail = part ++ rest) (outside : c ∉ part) :
    ∃ middle, t = part ++ middle ∧ rest = middle ++ c :: tail := by
  rcases List.append_eq_append_iff.1 same with ⟨middle, rfl, split⟩ | ⟨middle, rfl, rfl⟩
  · cases middle with
    | nil => exact ⟨[], by simp, by simpa using split.symm⟩
    | cons d middle =>
      obtain ⟨rfl, -⟩ := List.cons.inj split
      simp at outside
  · exact ⟨middle, rfl, rfl⟩

theorem Opens.not_mem_paren {opening name : Text} (opens : Opens opening name) : .char '(' ∉ opening := by
  obtain ⟨margin_blank, isAsync, isKeyword, -, gap_blank, isName, space_blank⟩ := opens
  rename_i margin async keyword gap space
  have outside {p : Rune → Bool} {t : Text} (inside : ∀ c ∈ t, p c = true) (other : p (.char '(') = false) :
      .char '(' ∉ t := fun listed => by
    rw [inside _ listed] at other
    cases other
  have margins := outside margin_blank (by decide)
  have asyncs : .char '(' ∉ async := by
    rcases isAsync with rfl | ⟨spaces, rfl, -, blank⟩
    · simp
    · have spaces_outside := outside blank (by decide)
      simp only [List.mem_append, not_or]
      exact ⟨by decide, spaces_outside⟩
  have keywords : .char '(' ∉ keyword := by
    rcases isKeyword with rfl | rfl <;> decide
  have gaps := outside gap_blank (by decide)
  have names := outside isName.inside (by decide)
  have spaces := outside space_blank (by decide)
  simp only [List.mem_append, not_or]
  exact ⟨⟨⟨⟨⟨margins, asyncs⟩, keywords⟩, gaps⟩, names⟩, spaces⟩

/-- Whether a line starts a header does not depend on what follows a pair of parentheses in it. -/
theorem Starts.of_pair {t inner tail tail' : Text}
    (starts : Starts (t ++ .char '(' :: (inner ++ .char ')' :: tail))) :
    Starts (t ++ .char '(' :: (inner ++ .char ')' :: tail')) := by
  obtain ⟨opening, name, left, opens, split, -⟩ := starts
  obtain ⟨middle, rfl, rest⟩ := split_before split opens.not_mem_paren
  -- the parenthesis at which the line is decided is the one of the pair or an earlier one
  cases middle with
  | nil => exact ⟨opening, name, inner ++ .char ')' :: tail', opens, by simp, by simp⟩
  | cons c middle =>
    obtain ⟨rfl, -⟩ := List.cons.inj rest
    exact ⟨opening, name, middle ++ .char '(' :: (inner ++ .char ')' :: tail'), opens, by simp, by simp⟩

section Sources
variable {r : Text} {x : Parse}

/-- What is left out of a parameter list does not depend on what follows the list. -/
theorem LeavesOut.of_params {part params after after' : Text} (word : IsWordText r)
    (leavesOut : LeavesOut r part (params ++ .char ')' :: after)) :
    LeavesOut r part (params ++ .char ')' :: after') := by
  have heads (t : Text) : (t ++ .char ')' :: after).head? = (t ++ .char ')' :: after').head? := by
    rw [List.head?_append, List.head?_append]
    rfl
  rcases leavesOut with isPart | ⟨rfl, nowhere⟩
  · exact .inl (isPart.of_head (heads params).symm)
  · refine .inr ⟨rfl, fun part rest split isPart => ?_⟩
    obtain ⟨middle, rfl, rfl⟩ := split_before split (isPart.not_mem_close word)
    exact nowhere part (middle ++ .char ')' :: after) (by simp) (isPart.of_head (heads middle))

/-- The header that is read stays the first one however the source goes on after it. -/
theorem Parse.IsFirst.withAfter (first : x.IsFirst r) (word : IsWordText r) (after : Text) :
    ({ x with after := after } : Parse).IsFirst r := by
  refine ⟨first.lineStart, first.opens, first.leavesOut.of_params word, first.closes, ?_⟩
  intro before line lineStart split shorter starts
  let rest (after : Text) := x.opening ++ .char '(' :: (x.receiver ++ x.params ++ .char ')' :: after)
  have whole (after : Text) : ({ x with after := after } : Parse).source = x.before ++ rest after := by
    simp [rest, Parse.source, Parse.upToEnd]
  rw [whole] at split
  -- the earlier line reaches into the header, so it has the same pair of parentheses in either source
  obtain ⟨middle, before_eq, rfl⟩ : ∃ middle, x.before = before ++ middle ∧ line = middle ++ rest after := by
    rcases List.append_eq_append_iff.1 split with ⟨middle, rfl, -⟩ | ⟨middle, same, same'⟩
    · have longer : x.before.length ≤ (x.before ++ middle).length := by
        rw [List.length_append]
        omega
      exact absurd shorter (Nat.not_lt.2 longer)
    · exact ⟨middle, same, same'⟩
  refine first.earliest before (middle ++ rest x.after) lineStart ?_ shorter ?_
  · rw [whole x.after, before_eq, List.append_assoc]
  · have pair (after : Text) : middle ++ rest after =
        (middle ++ x.opening) ++ .char '(' :: ((x.receiver ++ x.params) ++ .char ')' :: after) := by simp [rest]
    rw [pair] at starts ⊢
    exact starts.of_pair

end Sources

end Header

/-! ## What an emulated function prints -/

open Act World

/-- A source text stays what it is. -/
theorem Host.source_grown {n : Nat} {w v : World} {raw : Value} {source : Text} (grown : Grows n w v)
    (known : Host.source w raw = .str source) : Host.source v raw = .str source := by
  cases host : w.hostFn? raw with
  | some f =>
    obtain ⟨o, rfl⟩ : ∃ o, raw = .obj o := by
      unfold World.hostFn? at host
      split at host
      · exact ⟨_, rfl⟩
      · cases host
    have inside : o < w.heap.size := Heap.lt_size_of_hostFn? host
    have still : v.hostFn? (.obj o) = some f := (grown.trail.sameShape.host o inside).trans host
    simp only [Host.source, host, still] at known ⊢
    exact known
  | none =>
    simp only [Host.source, host] at known
    split at known
    · rename_i i
      cases found : w.fns[i]? with
      | none =>
        rw [found] at known
        cases known
      | some f =>
        rw [found] at known
        simp only [Host.source, World.hostFn?, grown.fns_getElem? found]
        exact known
    · cases known

namespace Emulation
variable {n : Nat} {w v : World} {o : ObjId} {raw : Value} {source : Text}

/-- The `toString` of the object answers a text. -/
def Prints (w : World) (o : ObjId) (text : Text) : Prop :=
  ∃ a, w.heap.member? o "toString" = some (.fn a) ∧ w.fns[a]? = some (.printer text)

theorem Prints.put_leaves {p : ObjId} {s text : Text} {x : Value} (prints : Prints w o text) (other : s ≠ "toString") :
    Leaves (.growth 0) (Act.putHidden p (.str s) x) w fun _ v => Prints v o text := by
  refine (putProperty_leaves p (.str s) x false (Nat.zero_le _)).conseq fun _ v _ => ?_
  rintro ⟨k, spelled, -, rfl⟩
  have key : Key.text s = k.key := Option.some.inj (Name.key_of? spelled)
  have differs : k.key ≠ ("toString" : Text) := fun same => other (Key.text.inj (key.trans same))
  obtain ⟨a, member, code⟩ := prints
  exact ⟨a, (Heap.member?_put_other _ _ _ (.inl differs)).trans member, code⟩

/-- The object is there, and the source of the callable is known. -/
structure Drafted (w : World) (o : ObjId) (raw : Value) (source : Text) : Prop where
  inside : o < w.heap.size
  known : Host.source w raw = .str source

theorem Drafted.after {α : Type} {x : Act α} {P : α → World → Prop} (drafted : Drafted w o raw source)
    (leaves : Leaves (.growth n) x w P) : Leaves (.growth n) x w fun _ v => Drafted v o raw source :=
  leaves.conseq fun _ _ grown _ =>
    ⟨Nat.lt_of_lt_of_le drafted.inside grown.size_le, Host.source_grown grown drafted.known⟩

/-- A name that is a text or is not given, as it is passed on. -/
def nameValue (name : Option Text) : Value :=
  name.elim .null .str

/-- Under a name that is a text, or under no name, a header is shown as it is for plain texts. -/
theorem renderAs_nameValue (w : World) (receiver body : Text) (source name : Option Text) :
    ∃ r, Header.renderAs w.isTruthy w.bare receiver body source (nameValue name) = .ok r ∧
      r.text = (Header.render receiver body source name).text := by
  cases name with
  | none => exact ⟨_, rfl, rfl⟩
  | some name =>
    have given : ¬ ((nameValue (some name)).isNull = true) := by simp [nameValue, Datum.isNull]
    by_cases shown : ((Header.findIn? receiver source).isSome || w.isTruthy (nameValue (some name))) = true
    · exact ⟨_, by rw [Header.renderAs, if_neg given, if_pos shown]; rfl, rfl⟩
    · -- a name that does not count as true is the empty text, and this is what is shown then
      obtain rfl : name = [] := by
        cases name with
        | nil => rfl
        | cons c rest => simp [nameValue, World.isTruthy, Datum.isTruthy] at shown
      exact ⟨_, by rw [Header.renderAs, if_neg given, if_neg shown]; rfl, rfl⟩

theorem renderHeader_leaves (config : Config) (name : Option Text) (known : Host.source w raw = .str source) :
    Leaves .aside (renderHeader config raw (nameValue name)) w fun r _ =>
      r.text = (Header.render config.receiver config.redactedBody (some source) name).text := by
  have read : exec (Host.sourceText raw) w = (.ok (.str source), w) := by
    unfold Host.sourceText
    rw [exec_get_bind, known]
    cases w.hostFn? raw <;> rfl
  obtain ⟨r, shown, text⟩ := renderAs_nameValue w config.receiver config.redactedBody (some source) name
  refine .bind_get (.of_exec (exec_bind_ok read) (Aside.refl w) ?_)
  refine .bind_lift (Header.sourceOf_noReport _ _) fun found answer => ?_
  cases answer
  have last (v : World) : Leaves .aside (liftM (Header.renderAs w.isTruthy w.bare config.receiver config.redactedBody
      (some source) (nameValue name))) v fun r _ =>
        r.text = (Header.render config.receiver config.redactedBody (some source) name).text := by
    rw [shown]
    exact .of_ok rfl (Aside.refl v) text
  dsimp only
  split
  · exact .bind (say_follows (fun _ => .ok _) w) fun _ v _ _ => last v
  · exact last w

/-- An emulated function prints the header of its raw callable. -/
theorem emulate_prints (roots : Roots) (config : Config) (name : Option Text) (known : Host.source w raw = .str source) :
    Leaves (.growth 0) (emulate roots config raw (nameValue name)) w fun o v =>
      Prints v o (Header.render config.receiver config.redactedBody (some source) name).text := by
  refine .bind (enforceCallable_leaves raw _).growth ?_
  rintro - v - ⟨rfl, -⟩
  refine .bind (begetFrom_leaves _ (Nat.zero_le _)) ?_
  rintro - v₀ grown ⟨rfl, rfl⟩
  have drafted : Drafted _ v.heap.size raw source :=
    ⟨by rw [Array.size_push]; exact Nat.lt_succ_self _, Host.source_grown grown known⟩
  generalize v.heap.size = o at drafted ⊢
  refine .bind (drafted.after (putProperty_leaves _ _ _ _ (Nat.zero_le _))) fun _ v₁ _ drafted => ?_
  refine .bind (drafted.after (Act.newFn_leaves _)) fun _ v₂ _ drafted => ?_
  refine .bind (drafted.after (putProperty_leaves _ _ _ _ (Nat.zero_le _))) fun _ v₃ _ drafted => ?_
  refine .bind (drafted.after (Act.newFn_leaves _)) fun _ v₄ _ drafted => ?_
  refine .bind (drafted.after (putProperty_leaves _ _ _ _ (Nat.zero_le _))) fun _ v₅ _ drafted => ?_
  refine .bind (drafted.after (begetFrom_leaves _ (Nat.zero_le _))) fun p v₆ _ drafted => ?_
  refine .bind (drafted.after (putProperty_leaves _ _ _ _ (Nat.zero_le _))) fun _ v₇ _ drafted => ?_
  refine .bind (drafted.after (putProperty_leaves _ _ _ _ (Nat.zero_le _))) fun _ v₈ _ drafted => ?_
  refine .bind_get (.bind (drafted.after ((shownLength_follows _ v₈).growth)) fun _ v₉ _ drafted => ?_)
  refine .bind (drafted.after (putProperty_leaves _ _ _ _ (Nat.zero_le _))) fun _ v₁₀ _ drafted => ?_
  refine .bind ((renderHeader_leaves config name drafted.known).growth) fun r v₁₁ grown text => ?_
  have inside : o < v₁₁.heap.size := Nat.lt_of_lt_of_le drafted.inside grown.size_le
  rw [← text]
  refine .bind (Act.newFn_leaves (.printer r.text)) ?_
  rintro - v₁₂ - ⟨rfl, rfl⟩
  refine .bind ((putProperty_leaves o (.str "toString") (.fn v₁₁.fns.size) false (Nat.zero_le _)).conseq
    (S := fun _ u => Prints u o r.text) fun _ u _ => ?_) fun _ v₁₃ _ prints => ?_
  · rintro ⟨k, spelled, -, rfl⟩
    have key : Key.text "toString" = k.key := Option.some.inj (Name.key_of? spelled)
    refine ⟨v₁₁.fns.size, ?_, Array.getElem?_push_size⟩
    rw [key]
    exact Heap.member?_put_same k _ _ inside
  refine .bind_get ?_
  dsimp only
  split
  · refine .bind (prints.put_leaves (by decide)) fun _ v₁₄ _ prints => ?_
    exact .pure prints
  · exact .pure prints

end Emulation

namespace Header

/-- What follows the parameters stays hidden. Where a header is found, the source has a parse; and for every parse of it
there is one rendering, which is what is shown of each source that starts as this one does up to the end of the header,
however it goes on, and which is what an emulated function with such a source prints. -/
theorem rendering_hides_rest {r : Text} (word : IsWordText r) (body source : Text) (name : Option Text)
    (found : (render r body (some source) name).found = true) :
    (∃ x : Parse, x.IsFirst r ∧ x.source = source) ∧
    ∀ x : Parse, x.IsFirst r → x.source = source → ∃ shown : Rendering (Option Text),
      (∀ rest, render r body (some (x.upToEnd ++ rest)) name = shown) ∧
      ∀ (w v : World) (roots : Roots) (config : Config) (raw : Value) (rest : Text) (o : ObjId),
        config.receiver = r → config.redactedBody = body → Host.source w raw = .str (x.upToEnd ++ rest) →
        exec (Emulation.emulate roots config raw (Emulation.nameValue name)) w = (.ok o, v) →
        Emulation.Prints v o shown.text := by
  rw [render_found] at found
  refine ⟨exists_first word found, fun x first _ => ?_⟩
  have same (rest : Text) : render r body (some (x.upToEnd ++ rest)) name =
      ⟨write (name.getD x.name) (trim x.params) body, some (name.getD x.name), true⟩ :=
    (first.withAfter word rest).render_eq word body name
  refine ⟨_, same, fun w v roots config raw rest o receiver placeholder known made => ?_⟩
  have prints := (Emulation.emulate_prints roots config name known).value o (by rw [made])
  rw [made, receiver, placeholder] at prints
  rw [← same rest]
  exact prints

/-- A source in which only the second line starts a header, and a function that has it as its source. -/
theorem rendering_hides_rest_second_line : IsWordText "dis" ∧
    (render "dis" "[cajoled code]" (some "def f\ndef g(dis, a):\n  return a") none).found = true ∧
    ∃ x : Parse, x.IsFirst "dis" ∧ x.source = ("def f\ndef g(dis, a):\n  return a" : Text) ∧
    ∃ shown : Rendering (Option Text), shown.name = some ("g" : Text) ∧
      (∀ rest, render "dis" "[cajoled code]" (some (x.upToEnd ++ rest)) none = shown) ∧
      ∃ v o, exec (Emulation.emulate ⟨0, 0, 0, 0⟩ {} (.fn 0) .null)
          { fns := #[.user ⟨"g", [], [], .str "def f\ndef g(dis, a):\n  return a"⟩] } = (.ok o, v) ∧
        Emulation.Prints v o shown.text := by
  have word : IsWordText "dis" := by decide
  have facts : (render "dis" "[cajoled code]" (some "def f\ndef g(dis, a):\n  return a") none).found = true ∧
      (render "dis" "[cajoled code]" (some "def f\ndef g(dis, a):\n  return a") none).name = some ("g" : Text) ∧
      (exec (Emulation.emulate ⟨0, 0, 0, 0⟩ {} (.fn 0) .null)
          { fns := #[.user ⟨"g", [], [], .str "def f\ndef g(dis, a):\n  return a"⟩] }).1.isOk = true := by
    decide +kernel
  obtain ⟨found, named, ends⟩ := facts
  obtain ⟨⟨x, first, same⟩, hides⟩ := rendering_hides_rest word _ _ _ found
  obtain ⟨shown, rendered, prints⟩ := hides x first same
  have whole : x.upToEnd ++ x.after = ("def f\ndef g(dis, a):\n  return a" : Text) := same
  refine ⟨word, found, x, first, same, shown, ?_, rendered, ?_⟩
  · rw [← rendered x.after, whole]
    exact named
  · rcases made : exec (Emulation.emulate ⟨0, 0, 0, 0⟩ {} (.fn 0) .null)
      { fns := #[.user ⟨"g", [], [], .str "def f\ndef g(dis, a):\n  return a"⟩] } with ⟨e | o, v⟩
    · rw [made] at ends
      cases ends
    · refine ⟨v, o, rfl, prints _ v ⟨0, 0, 0, 0⟩ {} (.fn 0) x.after o rfl rfl ?_ made⟩
      rw [whole]
      rfl

end Header

end Overlay
