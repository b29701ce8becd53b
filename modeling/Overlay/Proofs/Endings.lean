import Overlay.Command.Run

/-!
# How the header command ends

The header command shows what header it finds in a file. Of its options, the name and the receiver are
texts in all but one case: an argument that ends in `=--` gives its switch the empty list, because two dashes
alone are dropped from the values of a switch. `scan_from` traces every value back to the argument it
stands in, `ofArgs_header` says so of a whole command line, and `header_command_ends` says how the run ends for
every file: with exit code zero and the rendered header, or with no exit code at all if the receiver is that
list or the bytes are no UTF-8.
-/

namespace Overlay
set_option autoImplicit false

/-! ## Bytes that are texts -/

namespace Text

/-- Bytes that encode some characters are read as these, with their line ends made one. -/
theorem ofBytes?_utf8Encode (cs : List Char) : ofBytes? cs.utf8Encode = some ((unifyNewlines cs).map .char) := by
  have valid : cs.utf8Encode.IsValidUTF8 := ⟨cs, rfl⟩
  have same : String.fromUTF8 cs.utf8Encode valid = String.ofList cs := rfl
  rw [ofBytes?, String.fromUTF8?, dif_pos valid, same, Option.map_some, String.toList_ofList]

theorem ofBytes?_eq_none {b : ByteArray} (invalid : ¬ b.IsValidUTF8) : ofBytes? b = none := by
  rw [ofBytes?, String.fromUTF8?, dif_neg invalid, Option.map_none]

end Text

/-! ## Names that are any data -/

namespace Header

theorem exists_renderData (r body source : Text) (name : PlainDatum) :
    ∃ shown, renderData (.str r) (.str body) (.str source) name = .ok shown := by
  unfold renderData renderAs
  simp only [sourceOf, bind, Except.bind]
  split
  · exact ⟨_, rfl⟩
  · split <;> exact ⟨_, rfl⟩

/-- A text is shown as a name: where no header is found and an empty name is left out, nothing is missing. -/
theorem renderData_str (r body source n : Text) :
    renderData (.str r) (.str body) (.str source) (.str n) =
      .ok ⟨(render r body (some source) (some n)).text, .str n, (render r body (some source) (some n)).found⟩ := by
  unfold renderData renderAs
  simp only [sourceOf, Datum.isNull, Datum.isTruthy, Datum.bare, bind, Except.bind, Bool.false_eq_true, if_false]
  cases n with
  | nil => exact ite_self _
  | cons c n => exact if_pos (Bool.or_true _)

end Header

namespace Command

/-! ## What switches are given -/

section Scanning
variable {α : Type} {g : Switches α}

/-- Only switches with long spellings take values. -/
def LongValues (g : Switches α) : Prop :=
  ∀ e ∈ g, e.2.takesValue = true → 2 < e.1.length

theorem mem_of_lookup {spelling : Text} {s : Switch α} (found : g.lookup spelling = some s) : (spelling, s) ∈ g := by
  obtain ⟨before, after, rfl, -⟩ := List.lookup_eq_some_iff.1 found
  simp

theorem suffix_of_cutAtEquals {t value : Text} (cut : (cutAtEquals t).2 = some value) : (.char '=' :: value) <:+ t := by
  unfold cutAtEquals at cut
  split at cut
  · cases cut
  · next c rest dropped =>
    obtain rfl := Option.some.inj cut
    have first := List.head?_dropWhile_not (· != Rune.char '=') t
    rw [dropped] at first
    have sign : c = .char '=' := by simpa using first
    rw [← sign, ← dropped]
    exact List.dropWhile_suffix _

/-- An argument that is not spelled out stands for switches there are. -/
theorem looseMatches_switch {arg spelling : Text} {s : Switch α} {attached : Option Text}
    (listed : .switch spelling s attached ∈ looseMatches g arg) :
    (spelling, s) ∈ g ∧ ∀ v, attached = some v → (.char '=' :: v) <:+ arg ∨ spelling.length ≤ 2 := by
  unfold looseMatches at listed
  split at listed
  · obtain ⟨e, among, same⟩ := List.mem_map.1 listed
    cases same
    exact ⟨(List.mem_filter.1 among).1, fun v value => .inl (suffix_of_cutAtEquals value)⟩
  · obtain ⟨e, among, found⟩ := List.mem_filterMap.1 listed
    split at found
    · next short =>
      cases found
      refine ⟨among, fun v _ => .inr ?_⟩
      rw [eq_of_beq short]
      exact List.length_take_le 2 arg
    · split at found
      · cases found
        exact ⟨among, by rintro v ⟨⟩⟩
      · cases found

/-- An argument that reads as a switch has the spelling of one; what is attached to it follows an equals sign, or the
switch is a short one. -/
theorem classify_switch {arg spelling : Text} {s : Switch α} {attached : Option Text}
    (read : classify g arg = .switch spelling s attached) :
    (spelling, s) ∈ g ∧ ∀ v, attached = some v → (.char '=' :: v) <:+ arg ∨ spelling.length ≤ 2 := by
  unfold classify at read
  split at read
  · next rest =>
    split at read
    · next s' found =>
      cases read
      exact ⟨mem_of_lookup found, by rintro v ⟨⟩⟩
    · split at read
      · cases read
      · split at read
        · next r exact_value =>
          subst read
          unfold exactWithValue? at exact_value
          split at exact_value
          · next name value cut =>
            obtain ⟨s', found, same⟩ := Option.map_eq_some_iff.1 exact_value
            cases same
            refine ⟨mem_of_lookup found, ?_⟩
            rintro v ⟨⟩
            exact .inl (suffix_of_cutAtEquals (congrArg Prod.snd cut))
          · cases exact_value
        · split at read
          · next r loose =>
            subst read
            exact looseMatches_switch (by rw [loose]; exact List.mem_cons_self)
          · cases read
          · split at read <;> cases read
  · cases read

/-- What a mark tells of the arguments it was read from. A switch without a value is one that takes none; a value of two
dashes was attached with an equals sign; and the arguments after an operand come last. -/
def Mark.IsFrom (g : Switches α) (args : List Text) : Mark α → Prop
  | .switch m none => ∃ e ∈ g, e.2.meaning = m ∧ e.2.takesValue = false
  | .switch _ (some v) => v ≠ twoDashes ∨ ∃ a ∈ args, (.char '=' :: v) <:+ a
  | .operand _ rest => rest <:+ args
  | _ => True

theorem Mark.IsFrom.later {args more : List Text} {mark : Mark α} (isFrom : mark.IsFrom g args) (suffix : args <:+ more) :
    mark.IsFrom g more := by
  unfold IsFrom at isFrom ⊢
  split at isFrom
  · exact isFrom
  · rcases isFrom with other | ⟨a, listed, ends⟩
    · exact .inl other
    · exact .inr ⟨a, suffix.subset listed, ends⟩
  · exact isFrom.trans suffix
  · trivial

/-- Switches that share a dash take no values. -/
theorem joined?_from (long : LongValues g) {t : Text} {marks : List (Mark α)} {pending : Option α}
    (read : joined? g t = some (marks, pending)) (args : List Text) : ∀ mark ∈ marks, mark.IsFrom g args := by
  induction t generalizing marks pending with
  | nil =>
    cases read
    exact List.forall_mem_nil _
  | cons c rest ih =>
    simp only [joined?, Option.bind_eq_bind, Option.bind_eq_some_iff] at read
    obtain ⟨s, found, read⟩ := read
    have listed := mem_of_lookup found
    split at read
    · next takes => exact absurd (long _ listed takes) (by simp)
    · next takes =>
      obtain ⟨⟨others, pending'⟩, further, same⟩ := Option.bind_eq_some_iff.1 read
      cases same
      refine List.forall_mem_cons.2 ⟨⟨_, listed, rfl, by simpa using takes⟩, ih further⟩

/-- The marks of a switch with what is attached to it. -/
theorem attachments_from (long : LongValues g) {arg spelling : Text} {s : Switch α} {attached : Option Text}
    (read : classify g arg = .switch spelling s attached) {marks : List (Mark α)} {pending : Option α}
    (attaches : attachments g spelling s attached = (marks, pending)) {args : List Text} (among : arg ∈ args) :
    ∀ mark ∈ marks, mark.IsFrom g args := by
  obtain ⟨listed, value⟩ := classify_switch read
  unfold attachments at attaches
  split at attaches
  · cases attaches
    exact List.forall_mem_nil _
  · next takes =>
    cases attaches
    exact List.forall_mem_singleton.2 ⟨_, listed, rfl, takes⟩
  · next text takes =>
    cases attaches
    have ends := (value text rfl).resolve_right (Nat.not_le.2 (long _ listed takes))
    exact List.forall_mem_singleton.2 (.inr ⟨arg, among, ends⟩)
  · next text takes =>
    split at attaches
    · cases attaches
      exact List.forall_mem_singleton.2 trivial
    · split at attaches
      · next joined =>
        cases attaches
        exact List.forall_mem_cons.2 ⟨⟨_, listed, rfl, takes⟩, joined?_from long joined args⟩
      · cases attaches
        exact List.forall_mem_singleton.2 trivial

theorem operandsOf_from (args : List Text) : ∀ mark ∈ (operandsOf args : List (Mark α)), mark.IsFrom g args := by
  induction args with
  | nil => exact List.forall_mem_nil _
  | cons a rest ih =>
    refine List.forall_mem_cons.2 ⟨List.suffix_cons a rest, fun mark listed => ?_⟩
    exact (ih mark listed).later (List.suffix_cons a rest)

theorem ne_twoDashes_of_isValue {v : Text} (value : isValue g v = true) : v ≠ twoDashes := by
  unfold isValue at value
  simpa using (Bool.and_eq_true_iff.1 value).1

theorem scan_from (long : LongValues g) (args : List Text) : ∀ mark ∈ scan g args, mark.IsFrom g args := by
  fun_induction scan g args with
  | case1 => exact List.forall_mem_nil _
  | case2 a rest divides =>
    refine List.forall_mem_cons.2 ⟨trivial, fun mark listed => ?_⟩
    exact (operandsOf_from rest mark listed).later (List.suffix_cons a rest)
  | case3 a rest _ _ ih =>
    refine List.forall_mem_cons.2 ⟨List.suffix_cons a rest, fun mark listed => ?_⟩
    exact (ih mark listed).later (List.suffix_cons a rest)
  | case4 a rest _ _ ih =>
    exact List.forall_mem_cons.2 ⟨trivial, fun mark listed => (ih mark listed).later (List.suffix_cons a rest)⟩
  | case5 => exact List.forall_mem_singleton.2 trivial
  | case6 a rest _ spelling s attached read marks attaches ih =>
    refine List.forall_mem_append.2 ⟨attachments_from long read attaches List.mem_cons_self, fun mark listed => ?_⟩
    exact (ih mark listed).later (List.suffix_cons a rest)
  | case7 a _ spelling s attached read marks meaning attaches =>
    refine List.forall_mem_append.2 ⟨attachments_from long read attaches List.mem_cons_self, ?_⟩
    exact List.forall_mem_singleton.2 trivial
  | case8 a _ spelling s attached read marks meaning attaches v rest value ih =>
    refine List.forall_mem_append.2 ⟨attachments_from long read attaches List.mem_cons_self, ?_⟩
    refine List.forall_mem_cons.2 ⟨.inl (ne_twoDashes_of_isValue value), fun mark listed => ?_⟩
    exact (ih mark listed).later ((List.suffix_cons v rest).trans (List.suffix_cons a _))
  | case9 a _ spelling s attached read marks meaning attaches v rest =>
    refine List.forall_mem_append.2 ⟨attachments_from long read attaches List.mem_cons_self, ?_⟩
    exact List.forall_mem_singleton.2 trivial

end Scanning

/-! ## What the header command is given -/

theorem longValues_globals : LongValues globals := by
  show ∀ e ∈ globals, e.2.takesValue = true → 2 < e.1.length
  decide

theorem longValues_header : LongValues headerSwitches := by
  show ∀ e ∈ headerSwitches, e.2.takesValue = true → 2 < e.1.length
  decide

/-- The datum can be what a switch of the header command is given: a text, or an empty list, which is left of two dashes
that were attached to a switch. -/
def IsOption (args : List Text) (d : PlainDatum) : Prop :=
  (∃ t, d = .str t) ∨ d = .list none [] ∧ ∃ a ∈ args, ("=--" : Text) <:+ a

theorem IsOption.later {args more : List Text} {d : PlainDatum} (isOption : IsOption args d) (suffix : args <:+ more) :
    IsOption more d := by
  rcases isOption with text | ⟨empty, a, listed, ends⟩
  · exact .inl text
  · exact .inr ⟨empty, a, suffix.subset listed, ends⟩

theorem isOption_switchValue {args : List Text} {m : Local} {v : Option Text}
    (isFrom : (Mark.switch m v).IsFrom headerSwitches args) (valued : m ≠ .help) : IsOption args (switchValue v) := by
  cases v with
  | none =>
    have only_help : ∀ e ∈ headerSwitches, e.2.takesValue = false → e.2.meaning = .help := by decide
    obtain ⟨e, listed, rfl, takes⟩ := isFrom
    exact absurd (only_help e listed takes) valued
  | some t =>
    by_cases dashes : t = twoDashes
    · subst dashes
      exact .inr ⟨rfl, isFrom.resolve_left fun other => other rfl⟩
    · refine .inl ⟨t, ?_⟩
      simp [switchValue, dashes]

namespace Given
variable {part : Part} {g g' : Given} {marks : List (Mark Local)}

/-- The name, if one is given, and the receiver have what the values of switches and the receiver at the start have. -/
theorem read_keeps {P : PlainDatum → Prop} (values : ∀ m v, .switch m v ∈ marks → m ≠ .help → P (switchValue v))
    (name : g.name = .null ∨ P g.name) (receiver : P g.receiver) (read : g.read part marks = .ok g') :
    (g'.name = .null ∨ P g'.name) ∧ P g'.receiver := by
  have tail {mark : Mark Local} {rest : List (Mark Local)}
      (values : ∀ m v, .switch m v ∈ mark :: rest → m ≠ .help → P (switchValue v)) :
      ∀ m v, .switch m v ∈ rest → m ≠ .help → P (switchValue v) :=
    fun m v listed => values m v (List.mem_cons_of_mem mark listed)
  fun_induction Given.read part g marks with
  | case1 =>
    obtain rfl := Except.ok.inj read
    exact ⟨name, receiver⟩
  | case2 => cases read
  | case3 _ _ ih => exact ih (tail values) name receiver read
  | case4 => cases read
  | case5 _ v _ ih => exact ih (tail values) (.inr (values .name v List.mem_cons_self (by decide))) receiver read
  | case6 _ v _ ih => exact ih (tail values) name (values .receiver v List.mem_cons_self (by decide)) read
  | case7 _ _ _ ih => exact ih (tail values) name receiver read
  | case8 _ _ _ _ _ ih => exact ih (tail values) name receiver read
  | case9 _ _ _ _ _ ih => exact ih (tail values) name receiver read

theorem read_error {r : Request} (read : g.read part marks = .error r) : r = .wrongUsage part ∨ r = .help part := by
  fun_induction Given.read part g marks with
  | case1 => cases read
  | case2 => exact .inl (Except.error.inj read).symm
  | case4 => exact .inr (Except.error.inj read).symm
  | case3 _ _ ih | case5 _ _ _ ih | case6 _ _ _ ih | case7 _ _ _ ih | case8 _ _ _ _ _ ih | case9 _ _ _ _ _ ih =>
    exact ih read

end Given

theorem readLocal_options {args : List Text} {g : Given} (read : readLocal .header headerSwitches args = .ok g) :
    (g.name = .null ∨ IsOption args g.name) ∧ IsOption args g.receiver := by
  unfold readLocal at read
  split at read
  · cases read
  · refine Given.read_keeps (fun m v listed valued => ?_) (.inl rfl) (.inl ⟨_, rfl⟩) read
    exact isOption_switchValue (scan_from longValues_header args _ listed) valued

theorem readLocal_error {part : Part} {switches : Switches Local} {args : List Text} {r : Request}
    (read : readLocal part switches args = .error r) : r = .wrongUsage part ∨ r = .help part := by
  unfold readLocal at read
  split at read
  · exact .inl (Except.error.inj read).symm
  · exact Given.read_error read

/-- What the arguments of a command are read into. -/
theorem readTask_cases (command : Text) (args : List Text) :
    (∃ g, readLocal .header headerSwitches args = .ok g ∧
      readTask command args = .ok (.header g.operand g.name g.receiver, g.stray)) ∨
    (∃ record left, readTask command args = .ok (.options record, left)) ∨
    ∃ part r, (r = .wrongUsage part ∨ r = .help part) ∧ readTask command args = .error r := by
  unfold readTask
  split
  · cases given : readLocal .header headerSwitches args with
    | error r => exact .inr (.inr ⟨_, r, readLocal_error given, rfl⟩)
    | ok g => exact .inl ⟨g, rfl, rfl⟩
  · split
    · cases given : readLocal .options helpSwitches args with
      | error r => exact .inr (.inr ⟨_, r, readLocal_error given, rfl⟩)
      | ok g =>
        cases operand : g.operand with
        | some record =>
          refine .inr (.inl ⟨record, g.stray, ?_⟩)
          simp only [bind, Except.bind, operand]
          rfl
        | none =>
          refine .inr (.inr ⟨.options, _, .inl rfl, ?_⟩)
          simp only [bind, Except.bind, operand]
          rfl
    · exact .inr (.inr ⟨.program, _, .inl rfl, rfl⟩)

/-- A command line that asks for something to be run has a command. -/
theorem readGlobal_run {verbosity v : Nat} {stray : Bool} {marks : List (Mark Global)} {task : Task}
    (read : readGlobal verbosity stray marks = .run v task) :
    ∃ command args, .operand command args ∈ marks ∧ readTask command args = .ok (task, false) := by
  fun_induction readGlobal verbosity stray marks with
  | case1 | case2 | case3 | case4 | case6 | case7 | case10 => cases read
  | case5 _ _ _ ih | case8 _ _ _ _ ih =>
    obtain ⟨command, args, listed, found⟩ := ih read
    exact ⟨command, args, List.mem_cons_of_mem _ listed, found⟩
  | case9 _ _ command args _ r wrong =>
    rcases readTask_cases command args with ⟨g, -, found⟩ | ⟨record, left, found⟩ | ⟨part, r', known, found⟩
    · cases wrong.symm.trans found
    · cases wrong.symm.trans found
    · obtain rfl := Except.error.inj (wrong.symm.trans found)
      rcases known with rfl | rfl <;> cases read
  | case11 _ _ command args _ task' left found kept =>
    cases read
    obtain rfl : left = false := by
      simp only [Bool.or_eq_true, not_or, Bool.not_eq_true] at kept
      exact kept.2
    exact ⟨command, args, List.mem_cons_self, found⟩

/-- The values of the switches of a header command. -/
theorem ofArgs_header {args : List Text} {v : Nat} {source : Option Text} {name receiver : PlainDatum}
    (asked : Request.ofArgs args = .run v (.header source name receiver)) :
    (name = .null ∨ IsOption args name) ∧ IsOption args receiver := by
  unfold Request.ofArgs at asked
  split at asked
  · cases asked
  · obtain ⟨command, rest, listed, found⟩ := readGlobal_run asked
    have suffix : rest <:+ args := scan_from longValues_globals args _ listed
    rcases readTask_cases command rest with ⟨g, given, found'⟩ | ⟨record, left, found'⟩ | ⟨_, _, -, found'⟩
    · obtain ⟨⟨rfl, rfl, rfl⟩, -⟩ : (source = g.operand ∧ name = g.name ∧ receiver = g.receiver) ∧ false = g.stray := by
        simpa only [Except.ok.injEq, Prod.mk.injEq, Task.header.injEq] using found.symm.trans found'
      obtain ⟨named, received⟩ := readLocal_options given
      exact ⟨named.imp_right fun isOption => isOption.later suffix, received.later suffix⟩
    · cases found.symm.trans found'
    · cases found.symm.trans found'

/-! ## What is shown of a file -/

/-- A receiver that is a text never stops the command. -/
theorem showHeader_exit (v : Nat) (name : PlainDatum) (r source : Text) :
    ∃ e : Exit, showHeader v name (.str r) source = .exit e ∧ e.code = 0 := by
  obtain ⟨shown, rendered⟩ := Header.exists_renderData r ({} : Config).redactedBody source name
  exact ⟨_, by rw [showHeader, rendered], rfl⟩

/-- With texts for the receiver and the name, or no name, the command shows the header that it renders. -/
theorem showHeader_text (v : Nat) (n : Option Text) (r source : Text) :
    showHeader v (n.elim .null .str) (.str r) source =
      .exit {
        code := 0
        output := (Header.render r ({} : Config).redactedBody (some source) n).text ++ "\n"
        errors := shownLog v
          (if (Header.render r ({} : Config).redactedBody (some source) n).found then [] else [.noHeader]) } := by
  cases n with
  | none => rfl
  | some n => rw [showHeader, Option.elim_some, Header.renderData_str]

theorem showHeader_crash {v : Nat} {name receiver : PlainDatum} {source : Text} (other : ∀ r, receiver ≠ .str r) :
    showHeader v name receiver source = .crash .badReceiver := by
  unfold showHeader Header.renderData
  cases receiver with
  | str r => exact absurd rfl (other r)
  | _ => rfl

/-- A request for the header of a file ends as the bytes of the file have it. -/
theorem runOn_file {t : FileTree} {args : List Text} {v : Nat} {path : Text} {name receiver : PlainDatum} {place : Place}
    {b : ByteArray} (asked : Request.ofArgs args = .run v (.header (some path) name receiver)) (named : path ≠ "-")
    (located : locate t.homes t.cwd path = .ok place) (file : t.entry place = .file b) (input : Input) :
    runOn t input args = headerOfBytes v name receiver b := by
  have planned : plan (.ofArgs args) = .readFile path (headerOfEntry v name receiver) := by
    rw [asked, plan]
    exact if_neg (by simpa using named)
  rw [runOn, planned]
  simp only [located, file, headerOfEntry]

/-- How the header command ends on a file. Bytes that encode a text give what is rendered of it, with exit code
zero, if the switches give texts; they do unless an argument ends in `=--`, which gives the switch before it the
empty list instead, and a receiver that is this list stops the run. Bytes that encode no text stop it too. -/
theorem header_command_ends {t : FileTree} {args : List Text} {v : Nat} {path : Text} {name receiver : PlainDatum}
    {place : Place} {b : ByteArray} (asked : Request.ofArgs args = .run v (.header (some path) name receiver))
    (named : path ≠ "-") (located : locate t.homes t.cwd path = .ok place) (file : t.entry place = .file b)
    (input : Input) :
    (∀ cs : List Char, b = cs.utf8Encode →
      let source : Text := (Text.unifyNewlines cs).map .char
      (∀ (r : Text) (n : Option Text), receiver = .str r → name = n.elim .null .str →
        let shown := Header.render r ({} : Config).redactedBody (some source) n
        runOn t input args =
          .exit {
            code := 0
            output := shown.text ++ "\n"
            errors := shownLog v (if shown.found then [] else [.noHeader]) }) ∧
      (∀ r, receiver = .str r → ∃ e : Exit, runOn t input args = .exit e ∧ e.code = 0) ∧
      ((∀ r, receiver ≠ .str r) → runOn t input args = .crash .badReceiver)) ∧
    (¬ b.IsValidUTF8 → runOn t input args = .crash .undecodable) ∧
    ((∀ a ∈ args, ¬ ("=--" : Text) <:+ a) →
      ∃ (r : Text) (n : Option Text), receiver = .str r ∧ name = n.elim .null .str) ∧
    ((∀ r, receiver ≠ .str r) → receiver = .list none []) := by
  have ends := runOn_file asked named located file input
  obtain ⟨nameGiven, receiverGiven⟩ := ofArgs_header asked
  refine ⟨?_, ?_, ?_, ?_⟩
  · rintro cs rfl
    rw [headerOfBytes, Text.ofBytes?_utf8Encode] at ends
    refine ⟨?_, ?_, ?_⟩
    · rintro r n rfl rfl
      exact ends.trans (showHeader_text v n r _)
    · rintro r rfl
      obtain ⟨e, shown, code⟩ := showHeader_exit v name r ((Text.unifyNewlines cs).map .char)
      exact ⟨e, ends.trans shown, code⟩
    · intro other
      exact ends.trans (showHeader_crash other)
  · intro invalid
    rw [ends, headerOfBytes, Text.ofBytes?_eq_none invalid]
  · intro plain
    have isText {d : PlainDatum} (given : IsOption args d) : ∃ t, d = .str t := by
      rcases given with isText | ⟨-, a, listed, ending⟩
      · exact isText
      · exact absurd ending (plain a listed)
    obtain ⟨r, received⟩ := isText receiverGiven
    rcases nameGiven with unnamed | given
    · exact ⟨r, none, received, unnamed⟩
    · obtain ⟨n, nameText⟩ := isText given
      exact ⟨r, some n, received, nameText⟩
  · intro other
    rcases receiverGiven with ⟨r, received⟩ | ⟨empty, -⟩
    · exact absurd received (other r)
    · exact empty

/-- A header and a file of one byte that starts no character. -/
theorem header_command_ends_undecodable :
    let good : List Char := "def f(dis, x)".toList
    let tree : FileTree := {
      cwd := {}
      directories := []
      files := [(⟨"", ["good"]⟩, good.utf8Encode), (⟨"", ["bad"]⟩, ⟨#[0xff]⟩)] }
    (∃ e : Exit, runOn tree .interrupted ["header", "good"] = .exit e ∧ e.code = 0 ∧
      e.output = "function f(x) \x7b\n  [cajoled code]\n\x7d\n") ∧
    runOn tree .interrupted ["header", "bad"] = .crash .undecodable ∧
    runOn tree .interrupted ["header", "--receiver=--", "good"] = .crash .badReceiver := by
  intro good tree
  have atGood : locate tree.homes tree.cwd "good" = .ok ⟨"", ["good"]⟩ := rfl
  have atBad : locate tree.homes tree.cwd "bad" = .ok ⟨"", ["bad"]⟩ := rfl
  have goodFile : tree.entry ⟨"", ["good"]⟩ = .file good.utf8Encode := rfl
  have badFile : tree.entry ⟨"", ["bad"]⟩ = .file ⟨#[0xff]⟩ := rfl
  have askGood : Request.ofArgs ["header", "good"] = .run 0 (.header (some "good") .null (.str "dis")) := rfl
  have askBad : Request.ofArgs ["header", "bad"] = .run 0 (.header (some "bad") .null (.str "dis")) := rfl
  have askList : Request.ofArgs ["header", "--receiver=--", "good"] =
    .run 0 (.header (some "good") .null (.list none [])) := rfl
  refine ⟨?_, ?_, ?_⟩
  · exact ⟨_, ((header_command_ends askGood (by decide) atGood goodFile _).1 good rfl).1 "dis" none rfl rfl, rfl, rfl⟩
  · exact (header_command_ends askBad (by decide) atBad badFile _).2.1 (by decide)
  · exact ((header_command_ends askList (by decide) atGood goodFile _).1 good rfl).2.2 (by rintro r ⟨⟩)

end Command

end Overlay
