import Overlay.Error.Report

/-!
# Codes and messages in writing

The number of a code is written in digits, so the last dash of its text ends the prefix, and prefix and number can be
read off the text whatever the prefix is (`Code.text_eq_iff`). A message is written in lines, and in a line a colon and a
blank end the code or the label. A hint is written like a note, under a label of its own; so the lines tell which notes
there were and whether there was a hint (`Message.format_unambiguous`).
-/

namespace Overlay.Error
set_option autoImplicit false

/-! ## Codes -/

namespace Code
variable {a b c : Code}

/-- The digits in which a number that is not negative is written. -/
def digits (n : Nat) : List Char :=
  padding 4 (Nat.toDigits 10 n) ++ Nat.toDigits 10 n

theorem numberText_natCast (n : Nat) : numberText n = (digits n).map .char := by
  have positive : ¬ (n : Int) < 0 := by omega
  simp [numberText, digits, Text.ofString, positive]

theorem ofDigitChars_digits (n : Nat) : Nat.ofDigitChars 10 (digits n) 0 = n := by
  rw [digits, padding, Nat.ofDigitChars_append, Nat.ofDigitChars_replicate_zero, Nat.mul_zero,
    Nat.ofDigitChars_ten_toDigits]

theorem dash_not_mem_digits (n : Nat) : '-' ∉ digits n := by
  intro listed
  rcases List.mem_append.1 listed with filling | digit
  · exact absurd (List.eq_of_mem_replicate filling) (by decide)
  · exact absurd (Nat.isDigit_of_mem_toDigits (by decide) (by decide) digit) (by decide)

theorem eq_nil_of_dash {r s t : Text} (plain : .char '-' ∉ s) (rest : .char '-' :: s = r ++ .char '-' :: t) : r = [] := by
  cases r with
  | nil => rfl
  | cons d r =>
    rw [(List.cons.inj rest).2] at plain
    exact absurd (List.mem_append_right r List.mem_cons_self) plain

/-- A text ends with its last dash and what follows it. -/
theorem eq_of_last_dash {p q s t : Text} (plain : .char '-' ∉ s) (plain' : .char '-' ∉ t)
    (same : p ++ .char '-' :: s = q ++ .char '-' :: t) : p = q ∧ s = t := by
  rcases List.append_eq_append_iff.1 same with ⟨r, rfl, rest⟩ | ⟨r, rfl, rest⟩
  · obtain rfl := eq_nil_of_dash plain rest
    exact ⟨(List.append_nil p).symm, (List.cons.inj rest).2⟩
  · obtain rfl := eq_nil_of_dash plain' rest
    exact ⟨List.append_nil q, (List.cons.inj rest).2.symm⟩

/-- The prefix of the code is a text, and its number is not negative. -/
structure IsOrdinary (c : Code) : Prop where
  pre : ∃ p, c.pre = .str p
  number : 0 ≤ c.number

/-- An ordinary code is written as its prefix, a dash and digits. -/
theorem IsOrdinary.exists_parts (ordinary : c.IsOrdinary) : ∃ (p : Text) (n : Nat),
    c.pre = .str p ∧ c.number = n ∧ c.text = p ++ .char '-' :: (digits n).map .char := by
  obtain ⟨⟨p, pre⟩, positive⟩ := ordinary
  obtain ⟨n, number⟩ := Int.eq_ofNat_of_zero_le positive
  refine ⟨p, n, pre, number, ?_⟩
  rw [text, pre, number, numberText_natCast, List.append_assoc]
  rfl

/-- Prefix and number can be read off the text of a code. -/
theorem text_eq_iff (ordinary : a.IsOrdinary) (ordinary' : b.IsOrdinary) :
    a.text = b.text ↔ a.pre = b.pre ∧ a.number = b.number := by
  constructor
  · intro same
    obtain ⟨p, m, pre, number, written⟩ := ordinary.exists_parts
    obtain ⟨q, n, pre', number', written'⟩ := ordinary'.exists_parts
    have plain (n : Nat) : Rune.char '-' ∉ (digits n).map Rune.char := by
      intro listed
      obtain ⟨d, among, isDash⟩ := List.mem_map.1 listed
      exact dash_not_mem_digits n (Rune.char.inj isDash ▸ among)
    rw [written, written'] at same
    obtain ⟨rfl, same_digits⟩ := eq_of_last_dash (plain m) (plain n) same
    have equal : digits m = digits n := (List.map_inj_right fun _ _ => Rune.char.inj).1 same_digits
    have numbers : m = n := by
      rw [← ofDigitChars_digits m, equal, ofDigitChars_digits]
    rw [pre, pre', number, number', numbers]
    exact ⟨rfl, rfl⟩
  · rintro ⟨pre, number⟩
    rw [text, text, pre, number]

theorem eqv_iff (ordinary : a.IsOrdinary) (ordinary' : b.IsOrdinary) :
    a.eqv b = true ↔ a.pre = b.pre ∧ a.number = b.number := by
  obtain ⟨p, pre⟩ := ordinary.pre
  obtain ⟨q, pre'⟩ := ordinary'.pre
  simp [eqv, pre, pre', Datum.eqv]

/-- Equality of codes is coherent. Two codes with texts as prefixes and numbers that are not negative are written alike
only if prefix and number are the same. So codes that equal one text are equal, and what equals one of two equal codes
equals the other, though codes are compared with codes by their parts and with texts by their writing. -/
theorem code_equality_coherent (ordinary : a.IsOrdinary) (ordinary' : b.IsOrdinary) :
    (a.text = b.text ↔ a.pre = b.pre ∧ a.number = b.number) ∧
    ∀ s : Text, (a.eqvText s = true → b.eqvText s = true → a.eqv b = true) ∧
      (a.eqv b = true → a.eqvText s = true → b.eqvText s = true) := by
  have written := text_eq_iff ordinary ordinary'
  have parts := eqv_iff ordinary ordinary'
  have spells (c : Code) (s : Text) : c.eqvText s = true ↔ c.text = s := beq_iff_eq
  refine ⟨written, fun s => ⟨fun left right => ?_, fun equal left => ?_⟩⟩
  · rw [spells] at left right
    exact parts.2 (written.1 (left.trans right.symm))
  · rw [spells] at left ⊢
    exact (written.2 (parts.1 equal)).symm.trans left

/-- Two codes of different categories, whose prefix ends with a dash and digits, spell one text and are equal. -/
theorem code_equality_coherent_dashes : ∃ a b : Code, a.IsOrdinary ∧ b.IsOrdinary ∧ a.category ≠ b.category ∧
    a.eqvText "VLJ-20-10001" = true ∧ b.eqvText "VLJ-20-10001" = true ∧ a.eqv b = true := by
  let a : Code := ⟨.str "VLJ-20", 10001, .badOption, .config⟩
  let b : Code := ⟨.str "VLJ-20", 10001, .nullBase, .access⟩
  have ordinary : a.IsOrdinary := ⟨⟨_, rfl⟩, by decide⟩
  have ordinary' : b.IsOrdinary := ⟨⟨_, rfl⟩, by decide⟩
  have spelled : a.eqvText "VLJ-20-10001" = true := by decide +kernel
  have spelled' : b.eqvText "VLJ-20-10001" = true := by decide +kernel
  exact ⟨a, b, ordinary, ordinary', by decide, spelled, spelled',
    ((code_equality_coherent ordinary ordinary').2 _).1 spelled spelled'⟩

-- the sign of a negative number is written like the end of a prefix
example : Code.text ⟨.str "VLJ", -1000, .badOption, .config⟩ = Code.text ⟨.str "VLJ-", 1000, .badOption, .config⟩ := by
  decide +kernel

theorem ofCategory_ordinary (k : Category) : (ofCategory k).IsOrdinary := by
  cases k <;> exact ⟨⟨_, rfl⟩, by decide⟩

/-- A predefined code can be read off its text. -/
theorem eq_of_text_ofCategory {k l : Category} (same : (ofCategory k).text = (ofCategory l).text) : k = l := by
  obtain ⟨-, number⟩ := (text_eq_iff (ofCategory_ordinary k) (ofCategory_ordinary l)).1 same
  revert number
  cases k <;> cases l <;> decide

end Code

/-! ## Lines -/

/-- The text is written in one line. -/
def IsLine (t : Text) : Prop :=
  .char '\n' ∉ t

instance (t : Text) : Decidable (IsLine t) :=
  inferInstanceAs (Decidable (.char '\n' ∉ t))

/-- The text can stand before a colon and a blank: it is written in one line and has no such pair in it. -/
def IsLabel (t : Text) : Prop :=
  IsLine t ∧ ¬ (": " : Text) <:+: t

instance (t : Text) : Decidable (IsLabel t) :=
  inferInstanceAs (Decidable (IsLine t ∧ ¬ (": " : Text) <:+: t))

/-- What follows a label starts with a colon and a blank, so the label is no longer than the first such pair allows. -/
theorem eq_nil_of_colon {l r s t : Text} (label : IsLabel (l ++ r)) (rest : ": " ++ s = r ++ (": " ++ t)) : r = [] := by
  rcases r with _ | ⟨c, _ | ⟨d, r⟩⟩
  · rfl
  · obtain ⟨-, tail⟩ := List.cons.inj rest
    exact absurd (List.cons.inj tail).1 (by decide)
  · obtain ⟨rfl, tail⟩ := List.cons.inj rest
    obtain ⟨rfl, -⟩ := List.cons.inj tail
    exact absurd ⟨l, r, List.append_assoc l _ r⟩ label.2

/-- The first colon before a blank ends the label. -/
theorem eq_of_colon {l k s t : Text} (label : IsLabel l) (label' : IsLabel k)
    (same : l ++ ": " ++ s = k ++ ": " ++ t) : l = k ∧ s = t := by
  rw [List.append_assoc, List.append_assoc] at same
  rcases List.append_eq_append_iff.1 same with ⟨r, rfl, rest⟩ | ⟨r, rfl, rest⟩
  · obtain rfl := eq_nil_of_colon label' rest
    exact ⟨(List.append_nil l).symm, List.append_cancel_left rest⟩
  · obtain rfl := eq_nil_of_colon label rest
    exact ⟨List.append_nil k, (List.append_cancel_left rest).symm⟩

theorem IsLine.label {l s : Text} (label : IsLabel l) (line : IsLine s) : IsLine (l ++ ": " ++ s) := by
  intro listed
  rcases List.mem_append.1 listed with first | last
  · rcases List.mem_append.1 first with inside | mark
    · exact label.1 inside
    · exact absurd mark (by decide)
  · exact line last

/-- Lines can be told apart in a text in which they are joined. -/
theorem eq_of_join {ls ks : List Text} (lines : ∀ l ∈ ls, IsLine l) (lines' : ∀ l ∈ ks, IsLine l) (some_line : ls ≠ [])
    (some_line' : ks ≠ []) (same : Text.join "\n" ls = Text.join "\n" ks) : ls = ks := by
  have split (ls : List Text) (lines : ∀ l ∈ ls, IsLine l) (some_line : ls ≠ []) :
      (Text.join "\n" ls).splitOn (.char '\n') = ls :=
    List.splitOn_intercalate (.char '\n') lines some_line
  rw [← split ls lines some_line, same, split ks lines' some_line']

/-! ## Messages -/

/-- Label and text of the note are texts, the first one a label and the second in one line. -/
structure Note.IsLegible (n : Note) : Prop where
  label : ∃ t, n.label = .str t ∧ IsLabel t
  message : ∃ t, n.message = .str t ∧ IsLine t

namespace Note
variable {n k : Note}

theorem IsLegible.isLine (legible : n.IsLegible) : IsLine n.line := by
  obtain ⟨l, label, isLabel⟩ := legible.label
  obtain ⟨s, message, isLine⟩ := legible.message
  rw [line, label, message, Datum.bare, Datum.bare, List.append_assoc, List.append_assoc]
  intro listed
  rcases List.mem_append.1 listed with indent | rest
  · exact absurd indent (by decide)
  · rw [← List.append_assoc] at rest
    exact IsLine.label isLabel isLine rest

/-- A note can be read off its line. -/
theorem eq_of_line (legible : n.IsLegible) (legible' : k.IsLegible) (same : n.line = k.line) : n = k := by
  obtain ⟨l, label, isLabel⟩ := legible.label
  obtain ⟨s, message, -⟩ := legible.message
  obtain ⟨l', label', isLabel'⟩ := legible'.label
  obtain ⟨s', message', -⟩ := legible'.message
  rw [line, line, label, message, label', message'] at same
  simp only [Datum.bare, List.append_assoc] at same
  have rest := List.append_cancel_left same
  rw [← List.append_assoc, ← List.append_assoc l'] at rest
  obtain ⟨rfl, rfl⟩ := eq_of_colon isLabel isLabel' rest
  exact congr (congrArg Note.mk (message.trans message'.symm)) (label.trans label'.symm)

/-- Notes can be read off their lines, one by one. -/
theorem eq_of_lines {xs ys : List Note} (legible : ∀ n ∈ xs, n.IsLegible) (legible' : ∀ n ∈ ys, n.IsLegible)
    (same : xs.map line = ys.map line) : xs = ys := by
  induction xs generalizing ys with
  | nil => exact (List.map_eq_nil_iff.1 same.symm).symm
  | cons n xs ih =>
    cases ys with
    | nil => cases same
    | cons k ys =>
      obtain ⟨first, rest⟩ := List.cons.inj same
      have here := eq_of_line (legible n List.mem_cons_self) (legible' k List.mem_cons_self) first
      have later := ih (fun n listed => legible n (List.mem_cons_of_mem _ listed))
        (fun n listed => legible' n (List.mem_cons_of_mem _ listed)) rest
      rw [here, later]

end Note

namespace Message
variable {m k : Message}

/-- The label under which a hint is written. -/
def hintLabel : PlainDatum :=
  .str "hint"

/-- The code of the message is predefined; message, labels, notes and hint are texts, each in one line; and no label has
a colon and a blank in it or is the label of hints. -/
structure IsLegible (m : Message) : Prop where
  code : ∃ c, m.code = .ofCategory c
  message : ∃ t, m.message = .str t ∧ IsLine t
  notes : ∀ n ∈ m.notes, n.IsLegible ∧ n.label ≠ hintLabel
  hint : ∃ t, m.hint = .str t ∧ IsLine t

/-- The hint as a note, if there is one. -/
def hintNotes (m : Message) : List Note :=
  if m.hint.isTruthy then [⟨m.hint, hintLabel⟩] else []

/-- The first line holds the code and the message, and each of the others a note or the hint. -/
theorem lines_eq (m : Message) : m.lines =
    (m.code.text ++ ": " ++ m.message.bare) :: (m.notes ++ m.hintNotes).map Note.line := by
  rw [lines, List.map_append, hintNotes, List.cons_append]
  split <;> rfl

theorem label_of_mem_hintNotes {n : Note} (listed : n ∈ m.hintNotes) : n.label = hintLabel := by
  rw [hintNotes] at listed
  split at listed
  · rw [List.mem_singleton.1 listed]
  · cases listed

namespace IsLegible

theorem code_isLabel (legible : m.IsLegible) : IsLabel m.code.text := by
  obtain ⟨c, predefined⟩ := legible.code
  rw [predefined]
  cases c <;> decide +kernel

theorem note_isLegible (legible : m.IsLegible) : ∀ n ∈ m.notes ++ m.hintNotes, n.IsLegible := by
  intro n listed
  rcases List.mem_append.1 listed with note | hint
  · exact (legible.notes n note).1
  · rw [hintNotes] at hint
    split at hint
    · rw [List.mem_singleton.1 hint]
      exact ⟨⟨_, rfl, by decide +kernel⟩, legible.hint⟩
    · cases hint

theorem isLine_of_mem (legible : m.IsLegible) : ∀ l ∈ m.lines, IsLine l := by
  rw [lines_eq]
  intro l listed
  rcases List.mem_cons.1 listed with rfl | later
  · obtain ⟨s, message, isLine⟩ := legible.message
    rw [message]
    exact IsLine.label legible.code_isLabel isLine
  · obtain ⟨n, among, rfl⟩ := List.mem_map.1 later
    exact (legible.note_isLegible n among).isLine

/-- Notes that are followed by the hint end where its label comes up. -/
theorem eq_nil_of_hintNotes {r more : List Note} (legible : k.IsLegible) (notes : k.notes = m.notes ++ r)
    (hint : m.hintNotes = r ++ more) : r = [] := by
  cases r with
  | nil => rfl
  | cons n r =>
    have labelled : n.label = hintLabel := label_of_mem_hintNotes (m := m) (hint ▸ List.mem_cons_self)
    have noted : n ∈ k.notes := notes ▸ List.mem_append_right m.notes List.mem_cons_self
    exact absurd labelled (legible.notes n noted).2

/-- Notes and hint can be told apart when they are listed together. -/
theorem eq_of_notes (legible : m.IsLegible) (legible' : k.IsLegible)
    (same : m.notes ++ m.hintNotes = k.notes ++ k.hintNotes) : m.notes = k.notes ∧ m.hintNotes = k.hintNotes := by
  rcases List.append_eq_append_iff.1 same with ⟨r, notes, hint⟩ | ⟨r, notes, hint⟩
  · obtain rfl := eq_nil_of_hintNotes legible' notes hint
    exact ⟨(notes.trans (List.append_nil _)).symm, hint⟩
  · obtain rfl := eq_nil_of_hintNotes legible notes hint
    exact ⟨notes.trans (List.append_nil _), hint.symm⟩

theorem hint_eq (legible : m.IsLegible) (legible' : k.IsLegible) (same : m.hintNotes = k.hintNotes) :
    m.hint = k.hint := by
  obtain ⟨s, hint, -⟩ := legible.hint
  obtain ⟨t, hint', -⟩ := legible'.hint
  rw [hintNotes, hintNotes, hint, hint'] at same
  rw [hint, hint']
  cases s with
  | nil =>
    cases t with
    | nil => rfl
    | cons d t => cases same
  | cons c s =>
    cases t with
    | nil => cases same
    | cons d t => exact congrArg Note.message (List.cons.inj same).1

end IsLegible

/-- Messages are unambiguous in writing. If two legible messages, with any number of notes, are written as the same text,
then their codes, their messages, their notes with labels and texts in order, and their hints are the same. -/
theorem format_unambiguous (legible : m.IsLegible) (legible' : k.IsLegible) : m.format = k.format ↔
    m.code = k.code ∧ m.message = k.message ∧ m.notes = k.notes ∧ m.hint = k.hint := by
  constructor
  · intro same
    have lines := eq_of_join legible.isLine_of_mem legible'.isLine_of_mem (by simp [lines_eq]) (by simp [lines_eq]) same
    rw [lines_eq, lines_eq] at lines
    obtain ⟨first, others⟩ := List.cons.inj lines
    have listed := Note.eq_of_lines legible.note_isLegible legible'.note_isLegible others
    obtain ⟨notes, hint⟩ := legible.eq_of_notes legible' listed
    obtain ⟨text, bare⟩ := eq_of_colon legible.code_isLabel legible'.code_isLabel first
    obtain ⟨c, code⟩ := legible.code
    obtain ⟨d, code'⟩ := legible'.code
    obtain ⟨s, message, -⟩ := legible.message
    obtain ⟨t, message', -⟩ := legible'.message
    rw [message, message'] at bare
    rw [code, code'] at text
    refine ⟨?_, ?_, notes, legible.hint_eq legible' hint⟩
    · rw [code, code', Code.eq_of_text_ofCategory text]
    · rw [message, message']
      exact congrArg Datum.str bare
  · rintro ⟨code, message, notes, hint⟩
    rw [format, format, lines, lines, code, message, notes, hint]

/-- A message with two notes and a hint; a note has a label that ends with a colon, and a text that could be a line. -/
def sample : Message where
  code := .ofCategory .typeViolation
  message := .str "bad: base"
  notes := [{ message := .str "read: x" }, { message := .str "hint: y", label := .str "at:" }]
  hint := .str "note: z"

theorem sample_isLegible : sample.IsLegible := by
  refine ⟨⟨.typeViolation, rfl⟩, ⟨_, rfl, by decide +kernel⟩, ?_, ⟨_, rfl, by decide +kernel⟩⟩
  intro n listed
  rcases List.mem_cons.1 listed with rfl | last
  · exact ⟨⟨⟨_, rfl, by decide +kernel⟩, ⟨_, rfl, by decide +kernel⟩⟩,
      fun same => absurd (Datum.str.inj same) (by decide +kernel)⟩
  · rw [List.mem_singleton.1 last]
    exact ⟨⟨⟨_, rfl, by decide +kernel⟩, ⟨_, rfl, by decide +kernel⟩⟩,
      fun same => absurd (Datum.str.inj same) (by decide +kernel)⟩

/-- The same hint in two messages with other notes: they are written in different ways. -/
theorem format_unambiguous_sample : ∃ k : Message, sample.IsLegible ∧ k.IsLegible ∧ k.hint = sample.hint ∧
    k.format ≠ sample.format := by
  let k : Message := { sample with notes := [{ message := .str "read: x" }] }
  have legible : k.IsLegible := { sample_isLegible with
    notes := fun n listed => sample_isLegible.notes n (List.mem_of_mem_take (i := 1) listed) }
  refine ⟨k, sample_isLegible, legible, rfl, fun same => ?_⟩
  obtain ⟨-, -, notes, -⟩ := (format_unambiguous legible sample_isLegible).1 same
  exact absurd (congrArg List.length notes) (by decide)

-- a note under the label of hints is written as a hint is
example (m : Message) : { m with notes := [⟨.str "x", hintLabel⟩], hint := .str "" }.format =
    { m with notes := [], hint := .str "x" }.format := rfl

end Message

end Overlay.Error
