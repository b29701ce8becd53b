import Overlay.Config
import Overlay.Proofs.Rendering

/-!
# The warning about the receiver

The settings warn about a receiver that is no identifier, and say that headers will keep it. Headers ask something else
of a receiver: they leave it out wherever it stands, letter by letter, between the parenthesis and a word boundary. The
two tests part in both directions. Every receiver is left out of some header, a warning or not; one that ends in a word
character is left out of every list that starts with it and a comma, however foreign its letters; and a line feed at the
end of an identifier escapes the warning and keeps the receiver in all these lists.
-/

namespace Overlay
set_option autoImplicit false

open Text (isBlank isWord isWordAt isBoundary trim trimLeft)
open Header (IsRun)

/-! ## When the warning is given -/

namespace Config

/-- A letter of ASCII or the low line, and after it any number of these and of digits. -/
def IsIdentifier (t : Text) : Prop :=
  ∃ c rest, t = c :: rest ∧ isIdentifierStart c = true ∧ ∀ d ∈ rest, isIdentifierRest d = true

theorem isIdentifierRest_of_start {c : Rune} (start : isIdentifierStart c = true) : isIdentifierRest c = true := by
  unfold isIdentifierStart at start
  unfold isIdentifierRest
  cases c with
  | char c =>
    simp only [Rune.satisfies, Char.isAlphanum, Bool.or_eq_true] at start ⊢
    exact start.imp_left .inl
  | half h => exact start

theorem toNat_of_isIdentifierRest {c : Rune} (rest : isIdentifierRest c = true) : c.toNat < 0x80 := by
  rcases Bool.or_eq_true_iff.1 rest with alphanumeric | line
  · cases c with
    | char c =>
      -- every class of them is a range that ends inside ASCII
      have bound {last : UInt32} (within : c.val ≤ last) (ascii : last.toNat < 0x80) : c.val.toNat < 0x80 :=
        Nat.lt_of_le_of_lt (UInt32.le_iff_toNat_le.1 within) ascii
      rcases Bool.or_eq_true_iff.1 alphanumeric with letter | digit
      · rcases Bool.or_eq_true_iff.1 letter with upper | lower
        · exact bound (of_decide_eq_true upper).2 (by decide)
        · exact bound (of_decide_eq_true (Bool.and_eq_true_iff.1 lower).2) (by decide)
      · exact bound (of_decide_eq_true (Bool.and_eq_true_iff.1 digit).2) (by decide)
    | half h => cases alphanumeric
  · rw [eq_of_beq line]
    decide

/-- The characters of an identifier are word characters. -/
theorem isWord_of_isIdentifierRest {c : Rune} (rest : isIdentifierRest c = true) : isWord c = true := by
  rw [isWord, if_pos (toNat_of_isIdentifierRest rest)]
  exact rest

theorem IsIdentifier.isWord_of_mem {t : Text} (isIdentifier : IsIdentifier t) {c : Rune} (listed : c ∈ t) :
    isWord c = true := by
  obtain ⟨first, rest, rfl, start, inside⟩ := isIdentifier
  rcases List.mem_cons.1 listed with rfl | later
  · exact isWord_of_isIdentifierRest (isIdentifierRest_of_start start)
  · exact isWord_of_isIdentifierRest (inside c later)

theorem IsIdentifier.endsInWord {t : Text} (isIdentifier : IsIdentifier t) : isWordAt t.getLast? = true := by
  have some_char : t ≠ [] := by
    obtain ⟨first, rest, rfl, -⟩ := isIdentifier
    exact List.cons_ne_nil first rest
  rw [List.getLast?_eq_some_getLast some_char]
  exact isIdentifier.isWord_of_mem (List.getLast_mem some_char)

/-- The test for identifiers lets one line feed pass at the end. -/
theorem isIdentifier_iff {t : Text} :
    isIdentifier t = true ↔ ∃ name, IsIdentifier name ∧ (t = name ∨ t = name ++ "\n") := by
  constructor
  · intro passes
    cases t with
    | nil => cases passes
    | cons c rest =>
      obtain ⟨start, ending⟩ := Bool.and_eq_true_iff.1 passes
      have inside : ∀ d ∈ rest.takeWhile isIdentifierRest, isIdentifierRest d = true :=
        List.all_eq_true.1 List.all_takeWhile
      refine ⟨c :: rest.takeWhile isIdentifierRest, ⟨c, _, rfl, start, inside⟩, ?_⟩
      have split := List.takeWhile_append_dropWhile (p := isIdentifierRest) (l := rest)
      rcases Bool.or_eq_true_iff.1 ending with none | feed
      · rw [eq_of_beq none, List.append_nil] at split
        exact .inl (by rw [split])
      · rw [eq_of_beq feed] at split
        exact .inr (by rw [List.cons_append, split])
  · rintro ⟨_, ⟨c, rest, rfl, start, inside⟩, rfl | rfl⟩
    · have isRun : IsRun isIdentifierRest rest [] := ⟨inside, by simp⟩
      have dropped : rest.dropWhile isIdentifierRest = [] := by simpa using isRun.dropWhile_eq
      simp [isIdentifier, start, dropped]
    · have isRun : IsRun isIdentifierRest rest "\n" := ⟨inside, by rintro _ ⟨⟩; decide⟩
      simp [isIdentifier, start, isRun.dropWhile_eq]

/-- No other warning reads like the one about the receiver. -/
theorem receiverWarning_mem_iff (c : Config) :
    receiverWarning c.receiver ∈ c.warnings ↔ isIdentifier c.receiver = false := by
  -- Each kind of warning has its own first letters.
  have other {t : Text} (start : Text) (starts : t.take 3 = start) (differs : start ≠ "rec") :
      receiverWarning c.receiver ≠ t := by
    rintro rfl
    exact differs starts.symm
  have no_member (d : PlainDatum) : memberWarning? d ≠ some (receiverWarning c.receiver) := by
    intro same
    unfold memberWarning? at same
    split at same
    · cases same
    · exact other "mem" rfl (by decide) (Option.some.inj same).symm
  have no_constructor : receiverWarning c.receiver ≠ constructorWarning := other "coe" rfl (by decide)
  have no_body : receiverWarning c.receiver ≠ bodyWarning := other "red" rfl (by decide)
  cases passes : isIdentifier c.receiver <;> simp [warnings, passes, no_constructor, no_body, no_member]

end Config

namespace Header

/-! ## Lists that start with the receiver -/

theorem afterReceiver?_append (r : Text) (before : Rune) (tail : Text) :
    afterReceiver? r before (r ++ tail) =
      if isBoundary (some (r.getLast?.getD before)) tail.head? then
        some (trimLeft (skipComma (skipTypeMark (trimLeft tail))))
      else none := by
  rw [afterReceiver?, after?_eq_some_iff.2 rfl]
  rfl

/-- Where a receiver that follows no word character ends is a matter of its last character and the next one. -/
theorem isBoundary_last {before : Rune} (other : isWord before = false) (r : Text) (c : Rune) :
    isBoundary (some (r.getLast?.getD before)) (some c) = (isWordAt r.getLast? != isWord c) := by
  cases last : r.getLast? <;> simp [isBoundary, isWordAt, other]

/-- A text of the receiver and a comma is none of a dollar sign and the receiver. -/
theorem dollar_append_ne (r tail tail' : Text) : .char '$' :: (r ++ tail) ≠ r ++ .char ',' :: tail' := by
  induction r with
  | nil =>
    intro same
    exact absurd (List.cons.inj same).1 (by decide)
  | cons c r ih =>
    intro same
    obtain ⟨rfl, same⟩ := List.cons.inj same
    exact ih same

theorem readings_of_no_dollar {r t : Text}
    (no_dollar : ∀ rest, t = .char '$' :: rest → afterReceiver? r '$' rest = none) :
    readings r t = (afterReceiver? r '(' t).toList ++ [t] := by
  unfold readings
  split
  · next rest => rw [no_dollar rest rfl, Option.toList_none, List.nil_append]
  · rfl

/-- A list that starts with the receiver and a comma can be read without them if the receiver ends in a word
character, and it can be read whole. -/
theorem readings_listed (r tail : Text) :
    readings r (r ++ .char ',' :: tail) =
      (if isWordAt r.getLast? then [trimLeft tail] else []) ++ [r ++ .char ',' :: tail] := by
  have no_dollar (rest : Text) (split : r ++ .char ',' :: tail = .char '$' :: rest) :
      afterReceiver? r '$' rest = none := by
    cases read : after? r rest with
    | none => rw [afterReceiver?, read]
    | some tail' =>
      rw [after?_eq_some_iff.1 read] at split
      exact absurd split.symm (dollar_append_ne r tail' tail)
  have comma : isWord (.char ',') = false := by decide
  have plain : afterReceiver? r '(' (r ++ .char ',' :: tail) =
      if isWordAt r.getLast? then some (trimLeft tail) else none := by
    rw [afterReceiver?_append, List.head?_cons, isBoundary_last (by decide), comma, Bool.bne_false]
    rfl
  rw [readings_of_no_dollar no_dollar, plain]
  cases isWordAt r.getLast? <;> rfl

/-- Every receiver is skipped after a dollar sign in some list: in one that ends there, or else goes on with a word. -/
theorem readings_dollar (r : Text) : ∃ tail shown, .char ')' ∈ tail ∧ (trim shown).head? ≠ some (.char '$') ∧
    (readings r (.char '$' :: (r ++ tail))).findSome? upToClose? = some shown := by
  have first {tail : Text} (boundary : isBoundary (some (r.getLast?.getD '$')) tail.head? = true) :
      (readings r (.char '$' :: (r ++ tail))).head? = some (trimLeft (skipComma (skipTypeMark (trimLeft tail)))) := by
    rw [readings, afterReceiver?_append, if_pos boundary]
    rfl
  have shows {t shown : Text} (head : (readings r t).head? = some (shown ++ [.char ')'])) (closes : .char ')' ∉ shown) :
      (readings r t).findSome? upToClose? = some shown := by
    obtain ⟨others, listed⟩ := List.head?_eq_some_iff.1 head
    rw [listed, List.findSome?_cons, upToClose?_eq_some_iff.2 ⟨[], rfl, closes⟩]
  cases word : isWordAt r.getLast? with
  | true =>
    have boundary : isBoundary (some (r.getLast?.getD '$')) (some (.char ')')) = true := by
      rw [isBoundary_last (by decide), word]
      decide
    exact ⟨")", [], by decide, by decide, shows (first boundary) List.not_mem_nil⟩
  | false =>
    have boundary : isBoundary (some (r.getLast?.getD '$')) (some (.char 'x')) = true := by
      rw [isBoundary_last (by decide), word]
      decide
    exact ⟨"x)", "x", by decide, by decide, shows (first boundary) (by decide)⟩

/-! ## Headers that are read whole -/

theorem upToClose?_of_mem {t : Text} (closes : .char ')' ∈ t) : upToClose? t = some (t.takeWhile (· != .char ')')) := by
  simp [upToClose?, closes]

/-- Reads a header at the start of a line with all its parameters. -/
def wholeAt? (line : Text) : Option Header :=
  (opening? line).bind fun found => (upToClose? found.2).map (Header.mk found.1)

/-- What is shown of a source where no receiver is looked for. -/
def wholeText (body source : Text) (name : Option Text) : Text :=
  ((lineStarts source).findSome? wholeAt?).elim (write (name.getD "") "" body) fun h =>
    write (name.getD h.name) (trim h.params) body

section Lines
variable {r body opening found inner params : Text}

theorem render_line (opens : Opens opening found) (read : (readings r inner).findSome? upToClose? = some params)
    (name : Option Text) : render r body (some (opening ++ .char '(' :: inner)) name =
      ⟨write (name.getD found) (trim params) body, some (name.getD found), true⟩ := by
  have first : at? r (opening ++ .char '(' :: inner) = some ⟨found, params⟩ := by
    rw [at?, opening?_eq_some_iff.2 ⟨opening, opens, rfl⟩]
    simp only [read, Option.map_some]
  have found? : findIn? r (some (opening ++ .char '(' :: inner)) = some ⟨found, params⟩ := by
    rw [findIn?, Option.getD_some, find?, lineStarts, List.findSome?_cons, first]
  rw [render, found?]

theorem wholeText_line (opens : Opens opening found) (read : upToClose? inner = some params) (name : Option Text) :
    wholeText body (opening ++ .char '(' :: inner) name = write (name.getD found) (trim params) body := by
  have first : wholeAt? (opening ++ .char '(' :: inner) = some ⟨found, params⟩ := by
    rw [wholeAt?, opening?_eq_some_iff.2 ⟨opening, opens, rfl⟩, Option.bind_some, read, Option.map_some]
  rw [wholeText, lineStarts, List.findSome?_cons, first, Option.elim_some]

end Lines

/-- A text that starts with a dollar sign still does so when it is trimmed. -/
theorem head?_trim_dollar (t : Text) : (trim (.char '$' :: t)).head? = some (.char '$') := by
  have solid : isBlank (.char '$') = false := by decide
  have left : trimLeft (.char '$' :: t) = .char '$' :: t := trimLeft_eq_self (by rintro c ⟨⟩; exact solid)
  rw [trim, left, ← List.nil_append (Rune.char '$' :: t), trimRight_append solid]
  rfl

theorem write_inj {name params params' body : Text} (same : write name params body = write name params' body) :
    params = params' := by
  simp only [write, List.append_assoc] at same
  simpa using same

/-- No receiver is safe from being left out. -/
theorem exists_shown_otherwise (r body : Text) (name : Option Text) :
    ∃ source, (render r body (some source) name).text ≠ wholeText body source name := by
  obtain ⟨tail, shown, closes, no_dollar, read⟩ := readings_dollar r
  have opens : Opens "function f" "f" := opens_plain (.inl rfl) (by decide)
  have whole := upToClose?_of_mem (List.mem_cons_of_mem (.char '$') (List.mem_append_right r closes))
  rw [List.takeWhile_cons_of_pos (by decide)] at whole
  refine ⟨("function f" : Text) ++ .char '(' :: .char '$' :: (r ++ tail), ?_⟩
  rw [render_line opens read, wholeText_line opens whole]
  intro same
  have trimmed := write_inj same
  rw [trimmed] at no_dollar
  exact no_dollar (head?_trim_dollar _)

/-! ## Receivers that are left out of lists -/

/-- A function with the receiver and other parameters. -/
def withReceiver (r name params : Text) : Text :=
  "function " ++ name ++ "(" ++ r ++ ", " ++ params ++ ")"

/-- What follows the parenthesis in such a function. -/
def listing (r params : Text) : Text :=
  r ++ .char ',' :: .char ' ' :: (params ++ [.char ')'])

/-- The receiver is left out of every parameter list that it starts. -/
def IsLeftOut (r : Text) : Prop :=
  ∀ name params body, (∀ c ∈ name, isNameChar c = true) → trim params = params → .char ')' ∉ params →
    render r body (some (withReceiver r name params)) none = ⟨write name params body, some name, true⟩

theorem withReceiver_eq (r name params : Text) : withReceiver r name params =
    (("function" : Text) ++ .char ' ' :: name) ++ .char '(' :: listing r params := by
  have keyword : ("function " : Text) = ("function" : Text) ++ [.char ' '] := rfl
  have comma : (", " : Text) = [.char ',', .char ' '] := rfl
  rw [withReceiver, listing, keyword, comma]
  simp only [List.append_assoc, List.cons_append, List.nil_append]
  rfl

section Lists
variable {r : Text}

theorem isLeftOut_of_word (word : isWordAt r.getLast? = true) : IsLeftOut r := by
  intro name params body isName trimmed closes
  have tight : trimLeft (.char ' ' :: (params ++ [.char ')'])) = params ++ [.char ')'] := by
    obtain ⟨-, -, -, -, -, starts, -⟩ := trim_eq_iff.1 trimmed
    have blank : ∀ c ∈ [Rune.char ' '], isBlank c = true := by decide
    rw [← List.singleton_append, trimLeft_of_blank blank]
    refine trimLeft_eq_self fun c first => ?_
    cases params with
    | nil =>
      obtain rfl := Option.some.inj first
      decide
    | cons d params => exact starts c first
  have read : (readings r (listing r params)).findSome? upToClose? = some params := by
    rw [listing, readings_listed, if_pos word, tight, List.singleton_append, List.findSome?_cons,
      upToClose?_eq_some_iff.2 ⟨[], rfl, closes⟩]
  rw [withReceiver_eq, render_line (opens_plain (.inl rfl) isName) read, trimmed, Option.getD_none]

theorem exists_upToClose?_listing (r params : Text) : ∃ whole, upToClose? (listing r params) = some whole :=
  ⟨_, upToClose?_of_mem (by simp [listing])⟩

/-- A receiver that ends in no word character is shown with the list that it starts. -/
theorem render_of_not_word (other : isWordAt r.getLast? = false) {name params whole : Text}
    (isName : ∀ c ∈ name, isNameChar c = true) (read : upToClose? (listing r params) = some whole) (body : Text) :
    render r body (some (withReceiver r name params)) none = ⟨write name (trim whole) body, some name, true⟩ := by
  have first : (readings r (listing r params)).findSome? upToClose? = some whole := by
    rw [← read, listing, readings_listed, other]
    simp
  rw [withReceiver_eq, render_line (opens_plain (.inl rfl) isName) first, Option.getD_none]

theorem wholeText_withReceiver {name params whole : Text} (isName : ∀ c ∈ name, isNameChar c = true)
    (read : upToClose? (listing r params) = some whole) (body : Text) :
    wholeText body (withReceiver r name params) none = write name (trim whole) body := by
  rw [withReceiver_eq, wholeText_line (opens_plain (.inl rfl) isName) read, Option.getD_none]

/-- A comma is shown wherever it stands. -/
theorem trim_comma_ne_nil (t : Text) : trim (t ++ ", ") ≠ [] := by
  intro none
  obtain ⟨lead, tail, same, lead_blank, tail_blank, -, -⟩ := trim_eq_iff.1 none
  have listed : .char ',' ∈ lead ++ [] ++ tail := by
    rw [← same]
    exact List.mem_append_right t (by decide)
  rw [List.append_nil] at listed
  rcases List.mem_append.1 listed with before | after
  · exact absurd (lead_blank _ before) (by decide)
  · exact absurd (tail_blank _ after) (by decide)

theorem isLeftOut_iff : IsLeftOut r ↔ isWordAt r.getLast? = true := by
  refine ⟨fun leftOut => ?_, isLeftOut_of_word⟩
  cases word : isWordAt r.getLast? with
  | true => rfl
  | false =>
    exfalso
    have shown {params whole : Text} (read : upToClose? (listing r params) = some whole) (trimmed : trim params = params)
        (closes : .char ')' ∉ params) : trim whole = params := by
      have isName : ∀ c ∈ ("f" : Text), isNameChar c = true := by decide
      have rendered := render_of_not_word word isName read ""
      exact write_inj (congrArg Rendering.text (rendered.symm.trans (leftOut "f" params "" isName trimmed closes)))
    by_cases close : .char ')' ∈ r
    · -- A list that is cut short inside the receiver shows the same whatever follows.
      obtain ⟨before, after, rfl, outside⟩ := List.eq_append_cons_of_mem close
      have cut (params : Text) : upToClose? (listing (before ++ .char ')' :: after) params) = some before :=
        upToClose?_eq_some_iff.2 ⟨_, by rw [listing, List.append_assoc, List.cons_append], outside⟩
      have x := shown (cut "x") (by decide) (by decide)
      have y := shown (cut "y") (by decide) (by decide)
      exact absurd (x.symm.trans y) (by decide)
    · -- Otherwise the comma after the receiver is shown, also where nothing follows it.
      have outside : .char ')' ∉ r ++ (", " : Text) := by
        rw [List.mem_append]
        exact not_or.2 ⟨close, by decide⟩
      have whole : upToClose? (listing r []) = some (r ++ ", ") :=
        upToClose?_eq_some_iff.2 ⟨[], by rw [listing, List.append_assoc]; rfl, outside⟩
      exact trim_comma_ne_nil r (shown whole rfl List.not_mem_nil)

end Lists

open Config

/-- What the warning about the receiver is worth. It is given unless the receiver is an identifier, which one line feed
may follow. No receiver is kept by all headers, a warning or not. A receiver is left out of every list that it starts,
if it ends in a word character, and then only; otherwise the list is shown as if no receiver was looked for. So of the
receivers that give no warning the identifiers are left out, and those with a line feed are not. -/
theorem receiver_warning_and_stripping (c : Config) :
    (receiverWarning c.receiver ∈ c.warnings ↔
      ¬ ∃ id, IsIdentifier id ∧ (c.receiver = id ∨ c.receiver = id ++ "\n")) ∧
    (∀ body name, ∃ source, (render c.receiver body (some source) name).text ≠ wholeText body source name) ∧
    (IsLeftOut c.receiver ↔ isWordAt c.receiver.getLast? = true) ∧
    (¬ IsLeftOut c.receiver → ∀ name params body, (∀ d ∈ name, isNameChar d = true) →
      (render c.receiver body (some (withReceiver c.receiver name params)) none).text =
        wholeText body (withReceiver c.receiver name params) none) ∧
    (receiverWarning c.receiver ∉ c.warnings → (IsLeftOut c.receiver ↔ IsIdentifier c.receiver)) := by
  refine ⟨?_, exists_shown_otherwise c.receiver, isLeftOut_iff, ?_, ?_⟩
  · rw [receiverWarning_mem_iff, ← isIdentifier_iff, Bool.not_eq_true]
  · intro stays name params body isName
    have other : isWordAt c.receiver.getLast? = false := by simpa using mt isLeftOut_iff.2 stays
    obtain ⟨whole, read⟩ := exists_upToClose?_listing c.receiver params
    rw [render_of_not_word other isName read, wholeText_withReceiver isName read]
  · intro unwarned
    rw [receiverWarning_mem_iff, Bool.not_eq_false, isIdentifier_iff] at unwarned
    rw [isLeftOut_iff]
    obtain ⟨id, isIdentifier, same | same⟩ := unwarned
    · rw [same]
      exact iff_of_true isIdentifier.endsInWord isIdentifier
    · have no_word : isWordAt c.receiver.getLast? ≠ true := by
        have feed : isWordAt (("\n" : Text).getLast?) ≠ true := by decide
        rw [same, List.getLast?_append]
        exact feed
      exact iff_of_false no_word fun whole => no_word whole.endsInWord

/-- An accented letter gives a warning and is left out; an identifier with a line feed gives none and stays. -/
theorem receiver_warning_and_stripping_accented :
    (receiverWarning "é" ∈ ({ receiver := "é" } : Config).warnings ∧
      render "é" "..." (some "function f(é, x)") none = ⟨write "f" "x" "...", some "f", true⟩) ∧
    receiverWarning "dis\n" ∉ ({ receiver := "dis\n" } : Config).warnings ∧ ¬ IsLeftOut "dis\n" := by
  obtain ⟨accented_warned, -, accented_left, -, -⟩ := receiver_warning_and_stripping { receiver := "é" }
  obtain ⟨broken_warned, -, -, -, broken_left⟩ := receiver_warning_and_stripping { receiver := "dis\n" }
  have accented : IsLeftOut "é" := accented_left.2 (by decide +kernel)
  have unwarned : receiverWarning "dis\n" ∉ ({ receiver := "dis\n" } : Config).warnings := fun warned =>
    broken_warned.1 warned ⟨"dis", ⟨_, _, rfl, by decide, by decide⟩, .inr rfl⟩
  refine ⟨⟨accented_warned.2 ?_, accented "f" "x" "..." (by decide) (by decide) (by decide)⟩, unwarned, fun leftOut => ?_⟩
  · rw [← isIdentifier_iff]
    decide
  · obtain ⟨c, rest, split, -, inside⟩ := (broken_left unwarned).1 leftOut
    cases split
    exact absurd (inside (.char '\n') (by decide)) (by decide)

end Header

end Overlay
