import Overlay.Proofs.Redaction

/-!
# Parameter lists as they are shown

What becomes of a parameter list between its source and the header that is shown. The receiver is looked for right after
the parenthesis, and it ends where its word ends. So a first parameter that is the receiver is left out if no white space
precedes it, and stays otherwise; of one that only starts with the receiver's word, that word is left out and the rest
stays (`receiver_left_out`). A header that was shown is read as it stands, unless its parameters start with a receiver
once more (`shown_header_reads_back`).
-/

namespace Overlay
set_option autoImplicit false

open Text (isBlank isWord isWordAt trim trimLeft trimRight join)

namespace Header

/-! ## Trimming -/

/-- White space is no part of a word. -/
theorem isWord_of_isBlank {c : Rune} (blank : isBlank c = true) : isWord c = false := by
  let points := Text.blankSpans.flatMap fun s => List.range' s.1 (s.2 + 1 - s.1)
  have none_word : ∀ n ∈ points, isWord (Rune.ofNat n) = false := by decide +kernel
  obtain ⟨s, listed, low, high⟩ := Text.Span.mem_iff.1 blank
  rw [← Rune.ofNat_toNat c]
  refine none_word c.toNat (List.mem_flatMap.2 ⟨s, listed, List.mem_range'_1.2 ⟨low, ?_⟩⟩)
  omega

theorem isBlank_of_isWord {c : Rune} (word : isWord c = true) : isBlank c = false := by
  cases blank : isBlank c with
  | false => rfl
  | true =>
    rw [isWord_of_isBlank blank] at word
    cases word

section Trimming
variable {t u lead tail : Text}

theorem trimLeft_of_blank (blank : ∀ c ∈ lead, isBlank c = true) (t : Text) : trimLeft (lead ++ t) = trimLeft t :=
  List.dropWhile_append_of_pos blank

theorem trimRight_of_blank (blank : ∀ c ∈ tail, isBlank c = true) (t : Text) : trimRight (t ++ tail) = trimRight t := by
  have reversed : ∀ c ∈ tail.reverse, isBlank c = true := fun c listed => blank c (List.mem_reverse.1 listed)
  rw [trimRight, List.reverse_append, List.dropWhile_append_of_pos reversed, trimRight]

theorem trimLeft_eq_self (solid : ∀ c ∈ t.head?, isBlank c = false) : trimLeft t = t := by
  have isRun : IsRun isBlank [] t := ⟨List.forall_mem_nil _, solid⟩
  exact isRun.dropWhile_eq

theorem trimRight_eq_self (solid : ∀ c ∈ t.getLast?, isBlank c = false) : trimRight t = t := by
  have reversed : ∀ c ∈ t.reverse.head?, isBlank c = false := by
    rw [List.head?_reverse]
    exact solid
  have whole : t.reverse.dropWhile isBlank = t.reverse := trimLeft_eq_self reversed
  rw [trimRight, whole, List.reverse_reverse]

theorem exists_trimLeft (t : Text) : ∃ lead, t = lead ++ trimLeft t ∧ IsRun isBlank lead (trimLeft t) :=
  dropWhile_eq_iff.1 rfl

theorem exists_trimRight (t : Text) : ∃ tail, t = trimRight t ++ tail ∧ (∀ c ∈ tail, isBlank c = true) ∧
    ∀ c ∈ (trimRight t).getLast?, isBlank c = false := by
  obtain ⟨run, split, isRun⟩ := exists_trimLeft t.reverse
  refine ⟨run.reverse, ?_, fun c listed => isRun.inside c (List.mem_reverse.1 listed), fun c last => ?_⟩
  · have reversed := congrArg List.reverse split
    rwa [List.reverse_reverse, List.reverse_append] at reversed
  · rw [trimRight, List.getLast?_reverse] at last
    exact isRun.stops c last

/-- White space at the start of a text ends before a character that is none. -/
theorem trimLeft_append {c : Rune} (solid : isBlank c = false) (t more : Text) :
    trimLeft (t ++ c :: more) = trimLeft t ++ c :: more := by
  obtain ⟨lead, split, isLead⟩ := exists_trimLeft t
  generalize trimLeft t = rest at split isLead ⊢
  rw [split, List.append_assoc, trimLeft_of_blank isLead.inside]
  refine trimLeft_eq_self ?_
  cases rest with
  | nil =>
    rintro d ⟨⟩
    exact solid
  | cons d rest => exact isLead.stops

/-- White space at the end of a text starts after a character that is none. -/
theorem trimRight_append {c : Rune} (solid : isBlank c = false) (t more : Text) :
    trimRight (t ++ c :: more) = t ++ c :: trimRight more := by
  have reversed : trimRight (t ++ c :: more) = (trimLeft (more.reverse ++ c :: t.reverse)).reverse := by
    simp [trimRight, trimLeft]
  rw [reversed, trimLeft_append solid]
  simp [trimRight, trimLeft]

/-- A text is its trimmed text between white space, and the trimmed text has none at either end. -/
theorem trim_eq_iff : trim t = u ↔ ∃ lead tail, t = lead ++ u ++ tail ∧ (∀ c ∈ lead, isBlank c = true) ∧
    (∀ c ∈ tail, isBlank c = true) ∧ (∀ c ∈ u.head?, isBlank c = false) ∧ ∀ c ∈ u.getLast?, isBlank c = false := by
  constructor
  · rintro rfl
    obtain ⟨lead, split, isLead⟩ := exists_trimLeft t
    obtain ⟨tail, middle, tail_blank, ends⟩ := exists_trimRight (trimLeft t)
    refine ⟨lead, tail, ?_, isLead.inside, tail_blank, fun c first => isLead.stops c ?_, ends⟩
    · rw [List.append_assoc, trim, ← middle]
      exact split
    · have head : (trimRight (trimLeft t)).head? = some c := first
      rw [middle, List.head?_append, head]
      rfl
  · rintro ⟨lead, tail, rfl, lead_blank, tail_blank, starts, ends⟩
    rw [trim, List.append_assoc, trimLeft_of_blank lead_blank]
    cases u with
    | nil =>
      have nothing : trimLeft ([] ++ tail) = [] := by
        have all := trimLeft_of_blank tail_blank []
        rwa [List.append_nil] at all
      rw [nothing]
      rfl
    | cons c u =>
      have solid : trimLeft (c :: u ++ tail) = c :: u ++ tail := trimLeft_eq_self starts
      rw [solid, trimRight_of_blank tail_blank, trimRight_eq_self ends]

theorem trim_trim (t : Text) : trim (trim t) = trim t := by
  obtain ⟨lead, tail, -, -, -, starts, ends⟩ := trim_eq_iff.1 (rfl : trim t = _)
  exact trim_eq_iff.2 ⟨[], [], by simp, List.forall_mem_nil _, List.forall_mem_nil _, starts, ends⟩

theorem mem_of_mem_trim {c : Rune} (listed : c ∈ trim t) : c ∈ t := by
  obtain ⟨lead, tail, split, -⟩ := trim_eq_iff.1 (rfl : trim t = _)
  rw [split]
  simp [listed]

theorem trim_of_blank (blank : ∀ c ∈ lead, isBlank c = true) (t : Text) : trim (lead ++ t) = trim t := by
  rw [trim, trimLeft_of_blank blank, trim]

theorem trim_trimLeft (t : Text) : trim (trimLeft t) = trim t := by
  obtain ⟨lead, split, isLead⟩ := exists_trimLeft t
  have same := trim_of_blank isLead.inside (trimLeft t)
  rw [← split] at same
  exact same.symm

end Trimming

/-! ## Lists that start with a receiver -/

/-- The text starts with the receiver `r`, which a dollar sign may precede, and no word character starts its rest. -/
def Begins (r t tail : Text) : Prop :=
  ∃ dollar, (dollar = [] ∨ dollar = [.char '$']) ∧ t = dollar ++ r ++ tail ∧ isWordAt tail.head? = false

section Receivers
variable {r t tail : Text}

theorem Begins.receiver? (word : IsWordText r) (begins : Begins r t tail) :
    Header.receiver? r t = some (trimLeft (skipComma (skipTypeMark (trimLeft tail)))) := by
  obtain ⟨dollar, isDollar, rfl, ends⟩ := begins
  generalize skipped : trimLeft (skipComma (skipTypeMark (trimLeft tail))) = left
  obtain ⟨gap, mark, comma, space, rfl, isGap, isMark, isComma, isSpace⟩ := skips_eq_iff.1 skipped
  exact (receiver?_eq_some_iff word).2 ⟨dollar ++ r ++ gap ++ mark ++ comma ++ space, by simp,
    .intro isDollar ends isGap isMark isComma isSpace⟩

theorem begins_of_receiver? {left : Text} (word : IsWordText r) (read : Header.receiver? r t = some left) :
    ∃ tail, Begins r t tail := by
  obtain ⟨part, rfl, ⟨isDollar, ends, -, -, -, -⟩⟩ := (receiver?_eq_some_iff word).1 read
  rename_i dollar gap mark comma space
  exact ⟨gap ++ mark ++ comma ++ space ++ left, dollar, isDollar, by simp, ends⟩

theorem receiver?_eq_none (word : IsWordText r) (nowhere : ∀ tail, ¬ Begins r t tail) : Header.receiver? r t = none := by
  cases read : Header.receiver? r t with
  | none => rfl
  | some left =>
    obtain ⟨tail, begins⟩ := begins_of_receiver? word read
    exact absurd begins (nowhere tail)

theorem Begins.unique {tail' : Text} (word : IsWordText r) (begins : Begins r t tail) (begins' : Begins r t tail') :
    tail = tail' := by
  obtain ⟨dollar, rfl | rfl, rfl, -⟩ := begins
  · obtain ⟨dollar', rfl | rfl, split, -⟩ := begins'
    · exact List.append_cancel_left split
    · exact absurd split.symm (ne_dollar word _ _)
  · obtain ⟨dollar', rfl | rfl, split, -⟩ := begins'
    · exact absurd split (ne_dollar word _ _)
    · exact List.append_cancel_left split

/-- Whether a text starts with a receiver is decided before any character that is in no receiver. -/
theorem begins_append {c : Rune} {more : Text} (word : IsWordText r) (other : isWord c = false) (not_dollar : c ≠ .char '$')
    (begins : Begins r (t ++ c :: more) tail) : ∃ tail', Begins r t tail' := by
  obtain ⟨dollar, isDollar, split, ends⟩ := begins
  have outside : c ∉ dollar ++ r := by
    simp only [List.mem_append, not_or]
    refine ⟨?_, fun listed => ?_⟩
    · rcases isDollar with rfl | rfl
      · simp
      · simpa using not_dollar
    · rw [word.2 c listed] at other
      cases other
  obtain ⟨middle, rfl, rfl⟩ := split_before split outside
  refine ⟨middle, dollar, isDollar, rfl, ?_⟩
  cases middle with
  | nil => rfl
  | cons d middle => exact ends

theorem Begins.append {more : Text} (begins : Begins r t tail) (other : isWordAt more.head? = false) :
    Begins r (t ++ more) (tail ++ more) := by
  obtain ⟨dollar, isDollar, rfl, ends⟩ := begins
  refine ⟨dollar, isDollar, by simp, ?_⟩
  cases tail with
  | nil => exact other
  | cons c tail => exact ends

/-- A text that starts with a receiver starts with no white space. -/
theorem Begins.trimLeft_eq (word : IsWordText r) (begins : Begins r t tail) : trimLeft t = t := by
  obtain ⟨dollar, isDollar, rfl, -⟩ := begins
  refine trimLeft_eq_self ?_
  rcases isDollar with rfl | rfl
  · obtain ⟨some_word, words⟩ := word
    obtain ⟨c, others, rfl⟩ := List.exists_cons_of_ne_nil some_word
    rintro d ⟨⟩
    exact isBlank_of_isWord (words c List.mem_cons_self)
  · rintro d ⟨⟩
    decide

end Receivers

/-! ## Headers at the start of a source -/

/-- A header that starts the source is the one that is shown. -/
theorem render_of_start {r body opening name inner params after : Text} (word : IsWordText r) (opens : Opens opening name)
    (left : (Header.receiver? r inner).getD inner = params ++ .char ')' :: after) (closes : .char ')' ∉ params) :
    render r body (some (opening ++ .char '(' :: inner)) none = ⟨write name (trim params) body, some name, true⟩ := by
  obtain ⟨part, rfl, leavesOut⟩ := (receiver?_getD_eq_iff word).1 left
  have read : at? r (opening ++ .char '(' :: (part ++ (params ++ .char ')' :: after))) = some ⟨name, params⟩ :=
    (at?_eq_some_iff word).2 ⟨opening, part, after, opens, leavesOut, closes, rfl⟩
  have found : find? r (opening ++ .char '(' :: (part ++ (params ++ .char ')' :: after))) = some ⟨name, params⟩ := by
    rw [find?, lineStarts, List.findSome?_cons, read]
  simp only [render, findIn?, Option.getD_some, found, Option.getD_none]

theorem opens_plain {keyword name : Text} (isKeyword : IsKeyword keyword) (isName : ∀ c ∈ name, isNameChar c = true) :
    Opens (keyword ++ .char ' ' :: name) name := by
  have blank : ∀ c ∈ [Rune.char ' '], isBlank c = true := by decide
  have opens : Opens ([] ++ [] ++ keyword ++ [.char ' '] ++ name ++ []) name :=
    .intro (List.forall_mem_nil _) (.inl rfl) isKeyword rfl blank ⟨isName, by rintro c ⟨⟩; decide⟩ (List.forall_mem_nil _)
  simpa using opens

/-! ## Parameter lists -/

/-- The text can stand between the commas of a parameter list. -/
def IsParameter (t : Text) : Prop :=
  ∀ c ∈ t, c ≠ .char '(' ∧ c ≠ .char ')' ∧ c ≠ .char ','

instance (t : Text) : Decidable (IsParameter t) :=
  inferInstanceAs (Decidable (∀ c ∈ t, c ≠ .char '(' ∧ c ≠ .char ')' ∧ c ≠ .char ','))

/-- A source that is a header and nothing else. -/
def declaration (keyword name : Text) (params : List Text) : Text :=
  keyword ++ " " ++ name ++ "(" ++ join "," params ++ ")"

/-- The parameter is the receiver, with or without a dollar sign, and with or without an annotation. -/
def IsReceiver (r p : Text) : Prop :=
  ∃ dollar gap mark, (dollar = [] ∨ dollar = [.char '$']) ∧ (∀ c ∈ gap, isBlank c = true) ∧
    (mark = [] ∨ mark.head? = some (.char ':')) ∧ p = dollar ++ r ++ gap ++ mark

/-- The parameters after the first one, each with the comma before it. -/
def following (others : List Text) : Text :=
  (others.map (.char ',' :: ·)).flatten

theorem join_cons (p : Text) (others : List Text) : join "," (p :: others) = p ++ following others := by
  induction others generalizing p with
  | nil => simp [join, following]
  | cons q others ih =>
    have step : join "," (p :: q :: others) = p ++ "," ++ join "," (q :: others) := by
      simp [join, List.intercalate]
    rw [step, ih]
    simp [following]
    rfl

section Lists
variable {r p tail : Text} {others : List Text}

theorem not_mem_following (plain : ∀ q ∈ others, IsParameter q) : .char ')' ∉ following others := by
  simp only [following, List.mem_flatten, List.mem_map]
  rintro ⟨_, ⟨q, listed, rfl⟩, close⟩
  rcases List.mem_cons.1 close with same | inside
  · cases same
  · exact (plain q listed _ inside).2.1 rfl

theorem not_mem_join {params : List Text} (plain : ∀ q ∈ params, IsParameter q) : .char ')' ∉ join "," params := by
  cases params with
  | nil => exact List.not_mem_nil
  | cons p others =>
    have first : .char ')' ∉ p := fun listed => (plain p List.mem_cons_self _ listed).2.1 rfl
    have rest := not_mem_following fun q listed => plain q (List.mem_cons_of_mem p listed)
    rw [join_cons]
    simp [first, rest]

/-- After a parameter comes a comma or the closing parenthesis. -/
theorem following_close (others : List Text) : ∃ c more, following others ++ [.char ')'] = c :: more ∧
    (c = .char ',' ∨ c = .char ')') := by
  cases others with
  | nil => exact ⟨_, _, rfl, .inr rfl⟩
  | cons q others => exact ⟨_, _, rfl, .inl rfl⟩

/-- A first parameter that is the receiver, with no white space before it, starts the list as a receiver, and nothing
but an annotation follows. -/
theorem IsReceiver.begins (isReceiver : IsReceiver r (trim p)) (tight : trimLeft p = p) :
    ∃ tail, Begins r p tail ∧ (trimLeft tail = [] ∨ (trimLeft tail).head? = some (.char ':')) := by
  obtain ⟨dollar, gap, mark, isDollar, gap_blank, isMark, trimmed⟩ := isReceiver
  obtain ⟨trail, split, trail_blank, -⟩ := exists_trimRight p
  rw [trim, tight] at trimmed
  refine ⟨gap ++ mark ++ trail, ⟨dollar, isDollar, by rw [split, trimmed]; simp, ?_⟩, ?_⟩
  · cases gap with
    | cons c gap => exact isWord_of_isBlank (gap_blank c List.mem_cons_self)
    | nil =>
      rcases isMark with rfl | colon
      · cases trail with
        | nil => rfl
        | cons c trail => exact isWord_of_isBlank (trail_blank c List.mem_cons_self)
      · obtain ⟨m, rfl⟩ := List.head?_eq_some_iff.1 colon
        exact (by decide : isWordAt (some (.char ':')) = false)
  · rw [List.append_assoc, trimLeft_of_blank gap_blank]
    rcases isMark with rfl | colon
    · have nothing := trimLeft_of_blank trail_blank []
      rw [List.append_nil] at nothing
      exact .inl nothing
    · obtain ⟨m, rfl⟩ := List.head?_eq_some_iff.1 colon
      exact .inr (by rw [trimLeft_eq_self (by rintro c ⟨⟩; decide)]; rfl)

/-- A first parameter that starts with the receiver is the receiver just if nothing but an annotation follows. -/
theorem Begins.isReceiver_iff (word : IsWordText r) (begins : Begins r p tail) :
    IsReceiver r (trim p) ↔ trimLeft tail = [] ∨ (trimLeft tail).head? = some (.char ':') := by
  have tight := begins.trimLeft_eq word
  refine ⟨fun isReceiver => ?_, fun annotated => ?_⟩
  · obtain ⟨tail', begins', annotated⟩ := isReceiver.begins tight
    rwa [begins.unique word begins']
  obtain ⟨dollar, isDollar, rfl, -⟩ := begins
  obtain ⟨gap, split, isGap⟩ := exists_trimLeft tail
  generalize trimLeft tail = mark at split isGap annotated
  rw [trim, tight, split]
  rcases annotated with rfl | colon
  · -- the receiver's last character is the last that is no white space
    have last : trimRight (dollar ++ r) = dollar ++ r := by
      refine trimRight_eq_self fun c ends => ?_
      rw [List.getLast?_append, List.getLast?_eq_some_getLast word.1] at ends
      obtain rfl : r.getLast word.1 = c := Option.some.inj ends
      exact isBlank_of_isWord (word.2 _ (List.getLast_mem word.1))
    refine ⟨dollar, [], [], isDollar, List.forall_mem_nil _, .inl rfl, ?_⟩
    rw [List.append_nil, trimRight_of_blank isGap.inside, last]
    simp
  · obtain ⟨m, rfl⟩ := List.head?_eq_some_iff.1 colon
    refine ⟨dollar, gap, .char ':' :: trimRight m, isDollar, isGap.inside, .inr rfl, ?_⟩
    rw [← List.append_assoc, trimRight_append (by decide)]

/-- What is left of a list that starts with the receiver and its annotation. -/
theorem skips_annotated (plain : IsParameter tail) (others : List Text)
    (annotated : trimLeft tail = [] ∨ (trimLeft tail).head? = some (.char ':')) :
    trimLeft (skipComma (skipTypeMark (trimLeft (tail ++ (following others ++ [.char ')']))))) =
      trimLeft (join "," others) ++ [.char ')'] := by
  obtain ⟨c, more, next, either⟩ := following_close others
  have solid : isBlank c = false := by rcases either with rfl | rfl <;> decide
  have isMark : IsTypeMark (trimLeft tail) (c :: more) := by
    rcases annotated with nothing | colon
    · exact .inl ⟨nothing, by rcases either with rfl | rfl <;> simp⟩
    · obtain ⟨m, found⟩ := List.head?_eq_some_iff.1 colon
      refine .inr ⟨m, found, fun d listed => ?_, by rintro d ⟨⟩; rcases either with rfl | rfl <;> decide⟩
      have inside : d ∈ tail := by
        obtain ⟨gap, split, -⟩ := exists_trimLeft tail
        rw [split, found]
        simp [listed]
      obtain ⟨-, close, comma⟩ := plain d inside
      simp [close, comma]
  rw [next, trimLeft_append solid, skipTypeMark_eq_iff.2 ⟨_, rfl, isMark⟩, ← next]
  cases others with
  | nil => rfl
  | cons q others =>
    have list : skipComma (following (q :: others) ++ [.char ')']) = join "," (q :: others) ++ [.char ')'] := by
      rw [join_cons]
      simp [following, skipComma]
    rw [list, trimLeft_append (by decide)]

/-- What is left of a list whose first parameter starts with the receiver and goes on in another way. -/
theorem skips_other (plain : IsParameter tail) (others : List Text) (some_left : trimLeft tail ≠ [])
    (no_mark : (trimLeft tail).head? ≠ some (.char ':')) :
    trimLeft (skipComma (skipTypeMark (trimLeft (tail ++ (following others ++ [.char ')']))))) =
      trimLeft tail ++ following others ++ [.char ')'] := by
  obtain ⟨c, more, next, either⟩ := following_close others
  have solid : isBlank c = false := by rcases either with rfl | rfl <;> decide
  rw [List.append_assoc, next, trimLeft_append solid]
  obtain ⟨gap, split, isGap⟩ := exists_trimLeft tail
  generalize trimLeft tail = left at *
  obtain ⟨d, left, rfl⟩ := List.exists_cons_of_ne_nil some_left
  have no_comma : d ≠ .char ',' := (plain d (by rw [split]; simp)).2.2
  have mark : skipTypeMark (d :: left ++ c :: more) = d :: left ++ c :: more :=
    skipTypeMark_eq_iff.2 ⟨[], rfl, .inl ⟨rfl, no_mark⟩⟩
  have comma : skipComma (d :: left ++ c :: more) = d :: left ++ c :: more :=
    skipComma_eq_iff.2 ⟨[], rfl, .inl ⟨rfl, by simpa using no_comma⟩⟩
  rw [mark, comma]
  exact trimLeft_eq_self isGap.stops

theorem Begins.isParameter (plain : IsParameter p) (begins : Begins r p tail) : IsParameter tail := by
  obtain ⟨dollar, -, rfl, -⟩ := begins
  exact fun c listed => plain c (by simp [listed])

/-- The receiver that starts the first parameter starts the list. -/
theorem Begins.list (begins : Begins r p tail) (others : List Text) :
    Begins r (p ++ (following others ++ [.char ')'])) (tail ++ (following others ++ [.char ')'])) := by
  refine begins.append ?_
  obtain ⟨c, more, next, either⟩ := following_close others
  rw [next]
  rcases either with rfl | rfl
  · exact (by decide : isWord (.char ',') = false)
  · exact (by decide : isWord (.char ')') = false)

variable {keyword name : Text}

theorem render_declaration {params : Text} (word : IsWordText r) (isKeyword : IsKeyword keyword)
    (isName : ∀ c ∈ name, isNameChar c = true) (body : Text) (closes : .char ')' ∉ params)
    (left : (Header.receiver? r (p ++ (following others ++ [.char ')']))).getD (p ++ (following others ++ [.char ')'])) =
      params ++ [.char ')']) :
    render r body (some (declaration keyword name (p :: others))) none =
      ⟨write name (trim params) body, some name, true⟩ := by
  have source : declaration keyword name (p :: others) =
      (keyword ++ .char ' ' :: name) ++ .char '(' :: (p ++ (following others ++ [.char ')'])) := by
    rw [declaration, join_cons]
    simp [Text.ofString]
  rw [source]
  exact render_of_start word (opens_plain isKeyword isName) left closes

theorem render_whole (word : IsWordText r) (isKeyword : IsKeyword keyword) (isName : ∀ c ∈ name, isNameChar c = true)
    (plain : ∀ q ∈ p :: others, IsParameter q) (body : Text) (nowhere : ∀ tail, ¬ Begins r p tail) :
    render r body (some (declaration keyword name (p :: others))) none =
      ⟨write name (trim (join "," (p :: others))) body, some name, true⟩ := by
  have unread : Header.receiver? r (p ++ (following others ++ [.char ')'])) = none := by
    refine receiver?_eq_none word fun tail begins => ?_
    obtain ⟨c, more, next, either⟩ := following_close others
    rw [next] at begins
    have no_word : isWord c = false := by rcases either with rfl | rfl <;> decide
    have no_dollar : c ≠ .char '$' := by rcases either with rfl | rfl <;> decide
    obtain ⟨tail', begins'⟩ := begins_append word no_word no_dollar begins
    exact nowhere tail' begins'
  refine render_declaration word isKeyword isName body (not_mem_join plain) ?_
  rw [unread, join_cons]
  simp

theorem render_without (word : IsWordText r) (isKeyword : IsKeyword keyword) (isName : ∀ c ∈ name, isNameChar c = true)
    (plain : ∀ q ∈ p :: others, IsParameter q) (body : Text) (begins : Begins r p tail)
    (annotated : trimLeft tail = [] ∨ (trimLeft tail).head? = some (.char ':')) :
    render r body (some (declaration keyword name (p :: others))) none =
      ⟨write name (trim (join "," others)) body, some name, true⟩ := by
  have plain_tail := begins.isParameter (plain p List.mem_cons_self)
  have left := begins.list others |>.receiver? word
  rw [skips_annotated plain_tail others annotated] at left
  have closes : .char ')' ∉ trimLeft (join "," others) := by
    obtain ⟨lead, split, -⟩ := exists_trimLeft (join "," others)
    have outside := not_mem_join fun q listed => plain q (List.mem_cons_of_mem p listed)
    rw [split] at outside
    exact fun listed => outside (List.mem_append_right lead listed)
  rw [← trim_trimLeft]
  exact render_declaration word isKeyword isName body closes (by rw [left]; rfl)

theorem render_rest (word : IsWordText r) (isKeyword : IsKeyword keyword) (isName : ∀ c ∈ name, isNameChar c = true)
    (plain : ∀ q ∈ p :: others, IsParameter q) (body : Text) (begins : Begins r p tail) (some_left : trimLeft tail ≠ [])
    (no_mark : (trimLeft tail).head? ≠ some (.char ':')) :
    render r body (some (declaration keyword name (p :: others))) none =
      ⟨write name (trim (join "," (tail :: others))) body, some name, true⟩ := by
  have plain_tail := begins.isParameter (plain p List.mem_cons_self)
  have left := begins.list others |>.receiver? word
  rw [skips_other plain_tail others some_left no_mark] at left
  obtain ⟨lead, split, isLead⟩ := exists_trimLeft tail
  have list : join "," (tail :: others) = lead ++ (trimLeft tail ++ following others) := by
    rw [join_cons, ← List.append_assoc, ← split]
  have closes : .char ')' ∉ join "," (tail :: others) := by
    refine not_mem_join fun q listed => ?_
    rcases List.mem_cons.1 listed with rfl | later
    · exact plain_tail
    · exact plain q (List.mem_cons_of_mem p later)
  rw [list] at closes ⊢
  rw [trim_of_blank isLead.inside]
  exact render_declaration word isKeyword isName body (fun listed => closes (List.mem_append_right lead listed))
    (by rw [left]; rfl)

/-- What is shown of a parameter list. A first parameter that is the receiver is left out if it starts with no white
space, and stays if it does. Of a first parameter that is not the receiver but starts with its word, that word is left
out. Every other list is shown as it is. -/
theorem receiver_left_out (word : IsWordText r) (isKeyword : IsKeyword keyword) (isName : ∀ c ∈ name, isNameChar c = true)
    (plain : ∀ q ∈ p :: others, IsParameter q) (body : Text) :
    let shows (params : Text) : Prop := render r body (some (declaration keyword name (p :: others))) none =
      ⟨write name (trim params) body, some name, true⟩
    (IsReceiver r (trim p) → trimLeft p = p → shows (join "," others)) ∧
    (IsReceiver r (trim p) → trimLeft p ≠ p → shows (join "," (p :: others))) ∧
    (¬ IsReceiver r (trim p) → ∀ tail, Begins r p tail → shows (join "," (tail :: others))) ∧
    (¬ IsReceiver r (trim p) → (∀ tail, ¬ Begins r p tail) → shows (join "," (p :: others))) := by
  refine ⟨fun isReceiver tight => ?_, fun _ loose => ?_, fun other tail begins => ?_, fun _ nowhere => ?_⟩
  · obtain ⟨tail, begins, annotated⟩ := isReceiver.begins tight
    exact render_without word isKeyword isName plain body begins annotated
  · exact render_whole word isKeyword isName plain body fun tail begins => loose (begins.trimLeft_eq word)
  · rw [begins.isReceiver_iff word, not_or] at other
    exact render_rest word isKeyword isName plain body begins other.1 other.2
  · exact render_whole word isKeyword isName plain body nowhere

theorem receiver_left_out_lists :
    let params (p : Text) : List Text := [p, "\n  x "]
    let shown (p : Text) : Text := (render "dis" "..." (some (declaration "def" "f" (params p))) none).text
    (IsWordText "dis" ∧ IsKeyword "def" ∧ ∀ c ∈ ("f" : Text), isNameChar c = true) ∧
      (∀ p ∈ (["$dis : T", "\n  dis", "dis = 3"] : List Text), ∀ q ∈ params p, IsParameter q) ∧
      shown "$dis : T" = write "f" "x" "..." ∧ shown "\n  dis" = write "f" "dis,\n  x" "..." ∧
      shown "dis = 3" = write "f" "= 3,\n  x" "..." := by
  intro params shown
  have word : IsWordText "dis" := by decide
  have isKeyword : IsKeyword "def" := .inr rfl
  have isName : ∀ c ∈ ("f" : Text), isNameChar c = true := by decide
  have plain : ∀ p ∈ (["$dis : T", "\n  dis", "dis = 3"] : List Text), ∀ q ∈ params p, IsParameter q := by decide
  refine ⟨⟨word, isKeyword, isName⟩, plain, ?_, ?_, ?_⟩
  · obtain ⟨tight, -⟩ := receiver_left_out word isKeyword isName (plain "$dis : T" (by decide)) "..."
    exact congrArg Rendering.text (tight ⟨"$", " ", ": T", .inr rfl, by decide, .inr rfl, rfl⟩ rfl)
  · obtain ⟨-, loose, -⟩ := receiver_left_out word isKeyword isName (plain "\n  dis" (by decide)) "..."
    exact congrArg Rendering.text (loose ⟨[], [], [], .inl rfl, List.forall_mem_nil _, .inl rfl, rfl⟩ (by decide))
  · obtain ⟨-, -, rest, -⟩ := receiver_left_out word isKeyword isName (plain "dis = 3" (by decide)) "..."
    have begins : Begins "dis" "dis = 3" " = 3" := ⟨[], .inl rfl, rfl, by decide⟩
    have other : ¬ IsReceiver "dis" (trim "dis = 3") := by
      rw [begins.isReceiver_iff word]
      decide
    exact congrArg Rendering.text (rest other _ begins)

end Lists

/-! ## Headers that were shown -/

section Shown
variable {r name params : Text}

/-- The parts of a header that was found can stand in a header. -/
theorem find?_parts {source : Text} {h : Header} (word : IsWordText r) (found : find? r source = some h) :
    (∀ c ∈ h.name, isNameChar c = true) ∧ .char ')' ∉ h.params := by
  obtain ⟨line, -, read⟩ := List.exists_of_findSome?_eq_some found
  obtain ⟨opening, part, after, opens, -, closes, -⟩ := (at?_eq_some_iff word).1 read
  obtain ⟨-, -, -, -, -, isName, -⟩ := opens
  exact ⟨isName.inside, closes⟩

theorem render_write (word : IsWordText r) (isName : ∀ c ∈ name, isNameChar c = true) (closes : .char ')' ∉ params)
    (nowhere : ∀ tail, ¬ Begins r params tail) (body : Text) :
    render r body (some (write name params body)) none = ⟨write name (trim params) body, some name, true⟩ := by
  let after : Text := " \x7b\n  " ++ body ++ "\n\x7d"
  have source : write name params body =
      (("function" : Text) ++ .char ' ' :: name) ++ .char '(' :: (params ++ .char ')' :: after) := by
    simp [write, after, Text.ofString]
  have unread : Header.receiver? r (params ++ .char ')' :: after) = none := by
    refine receiver?_eq_none word fun tail begins => ?_
    obtain ⟨tail', begins'⟩ := begins_append word (by decide) (by decide) begins
    exact nowhere tail' begins'
  rw [source]
  exact render_of_start word (opens_plain (.inl rfl) isName) (by rw [unread]; rfl) closes

/-- A header that was shown is read as it stands, under its name or the empty one, unless the parameters that it shows
start with a receiver. -/
theorem shown_header_reads_back (word : IsWordText r) (body : Text) (source : Option Text) :
    let shown := render r body source none
    ∃ params, shown.text = write (shown.name.getD "") params body ∧
      ((∀ tail, ¬ Begins r params tail) →
        render r body (some shown.text) none = ⟨shown.text, some (shown.name.getD ""), true⟩) := by
  intro shown
  cases found : findIn? r source with
  | none =>
    have answer : shown = ⟨write "" "" body, none, false⟩ := by simp [shown, render, found]
    rw [answer]
    exact ⟨"", rfl, fun nowhere => render_write word (List.forall_mem_nil _) List.not_mem_nil nowhere body⟩
  | some h =>
    have answer : shown = ⟨write h.name (trim h.params) body, some h.name, true⟩ := by simp [shown, render, found]
    obtain ⟨isName, closes⟩ := find?_parts word found
    rw [answer]
    refine ⟨trim h.params, rfl, fun nowhere => ?_⟩
    have again := render_write word isName (fun listed => closes (mem_of_mem_trim listed)) nowhere body
    rw [trim_trim] at again
    exact again

theorem shown_header_reads_back_async :
    let source : Text := "  async def go(dis: T, a) -> None: pass"
    let shown := render "dis" "..." (some source) none
    IsWordText "dis" ∧ shown.text = write "go" "a" "..." ∧
      render "dis" "..." (some shown.text) none = ⟨shown.text, some "go", true⟩ := by
  intro source shown
  have word : IsWordText "dis" := by decide
  have first : shown.text = write "go" "a" "..." ∧ shown.name = some "go" := by decide +kernel
  obtain ⟨params, text, back⟩ := shown_header_reads_back word "..." (some source)
  change shown.text = write (shown.name.getD "") params "..." at text
  change (∀ tail, ¬ Begins "dis" params tail) →
    render "dis" "..." (some shown.text) none = ⟨shown.text, some (shown.name.getD ""), true⟩ at back
  rw [first.1, first.2] at text
  rw [first.2] at back
  obtain rfl : ("a" : Text) = params := by simpa [write] using text
  refine ⟨word, first.1, back fun tail begins => ?_⟩
  obtain ⟨dollar, rfl | rfl, split, -⟩ := begins
  · cases split
  · cases split

end Shown

end Header

end Overlay
