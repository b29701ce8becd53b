import Overlay.Proofs.Pattern

/-!
# The grammar of headers

What the reader of headers accepts, said without the reader. A header starts a line, with its margin, an optional
`async` and a keyword; then come the name and the parameters in parentheses. The receiver is the one parameter that is
left out, and with it go its annotation and its comma, as far as they are there. A `Parse` is a source text in the parts
around its first header. The reader finds a header just if some line starts one (`find?_isSome_iff`), and what it finds
are its parts (`find?_eq_some_iff`). So does a search for the backtracking pattern of headers (`render_by_pattern`).
-/

namespace Overlay
set_option autoImplicit false

open Text (isBlank isWord isWordAt isBoundary trim)

namespace Header

/-! ## Runs of characters -/

/-- The text consists of characters of a class, and what follows does not prolong it. -/
structure IsRun (p : Rune → Bool) (run rest : Text) : Prop where
  inside : ∀ c ∈ run, p c = true
  stops : ∀ c ∈ rest.head?, p c = false

section Runs
variable {p : Rune → Bool} {run rest t : Text}

theorem IsRun.takeWhile_eq (h : IsRun p run rest) : (run ++ rest).takeWhile p = run := by
  rw [List.takeWhile_append_of_pos h.inside]
  cases rest with
  | nil => simp
  | cons c rest =>
    have stop := h.stops c rfl
    simp [stop]

theorem IsRun.dropWhile_eq (h : IsRun p run rest) : (run ++ rest).dropWhile p = rest := by
  rw [List.dropWhile_append_of_pos h.inside]
  cases rest with
  | nil => rfl
  | cons c rest =>
    have stop := h.stops c rfl
    simp [stop]

theorem IsRun.not_mem {c : Rune} (h : IsRun p run rest) (other : p c = false) : c ∉ run := fun listed => by
  rw [h.inside c listed] at other
  cases other

/-- What is left when the characters of a class are dropped comes after a run of them. -/
theorem dropWhile_eq_iff : t.dropWhile p = rest ↔ ∃ run, t = run ++ rest ∧ IsRun p run rest := by
  constructor
  · rintro rfl
    have taken := List.all_takeWhile (p := p) (l := t)
    have left := List.head?_dropWhile_not p t
    refine ⟨t.takeWhile p, List.takeWhile_append_dropWhile.symm, fun c listed => ?_, fun c first => ?_⟩
    · exact List.all_eq_true.1 taken c listed
    · rw [Option.mem_def] at first
      simpa [first] using left
  · rintro ⟨run, rfl, isRun⟩
    exact isRun.dropWhile_eq

end Runs

/-- The rest of a text after a given start. -/
theorem after?_eq_some_iff {start t rest : Text} : after? start t = some rest ↔ t = start ++ rest := by
  induction start generalizing t with
  | nil => simp [after?, eq_comm]
  | cons p start ih =>
    cases t with
    | nil => simp [after?]
    | cons c t =>
      by_cases same : p = c
      · simp [after?, same, ih]
      · simp [after?, same, Ne.symm same]

/-! ## From the start of the line to the parenthesis -/

/-- The text is one of the two words that start a function. -/
def IsKeyword (t : Text) : Prop :=
  t = "function" ∨ t = "def"

/-- The text is `async` with spaces or tabs after it, at least one, or it is empty. -/
def IsAsync (t : Text) : Prop :=
  t = [] ∨ ∃ space, t = ("async" : Text) ++ space ∧ space ≠ [] ∧ ∀ c ∈ space, isMargin c = true

/-- The text of a header before its opening parenthesis: the margin, an optional `async`, a keyword that no word
character follows, and the name between white space. The name is a run: what follows it is white space or the
parenthesis. -/
inductive Opens : Text → Text → Prop
  | intro {margin async keyword gap name space : Text} (margin_blank : ∀ c ∈ margin, isMargin c = true)
      (isAsync : IsAsync async) (isKeyword : IsKeyword keyword)
      (ends : isWordAt (gap ++ name ++ space ++ [Rune.char '(']).head? = false) (gap_blank : ∀ c ∈ gap, isBlank c = true)
      (isName : IsRun isNameChar name (space ++ [Rune.char '('])) (space_blank : ∀ c ∈ space, isBlank c = true) :
      Opens (margin ++ async ++ keyword ++ gap ++ name ++ space) name

theorem afterKeyword?_eq_some_iff {t rest : Text} : afterKeyword? t = some rest ↔
    ∃ keyword, IsKeyword keyword ∧ t = keyword ++ rest ∧ isWordAt rest.head? = false := by
  have either : (after? "function" t).orElse (fun _ => after? "def" t) = some rest ↔
      ∃ keyword, IsKeyword keyword ∧ t = keyword ++ rest := by
    cases first : after? "function" t with
    | some other =>
      have long := after?_eq_some_iff.1 first
      simp only [Option.orElse_some, Option.some.injEq]
      constructor
      · rintro rfl
        exact ⟨_, .inl rfl, long⟩
      · rintro ⟨keyword, rfl | rfl, split⟩
        · exact List.append_cancel_left (long.symm.trans split)
        · rw [long] at split
          cases split
    | none =>
      simp only [Option.orElse_none, after?_eq_some_iff]
      constructor
      · intro short
        exact ⟨_, .inr rfl, short⟩
      · rintro ⟨keyword, rfl | rfl, split⟩
        · rw [after?_eq_some_iff.2 split] at first
          cases first
        · exact split
  constructor
  · intro answer
    unfold afterKeyword? at answer
    split at answer
    · rename_i rest' read
      split at answer
      · cases answer
      · rename_i ends
        cases answer
        obtain ⟨keyword, isKeyword, split⟩ := either.1 read
        exact ⟨keyword, isKeyword, split, by simpa using ends⟩
    · cases answer
  · rintro ⟨keyword, isKeyword, split, ends⟩
    have read := either.2 ⟨keyword, isKeyword, split⟩
    rw [afterKeyword?, read]
    simp [ends]

/-- A header before its keyword starts with no space or tab. -/
theorem head?_async_keyword {async keyword t : Text} (isAsync : IsAsync async) (isKeyword : IsKeyword keyword) :
    ∀ c ∈ (async ++ (keyword ++ t)).head?, isMargin c = false := by
  rcases isAsync with rfl | ⟨space, rfl, -, -⟩
  · rcases isKeyword with rfl | rfl
    · rintro c ⟨⟩
      decide
    · rintro c ⟨⟩
      decide
  · rintro c ⟨⟩
    decide

theorem skipAsync_eq_iff {t keyword tail : Text} (isKeyword : IsKeyword keyword) :
    skipAsync t = keyword ++ tail ↔ ∃ async, IsAsync async ∧ t = async ++ (keyword ++ tail) := by
  have stops := head?_async_keyword (t := tail) (.inl rfl) isKeyword
  constructor
  · intro skipped
    unfold skipAsync at skipped
    split at skipped
    · rename_i c rest read
      split at skipped
      · rename_i margin
        obtain ⟨run, rfl, isRun⟩ := dropWhile_eq_iff.1 skipped
        refine ⟨("async" : Text) ++ c :: run, .inr ⟨c :: run, rfl, by simp, ?_⟩, ?_⟩
        · intro d listed
          rcases List.mem_cons.1 listed with rfl | later
          · exact margin
          · exact isRun.inside d later
        · rw [after?_eq_some_iff.1 read]
          simp
      · exact ⟨[], .inl rfl, skipped⟩
    · exact ⟨[], .inl rfl, skipped⟩
  · rintro ⟨async, rfl | ⟨space, rfl, some_space, margins⟩, rfl⟩
    · rcases isKeyword with rfl | rfl
      · rfl
      · rfl
    · obtain ⟨c, run, rfl⟩ := List.exists_cons_of_ne_nil some_space
      have read : after? "async" ((("async" : Text) ++ c :: run) ++ (keyword ++ tail)) =
          some (c :: (run ++ (keyword ++ tail))) := by
        rw [after?_eq_some_iff]
        simp
      have isRun : IsRun isMargin run (keyword ++ tail) :=
        ⟨fun d listed => margins d (List.mem_cons_of_mem c listed), stops⟩
      have first : isMargin c = true := margins c List.mem_cons_self
      simp only [skipAsync, read, first, if_true, isRun.dropWhile_eq]

/-- What follows a keyword starts as the text up to the parenthesis does. -/
theorem head?_parts (gap name space inner : Text) : (gap ++ (name ++ (space ++ .char '(' :: inner))).head? =
    (gap ++ name ++ space ++ [Rune.char '(']).head? := by
  cases gap <;> cases name <;> cases space <;> rfl

/-- The name and what follows the parenthesis, as they are read after the keyword. -/
theorem name_of_parts {gap name space : Text} (inner : Text) (gap_blank : ∀ c ∈ gap, isBlank c = true)
    (isName : IsRun isNameChar name (space ++ [Rune.char '('])) (space_blank : ∀ c ∈ space, isBlank c = true)
    {rest : Text} (dropped : (gap ++ (name ++ (space ++ .char '(' :: inner))).dropWhile isBlank = rest) :
    rest.takeWhile isNameChar = name ∧ (rest.dropWhile isNameChar).dropWhile isBlank = .char '(' :: inner := by
  have spaces : IsRun isBlank space (.char '(' :: inner) := ⟨space_blank, by rintro c ⟨⟩; decide⟩
  have named : IsRun isNameChar name (space ++ .char '(' :: inner) :=
    ⟨isName.inside, by cases space <;> exact isName.stops⟩
  cases name with
  | nil =>
    -- without a name the two stretches of white space are one
    have blanks : IsRun isBlank (gap ++ space) (.char '(' :: inner) := by
      refine ⟨fun c listed => ?_, spaces.stops⟩
      rcases List.mem_append.1 listed with before | after
      · exact gap_blank c before
      · exact space_blank c after
    rw [List.nil_append, ← List.append_assoc, blanks.dropWhile_eq] at dropped
    subst dropped
    exact ⟨rfl, rfl⟩
  | cons first others =>
    have blanks : IsRun isBlank gap (first :: others ++ (space ++ .char '(' :: inner)) := by
      refine ⟨gap_blank, ?_⟩
      rintro c ⟨⟩
      have inside := isName.inside first List.mem_cons_self
      simp only [isNameChar, Bool.and_eq_true, Bool.not_eq_true'] at inside
      exact inside.1
    rw [blanks.dropWhile_eq] at dropped
    subst dropped
    rw [named.takeWhile_eq, named.dropWhile_eq, spaces.dropWhile_eq]
    exact ⟨rfl, rfl⟩

/-- The reader of openings reads the openings. -/
theorem opening?_eq_some_iff {line name inner : Text} : opening? line = some (name, inner) ↔
    ∃ opening, Opens opening name ∧ line = opening ++ .char '(' :: inner := by
  constructor
  · intro answer
    unfold opening? at answer
    split at answer
    · cases answer
    · rename_i rest read
      dsimp only at answer
      split at answer
      · rename_i params parenthesis
        cases answer
        obtain ⟨keyword, isKeyword, skipped, ends⟩ := afterKeyword?_eq_some_iff.1 read
        obtain ⟨async, isAsync, dropped⟩ := (skipAsync_eq_iff isKeyword).1 skipped
        obtain ⟨margin, rfl, isMargin⟩ := dropWhile_eq_iff.1 dropped
        obtain ⟨gap, restored, isGap⟩ := dropWhile_eq_iff.1 (rfl : rest.dropWhile isBlank = _)
        obtain ⟨space, left, isSpace⟩ := dropWhile_eq_iff.1 parenthesis
        have isName : IsRun isNameChar ((rest.dropWhile isBlank).takeWhile isNameChar) (space ++ [Rune.char '(']) := by
          obtain ⟨run, split, isRun⟩ := dropWhile_eq_iff.1 left
          rw [split, isRun.takeWhile_eq]
          exact ⟨isRun.inside, by cases space <;> exact isRun.stops⟩
        have parts : rest = gap ++ ((rest.dropWhile isBlank).takeWhile isNameChar ++ (space ++ .char '(' :: inner)) := by
          rw [← left, List.takeWhile_append_dropWhile]
          exact restored
        generalize (rest.dropWhile isBlank).takeWhile isNameChar = name at parts isName
        subst parts
        refine ⟨_, .intro isMargin.inside isAsync isKeyword ?_ isGap.inside isName isSpace.inside, by simp⟩
        rw [← head?_parts, ends]
      · cases answer
  · rintro ⟨opening, ⟨margin_blank, isAsync, isKeyword, ends, gap_blank, isName, space_blank⟩, rfl⟩
    rename_i margin async keyword gap space
    let rest := gap ++ (name ++ (space ++ .char '(' :: inner))
    have isMargin : IsRun isMargin margin (async ++ (keyword ++ rest)) :=
      ⟨margin_blank, head?_async_keyword isAsync isKeyword⟩
    have skipped : skipAsync (async ++ (keyword ++ rest)) = keyword ++ rest :=
      (skipAsync_eq_iff isKeyword).2 ⟨async, isAsync, rfl⟩
    have read : afterKeyword? (keyword ++ rest) = some rest := by
      refine afterKeyword?_eq_some_iff.2 ⟨keyword, isKeyword, rfl, ?_⟩
      rw [head?_parts, ends]
    obtain ⟨taken, left⟩ := name_of_parts inner gap_blank isName space_blank rfl
    have line : margin ++ async ++ keyword ++ gap ++ name ++ space ++ .char '(' :: inner =
        margin ++ (async ++ (keyword ++ rest)) := by simp [rest]
    rw [line, opening?, isMargin.dropWhile_eq, skipped, read]
    simp only [rest, taken, left]

/-! ## The receiver -/

/-- The text consists of word characters, of at least one. -/
def IsWordText (t : Text) : Prop :=
  t ≠ [] ∧ ∀ c ∈ t, isWord c = true

instance (t : Text) : Decidable (IsWordText t) :=
  inferInstanceAs (Decidable (t ≠ [] ∧ ∀ c ∈ t, isWord c = true))

/-- The text is an annotation, if what is there starts with a colon: the colon, and what follows up to a comma or a
closing parenthesis. Otherwise it is empty. -/
def IsTypeMark (mark rest : Text) : Prop :=
  mark = [] ∧ rest.head? ≠ some (.char ':') ∨
    ∃ t, mark = .char ':' :: t ∧ IsRun (fun c => c != ',' && c != ')') t rest

/-- The text is a comma, if what is there starts with one. Otherwise it is empty. -/
def IsComma (comma rest : Text) : Prop :=
  comma = [] ∧ rest.head? ≠ some (.char ',') ∨ comma = [.char ',']

/-- The start of a parameter list that is left out, and the rest: the receiver `r`, which a dollar sign may precede and
no word character may follow, white space, an annotation, a comma, and white space. -/
inductive ReceiverPart (r : Text) : Text → Text → Prop
  | intro {dollar gap mark comma space rest : Text} (isDollar : dollar = [] ∨ dollar = [.char '$'])
      (ends : isWordAt (gap ++ mark ++ comma ++ space ++ rest).head? = false)
      (isGap : IsRun isBlank gap (mark ++ comma ++ space ++ rest)) (isMark : IsTypeMark mark (comma ++ space ++ rest))
      (isComma : IsComma comma (space ++ rest)) (isSpace : IsRun isBlank space rest) :
      ReceiverPart r (dollar ++ r ++ gap ++ mark ++ comma ++ space) rest

/-- The receiver is left out with its part if the list starts with it; otherwise nothing is left out. -/
def LeavesOut (r part rest : Text) : Prop :=
  ReceiverPart r part rest ∨ part = [] ∧ ∀ part' rest', rest = part' ++ rest' → ¬ ReceiverPart r part' rest'

section Receivers
variable {r t rest : Text}

theorem skipTypeMark_eq_iff : skipTypeMark t = rest ↔ ∃ mark, t = mark ++ rest ∧ IsTypeMark mark rest := by
  constructor
  · intro skipped
    unfold skipTypeMark at skipped
    split at skipped
    · rename_i tail
      obtain ⟨run, rfl, isRun⟩ := dropWhile_eq_iff.1 skipped
      exact ⟨.char ':' :: run, rfl, .inr ⟨run, rfl, isRun⟩⟩
    · rename_i other
      subst skipped
      refine ⟨[], rfl, .inl ⟨rfl, fun colon => ?_⟩⟩
      obtain ⟨tail, rfl⟩ := List.head?_eq_some_iff.1 colon
      exact other tail rfl
  · rintro ⟨mark, rfl, ⟨rfl, other⟩ | ⟨run, rfl, isRun⟩⟩
    · unfold skipTypeMark
      split
      · rename_i tail colon
        rw [List.nil_append] at colon
        exact absurd (by rw [colon]; rfl) other
      · rfl
    · exact isRun.dropWhile_eq

theorem skipComma_eq_iff : skipComma t = rest ↔ ∃ comma, t = comma ++ rest ∧ IsComma comma rest := by
  constructor
  · intro skipped
    unfold skipComma at skipped
    split at skipped
    · rename_i tail
      subst skipped
      exact ⟨[.char ','], rfl, .inr rfl⟩
    · rename_i other
      subst skipped
      refine ⟨[], rfl, .inl ⟨rfl, fun comma => ?_⟩⟩
      obtain ⟨tail, rfl⟩ := List.head?_eq_some_iff.1 comma
      exact other tail rfl
  · rintro ⟨comma, rfl, ⟨rfl, other⟩ | rfl⟩
    · unfold skipComma
      split
      · rename_i tail comma
        rw [List.nil_append] at comma
        exact absurd (by rw [comma]; rfl) other
      · rfl
    · rfl

/-- The reader of receivers, once it is known whether a dollar sign precedes the receiver. -/
theorem afterReceiver?_eq_some_iff {before : Rune} (word : IsWordText r) : afterReceiver? r before t = some rest ↔
    ∃ tail, t = r ++ tail ∧ isWordAt tail.head? = false ∧
      (skipComma (skipTypeMark (tail.dropWhile isBlank))).dropWhile isBlank = rest := by
  -- a receiver ends with a word character, so a boundary after it is that none follows
  have boundary (c? : Option Rune) : isBoundary (some (r.getLast?.getD before)) c? = !isWordAt c? := by
    have last : isWord (r.getLast?.getD before) = true := by
      rw [List.getLast?_eq_some_getLast word.1]
      exact word.2 _ (List.getLast_mem word.1)
    have here : isWordAt (some (r.getLast?.getD before)) = true := last
    rw [isBoundary, here]
    cases isWordAt c? <;> rfl
  unfold afterReceiver?
  cases read : after? r t with
  | none =>
    refine ⟨by rintro ⟨⟩, ?_⟩
    rintro ⟨tail, split, -⟩
    rw [after?_eq_some_iff.2 split] at read
    cases read
  | some tail =>
    have split := after?_eq_some_iff.1 read
    simp only [boundary]
    constructor
    · intro answer
      split at answer
      · rename_i ends
        exact ⟨tail, split, by simpa using ends, Option.some.inj answer⟩
      · cases answer
    · rintro ⟨tail', split', ends, skipped⟩
      obtain rfl : tail = tail' := List.append_cancel_left (split.symm.trans split')
      simp [ends, skipped]

/-- What is left after a receiver, with or without a dollar sign. -/
def receiver? (r : Text) : Text → Option Text
  | .char '$' :: tail => afterReceiver? r '$' tail
  | t => afterReceiver? r '(' t

/-- All that is skipped after a receiver. -/
theorem skips_eq_iff {tail : Text} : (skipComma (skipTypeMark (tail.dropWhile isBlank))).dropWhile isBlank = rest ↔
    ∃ gap mark comma space, tail = gap ++ mark ++ comma ++ space ++ rest ∧
      IsRun isBlank gap (mark ++ comma ++ space ++ rest) ∧ IsTypeMark mark (comma ++ space ++ rest) ∧
      IsComma comma (space ++ rest) ∧ IsRun isBlank space rest := by
  constructor
  · intro skipped
    obtain ⟨space, left, isSpace⟩ := dropWhile_eq_iff.1 skipped
    obtain ⟨comma, left, isComma⟩ := skipComma_eq_iff.1 left
    obtain ⟨mark, left, isMark⟩ := skipTypeMark_eq_iff.1 left
    obtain ⟨gap, rfl, isGap⟩ := dropWhile_eq_iff.1 left
    refine ⟨gap, mark, comma, space, by simp, ?_, ?_, isComma, isSpace⟩
    · simpa using isGap
    · simpa using isMark
  · rintro ⟨gap, mark, comma, space, rfl, isGap, isMark, isComma, isSpace⟩
    have blanks : (gap ++ mark ++ comma ++ space ++ rest).dropWhile isBlank = mark ++ comma ++ space ++ rest :=
      dropWhile_eq_iff.2 ⟨gap, by simp, isGap⟩
    have marks : skipTypeMark (mark ++ comma ++ space ++ rest) = comma ++ space ++ rest :=
      skipTypeMark_eq_iff.2 ⟨mark, by simp, isMark⟩
    have commas : skipComma (comma ++ space ++ rest) = space ++ rest :=
      skipComma_eq_iff.2 ⟨comma, by simp, isComma⟩
    rw [blanks, marks, commas, isSpace.dropWhile_eq]

/-- A text does not start with a dollar sign and with the receiver. -/
theorem ne_dollar (word : IsWordText r) (tail tail' : Text) : .char '$' :: tail ≠ r ++ tail' := by
  obtain ⟨some_word, words⟩ := word
  obtain ⟨c, others, rfl⟩ := List.exists_cons_of_ne_nil some_word
  intro same
  obtain ⟨rfl, -⟩ := List.cons.inj same
  exact absurd (words _ List.mem_cons_self) (by decide)

theorem receiver?_eq_some_iff (word : IsWordText r) : receiver? r t = some rest ↔
    ∃ part, t = part ++ rest ∧ ReceiverPart r part rest := by
  constructor
  · intro answer
    unfold receiver? at answer
    split at answer
    · rename_i t tail
      obtain ⟨after, rfl, ends, skipped⟩ := (afterReceiver?_eq_some_iff word).1 answer
      obtain ⟨gap, mark, comma, space, rfl, isGap, isMark, isComma, isSpace⟩ := skips_eq_iff.1 skipped
      exact ⟨_, by simp, .intro (.inr rfl) ends isGap isMark isComma isSpace⟩
    · obtain ⟨after, rfl, ends, skipped⟩ := (afterReceiver?_eq_some_iff word).1 answer
      obtain ⟨gap, mark, comma, space, rfl, isGap, isMark, isComma, isSpace⟩ := skips_eq_iff.1 skipped
      exact ⟨_, by simp, .intro (.inl rfl) ends isGap isMark isComma isSpace⟩
  · rintro ⟨part, rfl, ⟨isDollar, ends, isGap, isMark, isComma, isSpace⟩⟩
    rename_i dollar gap mark comma space
    have read (before : Rune) : afterReceiver? r before (r ++ (gap ++ mark ++ comma ++ space ++ rest)) = some rest :=
      (afterReceiver?_eq_some_iff word).2
        ⟨_, rfl, ends, skips_eq_iff.2 ⟨gap, mark, comma, space, rfl, isGap, isMark, isComma, isSpace⟩⟩
    rcases isDollar with rfl | rfl
    · have split : [] ++ r ++ gap ++ mark ++ comma ++ space ++ rest =
          r ++ (gap ++ mark ++ comma ++ space ++ rest) := by simp
      rw [split]
      unfold receiver?
      split
      · rename_i tail same
        exact absurd same.symm (ne_dollar word _ _)
      · exact read _
    · have split : [.char '$'] ++ r ++ gap ++ mark ++ comma ++ space ++ rest =
          .char '$' :: (r ++ (gap ++ mark ++ comma ++ space ++ rest)) := by simp
      rw [split]
      exact read _

/-- The readings of a parameter list are the one without a receiver, if it starts with one, and the whole list. -/
theorem readings_eq (word : IsWordText r) (t : Text) : readings r t = (receiver? r t).toList ++ [t] := by
  unfold readings receiver?
  split
  · rename_i t tail
    have other : afterReceiver? r '(' (.char '$' :: tail) = none := by
      cases read : afterReceiver? r '(' (.char '$' :: tail) with
      | none => rfl
      | some rest =>
        obtain ⟨after, same, -⟩ := (afterReceiver?_eq_some_iff word).1 read
        exact absurd same (ne_dollar word _ _)
    simp [other]
  · simp

/-- No closing parenthesis is left out with a receiver. -/
theorem ReceiverPart.not_mem_close {part : Text} (word : IsWordText r) (isPart : ReceiverPart r part rest) :
    .char ')' ∉ part := by
  obtain ⟨isDollar, -, isGap, isMark, isComma, isSpace⟩ := isPart
  rename_i dollar gap mark comma space
  have dollars : .char ')' ∉ dollar := by
    rcases isDollar with rfl | rfl <;> simp
  have words : .char ')' ∉ r := fun listed => absurd (word.2 _ listed) (by decide)
  have gaps : .char ')' ∉ gap := isGap.not_mem (by decide)
  have marks : .char ')' ∉ mark := by
    rcases isMark with ⟨rfl, -⟩ | ⟨run, rfl, isRun⟩
    · simp
    · simpa using isRun.not_mem (c := .char ')') (by decide)
  have commas : .char ')' ∉ comma := by
    rcases isComma with ⟨rfl, -⟩ | rfl <;> simp
  have spaces : .char ')' ∉ space := isSpace.not_mem (by decide)
  simp only [List.mem_append, not_or]
  exact ⟨⟨⟨⟨⟨dollars, words⟩, gaps⟩, marks⟩, commas⟩, spaces⟩

theorem LeavesOut.not_mem_close {part : Text} (word : IsWordText r) (leavesOut : LeavesOut r part rest) :
    .char ')' ∉ part := by
  rcases leavesOut with isPart | ⟨rfl, -⟩
  · exact isPart.not_mem_close word
  · simp

/-! ## The parameters -/

theorem upToClose?_eq_some_iff {params : Text} : upToClose? t = some params ↔
    ∃ after, t = params ++ .char ')' :: after ∧ .char ')' ∉ params := by
  constructor
  · intro answer
    unfold upToClose? at answer
    split at answer
    · rename_i closed
      obtain ⟨run, split, isRun⟩ := dropWhile_eq_iff.1 (rfl : t.dropWhile (· != .char ')') = _)
      have params_eq : run = params := by
        rw [← Option.some.inj answer, split, isRun.takeWhile_eq]
      subst params_eq
      have outside : .char ')' ∉ run := isRun.not_mem (by decide)
      cases left : t.dropWhile (· != .char ')') with
      | nil =>
        rw [left, List.append_nil] at split
        rw [split] at closed
        exact absurd (List.contains_iff_mem.1 closed) outside
      | cons c after =>
        have close : c = .char ')' := by
          rw [left] at isRun
          simpa using isRun.stops c rfl
        refine ⟨after, ?_, outside⟩
        rw [← close, ← left]
        exact split
    · cases answer
  · rintro ⟨after, rfl, outside⟩
    have closed : (params ++ .char ')' :: after).contains (.char ')') = true := by simp
    have isRun : IsRun (· != .char ')') params (.char ')' :: after) := by
      refine ⟨fun c listed => ?_, by rintro c ⟨⟩; decide⟩
      simpa using fun close : c = .char ')' => outside (close ▸ listed)
    rw [upToClose?, if_pos closed, isRun.takeWhile_eq]

theorem upToClose?_eq_none_iff : upToClose? t = none ↔ .char ')' ∉ t := by
  simp [upToClose?]

/-- Where a parameter list starts with a receiver, the reading without it is the one that counts. -/
theorem findSome?_readings (word : IsWordText r) :
    (readings r t).findSome? upToClose? = upToClose? ((receiver? r t).getD t) := by
  rw [readings_eq word]
  cases answer : receiver? r t with
  | none => simp
  | some rest =>
    obtain ⟨part, rfl, isPart⟩ := (receiver?_eq_some_iff word).1 answer
    have outside := isPart.not_mem_close word
    cases closed : upToClose? rest with
    | some params => simp [closed]
    | none =>
      have none_there := upToClose?_eq_none_iff.1 closed
      have whole : upToClose? (part ++ rest) = none := by
        simp [upToClose?_eq_none_iff, outside, none_there]
      simp [closed, whole]

/-- What is left of a parameter list when its receiver is left out. -/
theorem receiver?_getD_eq_iff (word : IsWordText r) :
    (receiver? r t).getD t = rest ↔ ∃ part, t = part ++ rest ∧ LeavesOut r part rest := by
  cases answer : receiver? r t with
  | none =>
    have nowhere (part rest' : Text) (split : t = part ++ rest') : ¬ ReceiverPart r part rest' := fun isPart => by
      rw [(receiver?_eq_some_iff word).2 ⟨part, split, isPart⟩] at answer
      cases answer
    constructor
    · rintro rfl
      exact ⟨[], rfl, .inr ⟨rfl, nowhere⟩⟩
    · rintro ⟨part, split, isPart | ⟨rfl, -⟩⟩
      · exact absurd isPart (nowhere part rest split)
      · exact split
  | some left =>
    obtain ⟨part, split, isPart⟩ := (receiver?_eq_some_iff word).1 answer
    constructor
    · rintro rfl
      exact ⟨part, split, .inl isPart⟩
    · rintro ⟨part', split', isPart' | ⟨rfl, nowhere⟩⟩
      · have same := (receiver?_eq_some_iff word).2 ⟨part', split', isPart'⟩
        exact Option.some.inj (answer.symm.trans same)
      · exact absurd isPart (nowhere part left (split'.symm.trans split))

theorem at?_eq_some_iff {line name params : Text} (word : IsWordText r) : at? r line = some ⟨name, params⟩ ↔
    ∃ opening part after, Opens opening name ∧ LeavesOut r part (params ++ .char ')' :: after) ∧ .char ')' ∉ params ∧
      line = opening ++ .char '(' :: (part ++ (params ++ .char ')' :: after)) := by
  constructor
  · intro answer
    unfold at? at answer
    split at answer
    · cases answer
    · rename_i name' inner read
      obtain ⟨params', closed, same⟩ := Option.map_eq_some_iff.1 answer
      cases same
      rw [findSome?_readings word, upToClose?_eq_some_iff] at closed
      obtain ⟨after, left, outside⟩ := closed
      obtain ⟨part, rfl, leavesOut⟩ := (receiver?_getD_eq_iff word).1 left
      obtain ⟨opening, opens, rfl⟩ := opening?_eq_some_iff.1 read
      exact ⟨opening, part, after, opens, leavesOut, outside, rfl⟩
  · rintro ⟨opening, part, after, opens, leavesOut, outside, rfl⟩
    have read : opening? (opening ++ .char '(' :: (part ++ (params ++ .char ')' :: after))) =
        some (name, part ++ (params ++ .char ')' :: after)) := opening?_eq_some_iff.2 ⟨opening, opens, rfl⟩
    have left := (receiver?_getD_eq_iff word).2 ⟨part, rfl, leavesOut⟩
    have closed := upToClose?_eq_some_iff.2 ⟨after, rfl, outside⟩
    simp only [at?, read, findSome?_readings word, left, closed, Option.map_some]

/-- From the start of the text on a header can be read, and a closing parenthesis occurs after its opening one. -/
def Starts (line : Text) : Prop :=
  ∃ opening name inner, Opens opening name ∧ line = opening ++ .char '(' :: inner ∧ .char ')' ∈ inner

theorem at?_isSome_iff {line : Text} (word : IsWordText r) : (at? r line).isSome = true ↔ Starts line := by
  constructor
  · intro found
    obtain ⟨⟨name, params⟩, answer⟩ := Option.isSome_iff_exists.1 found
    obtain ⟨opening, part, after, opens, -, -, rfl⟩ := (at?_eq_some_iff word).1 answer
    exact ⟨opening, name, _, opens, rfl, by simp⟩
  · rintro ⟨opening, name, inner, opens, rfl, closed⟩
    have read : opening? (opening ++ .char '(' :: inner) = some (name, inner) :=
      opening?_eq_some_iff.2 ⟨opening, opens, rfl⟩
    obtain ⟨part, split, leavesOut⟩ := (receiver?_getD_eq_iff (t := inner) word).1 rfl
    have outside := leavesOut.not_mem_close word
    have still_closed : .char ')' ∈ (receiver? r inner).getD inner := by
      rw [split] at closed
      exact (List.mem_append.1 closed).resolve_left outside
    cases answer : upToClose? ((receiver? r inner).getD inner) with
    | none => exact absurd still_closed (upToClose?_eq_none_iff.1 answer)
    | some params => simp [at?, read, findSome?_readings word, answer]

end Receivers

/-! ## The first line that starts a header -/

/-- What follows the text starts a line. -/
def IsLineStart (before : Text) : Prop :=
  before = [] ∨ ∃ lines, before = lines ++ [.char '\n']

theorem mem_followers_iff {t line : Text} : line ∈ lineStarts.followers t ↔ ∃ lines, t = lines ++ .char '\n' :: line := by
  induction t with
  | nil => simp [lineStarts.followers]
  | cons c t ih =>
    have shift : (∃ lines, c :: t = lines ++ .char '\n' :: line) ↔
        c = .char '\n' ∧ t = line ∨ ∃ lines, t = lines ++ .char '\n' :: line := by
      constructor
      · rintro ⟨lines, split⟩
        cases lines with
        | nil => exact .inl (List.cons.inj split)
        | cons d lines => exact .inr ⟨lines, (List.cons.inj split).2⟩
      · rintro (⟨rfl, rfl⟩ | ⟨lines, rfl⟩)
        · exact ⟨[], rfl⟩
        · exact ⟨c :: lines, rfl⟩
    rw [shift, ← ih, lineStarts.followers]
    by_cases feed : c = .char '\n'
    · simp [feed, eq_comm]
    · simp [feed]

theorem mem_lineStarts_iff {t line : Text} : line ∈ lineStarts t ↔ ∃ before, IsLineStart before ∧ t = before ++ line := by
  rw [lineStarts, List.mem_cons, mem_followers_iff]
  constructor
  · rintro (rfl | ⟨lines, rfl⟩)
    · exact ⟨[], .inl rfl, rfl⟩
    · exact ⟨lines ++ [.char '\n'], .inr ⟨lines, rfl⟩, by simp⟩
  · rintro ⟨before, rfl | ⟨lines, rfl⟩, rfl⟩
    · exact .inl rfl
    · exact .inr ⟨lines, by simp⟩

/-- The line starts are listed from the first to the last, so their rests get shorter. -/
theorem pairwise_lineStarts (t : Text) : (lineStarts t).Pairwise fun a b => b.length < a.length := by
  have shorter {t line : Text} (listed : line ∈ lineStarts.followers t) : line.length < t.length := by
    obtain ⟨lines, rfl⟩ := mem_followers_iff.1 listed
    simp
    omega
  refine List.pairwise_cons.2 ⟨fun line => shorter, ?_⟩
  induction t with
  | nil => simp [lineStarts.followers]
  | cons c t ih =>
    rw [lineStarts.followers]
    split
    · exact List.pairwise_cons.2 ⟨fun line => shorter, ih⟩
    · exact ih

/-- A source text in parts around a header: what is before its line, the header up to its opening parenthesis, its name
(which is part of that), what is left out of the parameters, the parameters, and what follows the closing parenthesis. -/
structure Parse where
  before : Text
  opening : Text
  name : Text
  receiver : Text
  params : Text
  after : Text

namespace Parse

/-- The text from the start up to and with the closing parenthesis of the header. -/
def upToEnd (x : Parse) : Text :=
  x.before ++ x.opening ++ [.char '('] ++ x.receiver ++ x.params ++ [.char ')']

/-- The whole text. -/
def source (x : Parse) : Text :=
  x.upToEnd ++ x.after

/-- The header in the middle is one by the grammar, and no earlier line starts one. -/
structure IsFirst (r : Text) (x : Parse) : Prop where
  lineStart : IsLineStart x.before
  opens : Opens x.opening x.name
  leavesOut : LeavesOut r x.receiver (x.params ++ .char ')' :: x.after)
  closes : .char ')' ∉ x.params
  earliest : ∀ before line, IsLineStart before → x.source = before ++ line → before.length < x.before.length →
    ¬ Starts line

end Parse

section Sources
variable {r source : Text}

/-- Of two cuts through a text the earlier one leaves more. -/
theorem shorter_iff_longer {before line before' line' : Text} (same : before ++ line = before' ++ line') :
    before'.length < before.length ↔ line.length < line'.length := by
  have lengths := congrArg List.length same
  rw [List.length_append, List.length_append] at lengths
  omega

theorem find?_isSome_iff (word : IsWordText r) : (find? r source).isSome = true ↔
    ∃ before line, IsLineStart before ∧ source = before ++ line ∧ Starts line := by
  rw [find?, List.findSome?_isSome_iff]
  constructor
  · rintro ⟨line, listed, found⟩
    obtain ⟨before, lineStart, split⟩ := mem_lineStarts_iff.1 listed
    exact ⟨before, line, lineStart, split, (at?_isSome_iff word).1 found⟩
  · rintro ⟨before, line, lineStart, split, starts⟩
    exact ⟨line, mem_lineStarts_iff.2 ⟨before, lineStart, split⟩, (at?_isSome_iff word).2 starts⟩

/-- The reader finds the name and the parameters of the first header. -/
theorem find?_eq_some_iff {name params : Text} (word : IsWordText r) : find? r source = some ⟨name, params⟩ ↔
    ∃ x : Parse, x.IsFirst r ∧ x.source = source ∧ x.name = name ∧ x.params = params := by
  have ordered := pairwise_lineStarts source
  rw [find?, List.findSome?_eq_some_iff]
  constructor
  · rintro ⟨earlier, line, later, split, answer, nothing⟩
    obtain ⟨before, lineStart, whole⟩ := mem_lineStarts_iff.1 (by rw [split]; simp : line ∈ lineStarts source)
    obtain ⟨opening, part, after, opens, leavesOut, closes, rfl⟩ := (at?_eq_some_iff word).1 answer
    let x : Parse := ⟨before, opening, name, part, params, after⟩
    have same : x.source = source := by simp [whole, x, Parse.source, Parse.upToEnd]
    refine ⟨x, ⟨lineStart, opens, leavesOut, closes, ?_⟩, same, rfl, rfl⟩
    intro before' line' lineStart' whole' shorter starts
    rw [same] at whole'
    -- the line is longer than the one that was read, so it was tried before
    have longer := (shorter_iff_longer (whole.symm.trans whole')).1 shorter
    have listed : line' ∈ lineStarts source := mem_lineStarts_iff.2 ⟨before', lineStart', whole'⟩
    rw [split, List.mem_append, List.mem_cons] at listed
    rcases listed with tried | rfl | untried
    · have read := (at?_isSome_iff word).2 starts
      rw [nothing line' tried] at read
      cases read
    · omega
    · rw [split] at ordered
      have after_it := (List.pairwise_cons.1 (List.pairwise_append.1 ordered).2.1).1 line' untried
      omega
  · rintro ⟨x, first, rfl, rfl, rfl⟩
    let line := x.opening ++ .char '(' :: (x.receiver ++ (x.params ++ .char ')' :: x.after))
    have whole : x.source = x.before ++ line := by simp [line, Parse.source, Parse.upToEnd]
    obtain ⟨earlier, later, split⟩ := List.append_of_mem (mem_lineStarts_iff.2 ⟨x.before, first.lineStart, whole⟩)
    refine ⟨earlier, line, later, split, ?_, fun line' tried => ?_⟩
    · exact (at?_eq_some_iff word).2 ⟨_, _, _, first.opens, first.leavesOut, first.closes, rfl⟩
    · obtain ⟨before', lineStart', whole'⟩ :=
        mem_lineStarts_iff.1 (by rw [split]; exact List.mem_append_left _ tried : line' ∈ lineStarts x.source)
      rw [split] at ordered
      have longer := (List.pairwise_append.1 ordered).2.2 line' tried line List.mem_cons_self
      have shorter := (shorter_iff_longer (whole.symm.trans whole')).2 longer
      have nothing := first.earliest before' line' lineStart' whole' shorter
      rw [← at?_isSome_iff word, Option.not_isSome_iff_eq_none] at nothing
      exact nothing

theorem exists_first (word : IsWordText r) (found : (find? r source).isSome = true) :
    ∃ x : Parse, x.IsFirst r ∧ x.source = source := by
  obtain ⟨h, answer⟩ := Option.isSome_iff_exists.1 found
  obtain ⟨x, first, same, -⟩ := (find?_eq_some_iff word).1 answer
  exact ⟨x, first, same⟩

theorem render_found (body : Text) (name : Option Text) :
    (render r body (some source) name).found = (find? r source).isSome := by
  unfold render
  cases answer : findIn? r (some source) with
  | none =>
    change find? r source = none at answer
    rw [answer]
    rfl
  | some h =>
    change find? r source = some h at answer
    rw [answer]
    rfl

/-- What is shown of a source whose first header is known. -/
theorem Parse.IsFirst.render_eq {x : Parse} (first : x.IsFirst r) (word : IsWordText r) (body : Text)
    (name : Option Text) : render r body (some x.source) name =
      ⟨write (name.getD x.name) (trim x.params) body, some (name.getD x.name), true⟩ := by
  have answer : findIn? r (some x.source) = some ⟨x.name, x.params⟩ :=
    (find?_eq_some_iff word).2 ⟨x, first, rfl, rfl, rfl⟩
  rw [render, answer]

/-- What is shown where a search for the pattern of headers kept a name and parameters, or did not match. -/
def renderKept (body : Text) (name : Option Text) : Option (List Text) → Rendering (Option Text)
  | some [found, params] => ⟨write (name.getD found) (trim params) body, some (name.getD found), true⟩
  | _ => ⟨write (name.getD "") "" body, name, false⟩

theorem render_by_pattern (body : Text) (name : Option Text) :
    render r body (some source) name = renderKept body name ((pattern r).search source) := by
  rw [search_pattern]
  cases answer : find? r source with
  | none =>
    have none_found : findIn? r (some source) = none := answer
    rw [render, none_found]
    rfl
  | some h =>
    have found : findIn? r (some source) = some h := answer
    rw [render, found]
    rfl

/-- Headers are read by their grammar. For a receiver of word characters, a header is found just if some line starts
one; then the source has a parse, and in any parse of it the header is the one of the earliest such line. What is shown is
the name that the grammar gives, unless another one is given, and the parameters up to the first closing parenthesis,
without the receiver if they start with it, and trimmed. These are the texts that the backtracking pattern of headers
keeps where it first matches. -/
theorem header_read_by_grammar (word : IsWordText r) (body source : Text) (name : Option Text) :
    ((render r body (some source) name).found = true ↔
      ∃ before line, IsLineStart before ∧ source = before ++ line ∧ Starts line) ∧
    ((render r body (some source) name).found = true → ∃ x : Parse, x.IsFirst r ∧ x.source = source) ∧
    (∀ x : Parse, x.IsFirst r → x.source = source → render r body (some source) name =
      ⟨write (name.getD x.name) (trim x.params) body, some (name.getD x.name), true⟩) ∧
    render r body (some source) name = renderKept body name ((pattern r).search source) := by
  refine ⟨?_, fun found => ?_, ?_, render_by_pattern body name⟩
  · rw [render_found]
    exact find?_isSome_iff word
  · rw [render_found] at found
    exact exists_first word found
  · rintro x first rfl
    exact first.render_eq word body name

/-- A source in which the first line only looks like a header, and the second one leaves a receiver out with its
annotation. -/
theorem header_read_by_grammar_second_line : IsWordText "dis" ∧ ∃ x : Parse, x.IsFirst "dis" ∧
    x.source = ("def f\n async def g ($dis : T, a, b) -> (c)" : Text) ∧ x.name = "g" ∧ trim x.params = "a, b" := by
  have word : IsWordText "dis" := by decide
  obtain ⟨-, parsed, shown, -⟩ :=
    header_read_by_grammar word "hidden" "def f\n async def g ($dis : T, a, b) -> (c)" none
  have facts : (render "dis" "hidden" (some "def f\n async def g ($dis : T, a, b) -> (c)") none).found = true ∧
      (render "dis" "hidden" (some "def f\n async def g ($dis : T, a, b) -> (c)") none).name = some ("g" : Text) ∧
      (render "dis" "hidden" (some "def f\n async def g ($dis : T, a, b) -> (c)") none).text =
        write "g" "a, b" "hidden" := by
    decide +kernel
  obtain ⟨found, named, text⟩ := facts
  obtain ⟨x, first, same⟩ := parsed found
  rw [shown x first same] at named text
  have name_eq : x.name = "g" := Option.some.inj named
  change write x.name (trim x.params) "hidden" = write "g" "a, b" "hidden" at text
  rw [name_eq] at text
  exact ⟨word, x, first, same, name_eq, by simpa [write] using text⟩

end Sources

end Header
end Overlay
