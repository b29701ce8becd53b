import Overlay.Header

/-!
# Headers by a backtracking pattern

A pattern is tried at a place of a text in one way after another: the alternatives in order, and a run of characters
with its farthest stop first. `Pattern.run` lists the places where these ways end, and the first of them counts. Headers
have a pattern (`Header.pattern`) with a run or an option in almost every part, and so with many ways through a text. The
reader of headers never goes back, and finds the same (`Header.search_pattern`): wherever a later part of the pattern
can go on from an earlier stop of a run, it can go on from the farthest (`Pattern.attempt_many`).
-/

namespace Overlay
set_option autoImplicit false

open Text (isBlank isWord isWordAt isBoundary)

/-- A pattern of texts. -/
inductive Pattern where
  | empty
  /-- The start of the text, or what follows a line feed. -/
  | lineStart
  /-- A word boundary. -/
  | boundary
  /-- One character of a class. -/
  | one (p : Rune → Bool)
  /-- Any number of characters of a class, as many as possible first. -/
  | many (p : Rune → Bool)
  | seq (a b : Pattern)
  /-- The first pattern, or else the second. -/
  | either (a b : Pattern)
  /-- A pattern whose text is kept. -/
  | group (a : Pattern)

namespace Pattern

/-- A place in a text: the character before it, the rest after it, and the texts that were kept on the way. -/
structure Cursor where
  last : Option Rune
  rest : Text
  groups : List Text

/-- The place with the text kept that lies between it and an earlier one. -/
def Cursor.keep (start c : Cursor) : Cursor :=
  { c with groups := c.groups ++ [start.rest.take (start.rest.length - c.rest.length)] }

/-- The stops of a run of characters of a class, the farthest first. -/
def stops (p : Rune → Bool) (groups : List Text) : Option Rune → Text → List Cursor
  | last, [] => [⟨last, [], groups⟩]
  | last, x :: t =>
    if p x then stops p groups (some x) t ++ [⟨last, x :: t, groups⟩] else [⟨last, x :: t, groups⟩]

/-- The places where the pattern can end, in the order in which they are tried. -/
def run : Pattern → Cursor → List Cursor
  | empty, c => [c]
  | lineStart, c => if c.last.all (· == .char '\n') then [c] else []
  | boundary, c => if isBoundary c.last c.rest.head? then [c] else []
  | one p, c =>
    match c.rest with
    | x :: t => if p x then [⟨some x, t, c.groups⟩] else []
    | [] => []
  | many p, c => stops p c.groups c.last c.rest
  | seq a b, c => (run a c).flatMap (run b)
  | either a b, c => run a c ++ run b c
  | group a, c => (run a c).map c.keep

/-- The texts that are kept where the pattern first ends, tried at each place of the text from left to right. -/
def searchFrom (a : Pattern) : Option Rune → Text → Option (List Text)
  | last, [] => (run a ⟨last, [], []⟩).head?.map (·.groups)
  | last, x :: t => ((run a ⟨last, x :: t, []⟩).head?.map (·.groups)).or (searchFrom a (some x) t)

def search (a : Pattern) (t : Text) : Option (List Text) :=
  searchFrom a none t

/-- One pattern after the other. -/
def all : List Pattern → Pattern
  | [] => empty
  | a :: rest => seq a (all rest)

/-- The pattern, or else nothing. -/
def optional (a : Pattern) : Pattern :=
  either a empty

/-- The text itself. -/
def word : Text → Pattern
  | [] => empty
  | x :: t => seq (one (· == x)) (word t)

/-! ## Attempts -/

section Attempts
variable {β : Type} {a b : Pattern} {k : Cursor → Option β} {c : Cursor} {p : Rune → Bool}

/-- What comes of the first end of the pattern from which the continuation succeeds. -/
def attempt (a : Pattern) (k : Cursor → Option β) (c : Cursor) : Option β :=
  (run a c).findSome? k

theorem findSome?_flatMap {α γ : Type} (l : List α) (f : α → List γ) (g : γ → Option β) :
    (l.flatMap f).findSome? g = l.findSome? fun x => (f x).findSome? g := by
  induction l with
  | nil => rfl
  | cons x l ih =>
    rw [List.flatMap_cons, List.findSome?_append, ih, List.findSome?_cons]
    cases (f x).findSome? g <;> rfl

theorem head?_run (a : Pattern) (c : Cursor) :
    (run a c).head?.map (·.groups) = attempt a (fun d => some d.groups) c := by
  rw [attempt]
  cases run a c with
  | nil => rfl
  | cons d rest => rfl

@[simp] theorem attempt_empty (k : Cursor → Option β) : attempt empty k = k := by
  funext c
  rw [attempt, run, List.findSome?_singleton]

@[simp] theorem attempt_seq (a b : Pattern) (k : Cursor → Option β) :
    attempt (seq a b) k = attempt a (attempt b k) := by
  funext c
  rw [attempt, run, findSome?_flatMap]
  rfl

@[simp] theorem attempt_all_nil (k : Cursor → Option β) : attempt (all []) k = k :=
  attempt_empty k

@[simp] theorem attempt_all_cons (a : Pattern) (rest : List Pattern) (k : Cursor → Option β) :
    attempt (all (a :: rest)) k = attempt a (attempt (all rest) k) :=
  attempt_seq a (all rest) k

@[simp] theorem attempt_either (a b : Pattern) (k : Cursor → Option β) (c : Cursor) :
    attempt (either a b) k c = (attempt a k c).or (attempt b k c) := by
  rw [attempt, run, List.findSome?_append]
  rfl

@[simp] theorem attempt_optional (a : Pattern) (k : Cursor → Option β) (c : Cursor) :
    attempt (optional a) k c = (attempt a k c).or (k c) := by
  rw [optional, attempt_either, attempt_empty]

@[simp] theorem attempt_group (a : Pattern) (k : Cursor → Option β) (c : Cursor) :
    attempt (group a) k c = attempt a (fun d => k (c.keep d)) c := by
  rw [attempt, run, List.findSome?_map]
  rfl

@[simp] theorem attempt_lineStart (k : Cursor → Option β) (c : Cursor) :
    attempt lineStart k c = if c.last.all (· == .char '\n') then k c else none := by
  rw [attempt, run]
  split <;> simp

@[simp] theorem attempt_boundary (k : Cursor → Option β) (c : Cursor) :
    attempt boundary k c = if isBoundary c.last c.rest.head? then k c else none := by
  rw [attempt, run]
  split <;> simp

@[simp] theorem attempt_one_nil (p : Rune → Bool) (k : Cursor → Option β) (last : Option Rune) (groups : List Text) :
    attempt (one p) k ⟨last, [], groups⟩ = none := rfl

@[simp] theorem attempt_one_cons (p : Rune → Bool) (k : Cursor → Option β) (last : Option Rune) (x : Rune) (t : Text)
    (groups : List Text) :
    attempt (one p) k ⟨last, x :: t, groups⟩ = if p x then k ⟨some x, t, groups⟩ else none := by
  rw [attempt, run]
  dsimp only
  split <;> simp

/-- A text is matched by itself. -/
theorem attempt_word (s : Text) (k : Cursor → Option β) (last : Option Rune) (t : Text) (groups : List Text) :
    attempt (word s) k ⟨last, t, groups⟩ = (Header.after? s t).bind fun rest => k ⟨s.getLast?.or last, rest, groups⟩ := by
  induction s generalizing last t with
  | nil => simp [word, Header.after?]
  | cons x s ih =>
    rw [word, attempt_seq]
    cases t with
    | nil => rfl
    | cons y t =>
      rw [attempt_one_cons, Header.after?, ih]
      by_cases same : x = y
      · subst same
        have ends : s.getLast?.or (some x) = (x :: s).getLast?.or last := by
          rw [List.getLast?_cons]
          cases s.getLast? <;> rfl
        simp [ends]
      · simp [same, Ne.symm same]

/-! ## Runs of characters -/

/-- The place after all the characters of a class that follow. -/
def Cursor.skip (p : Rune → Bool) (c : Cursor) : Cursor :=
  ⟨(c.rest.takeWhile p).getLast?.or c.last, c.rest.dropWhile p, c.groups⟩

/-- A run goes to its farthest stop, if the continuation goes on from there whenever it goes on from an earlier one. -/
theorem attempt_many (farthest : ∀ last x t groups, p x = true → (k ⟨last, x :: t, groups⟩).isSome = true →
      (k (Cursor.skip p ⟨last, x :: t, groups⟩)).isSome = true) (c : Cursor) :
    attempt (many p) k c = k (c.skip p) := by
  obtain ⟨last, t, groups⟩ := c
  rw [attempt, run]
  dsimp only
  induction t generalizing last with
  | nil => simp [stops, Cursor.skip]
  | cons x t ih =>
    by_cases inside : p x = true
    · have same : Cursor.skip p ⟨some x, t, groups⟩ = Cursor.skip p ⟨last, x :: t, groups⟩ := by
        simp only [Cursor.skip, List.takeWhile_cons_of_pos inside, List.dropWhile_cons_of_pos inside, List.getLast?_cons]
        cases (t.takeWhile p).getLast? <;> rfl
      rw [stops, if_pos inside, List.findSome?_append, ih, same, List.findSome?_singleton]
      -- an earlier stop counts only where the farthest fails, and then it fails too
      cases reached : k (Cursor.skip p ⟨last, x :: t, groups⟩) with
      | some y => rfl
      | none =>
        cases stopped : k ⟨last, x :: t, groups⟩ with
        | none => rfl
        | some y =>
          have further := farthest last x t groups inside (by rw [stopped]; rfl)
          rw [reached] at further
          cases further
    · have skipped : Cursor.skip p ⟨last, x :: t, groups⟩ = ⟨last, x :: t, groups⟩ := by
        simp [Cursor.skip, inside]
      rw [stops, if_neg inside, List.findSome?_singleton, skipped]

/-- A run goes to its farthest stop, if the continuation fails at every earlier one. -/
theorem attempt_many_of_fails (fails : ∀ last x t groups, p x = true → k ⟨last, x :: t, groups⟩ = none) (c : Cursor) :
    attempt (many p) k c = k (c.skip p) := by
  apply attempt_many
  intro last x t groups inside goes_on
  rw [fails last x t groups inside] at goes_on
  cases goes_on

theorem keep_skip (p : Rune → Bool) (c : Cursor) :
    c.keep (c.skip p) = { c.skip p with groups := c.groups ++ [c.rest.takeWhile p] } := by
  have parts : c.rest.takeWhile p ++ c.rest.dropWhile p = c.rest := List.takeWhile_append_dropWhile
  have kept : c.rest.take (c.rest.length - (c.rest.dropWhile p).length) = c.rest.takeWhile p := by
    have length := congrArg List.length parts
    rw [List.length_append] at length
    have upTo : c.rest.length - (c.rest.dropWhile p).length = (c.rest.takeWhile p).length := by omega
    calc c.rest.take (c.rest.length - (c.rest.dropWhile p).length)
        = (c.rest.takeWhile p ++ c.rest.dropWhile p).take (c.rest.takeWhile p).length := by rw [parts, upTo]
      _ = c.rest.takeWhile p := List.take_left
  rw [Cursor.keep, Cursor.skip, kept]

end Attempts

end Pattern

/-! ## The pattern of headers -/

namespace Header
open Pattern

/-- The pattern of an annotation: a colon, and what follows it up to a comma or a closing parenthesis. -/
def typeMarkPattern : Pattern :=
  all [one (· == ':'), many fun c => c != ',' && c != ')']

/-- The pattern of a receiver that is left out: a dollar sign may precede it, a word boundary has to end it, and an
annotation and a comma may follow. -/
def receiverPattern (r : Text) : Pattern :=
  all [optional (one (· == '$')), word r, boundary, many isBlank, optional typeMarkPattern, optional (one (· == ',')),
    many isBlank]

/-- The pattern of headers with the receiver `r`. It keeps the name and the parameters. -/
def pattern (r : Text) : Pattern :=
  all [lineStart, many isMargin, optional (all [word "async", one isMargin, many isMargin]),
    either (word "function") (word "def"), boundary, many isBlank, group (many isNameChar), many isBlank,
    one (· == '('), optional (receiverPattern r), group (many (· != ')')), one (· == ')')]

/-! ## After the opening parenthesis -/

section Attempts
variable {β : Type}

/-- The continuation that looks at the rest of the text and at what was kept, and not at the character before. -/
def onward (go : Text → List Text → Option β) (c : Cursor) : Option β :=
  go c.rest c.groups

variable {go : Text → List Text → Option β} {p : Rune → Bool}

/-- What comes next goes on just where a closing parenthesis follows. -/
def Closes (go : Text → List Text → Option β) : Prop :=
  ∀ t groups, (go t groups).isSome = true ↔ .char ')' ∈ t

theorem mem_dropWhile_iff (closing : p (.char ')') = false) (t : Text) :
    .char ')' ∈ t.dropWhile p ↔ .char ')' ∈ t := by
  induction t with
  | nil => rfl
  | cons x t ih =>
    by_cases inside : p x = true
    · have other : .char ')' ≠ x := by
        rintro rfl
        rw [closing] at inside
        cases inside
      rw [List.dropWhile_cons_of_pos inside, ih, List.mem_cons]
      simp [other]
    · rw [List.dropWhile_cons_of_neg inside]

/-- A run without closing parentheses goes to its farthest stop. -/
theorem Closes.many (closes : Closes go) (closing : p (.char ')') = false) :
    attempt (.many p) (onward go) = onward (fun t groups => go (t.dropWhile p) groups) ∧
      Closes fun t groups => go (t.dropWhile p) groups := by
  have still (t : Text) (groups : List Text) : (go (t.dropWhile p) groups).isSome = true ↔ .char ')' ∈ t := by
    rw [closes, mem_dropWhile_iff closing]
  refine ⟨funext fun c => attempt_many (fun last x t groups _ goes_on => ?_) c, still⟩
  apply (still (x :: t) groups).2
  exact (closes (x :: t) groups).1 goes_on

/-- The first of two attempts counts, if the second succeeds nowhere else. -/
theorem or_of_closes (closes : Closes go) {t u : Text} (same : .char ')' ∈ u ↔ .char ')' ∈ t) (groups : List Text) :
    (go u groups).or (go t groups) = go u groups := by
  cases first : go u groups with
  | some y => rfl
  | none =>
    have neither : go t groups = none := by
      rw [← Option.not_isSome_iff_eq_none, closes, ← same, ← closes u groups, first]
      simp
    rw [neither]
    rfl

/-- An optional part that starts with one character is skipped where that character is there. -/
theorem Closes.option {a : Pattern} {skip : Text → Text} (closes : Closes go) (x : Rune)
    (same : ∀ t, .char ')' ∈ skip t ↔ .char ')' ∈ t)
    (tried : ∀ last t groups, attempt a (onward go) ⟨last, x :: t, groups⟩ = go (skip (x :: t)) groups)
    (fails : ∀ last t groups, t.head? ≠ some x → attempt a (onward go) ⟨last, t, groups⟩ = none)
    (unskipped : ∀ t, t.head? ≠ some x → skip t = t) :
    attempt (optional a) (onward go) = onward (fun t groups => go (skip t) groups) ∧
      Closes fun t groups => go (skip t) groups := by
  refine ⟨funext fun c => ?_, fun t groups => by rw [closes, same]⟩
  obtain ⟨last, t, groups⟩ := c
  rw [attempt_optional]
  by_cases there : t.head? = some x
  · obtain ⟨u, rfl⟩ := List.head?_eq_some_iff.1 there
    rw [tried]
    exact or_of_closes closes (same (x :: u)) groups
  · rw [fails last t groups there, Option.none_or, onward, onward]
    exact congrArg (go · groups) (unskipped t there).symm

/-- A character that does not come next cannot be taken. -/
theorem attempt_one_other {x : Rune} (k : Cursor → Option β) (last : Option Rune) {t : Text} (groups : List Text)
    (other : t.head? ≠ some x) : attempt (one (· == x)) k ⟨last, t, groups⟩ = none := by
  cases t with
  | nil => rfl
  | cons y t =>
    have apart : y ≠ x := fun same => other (by rw [same]; rfl)
    rw [attempt_one_cons, if_neg (by simpa using apart)]

/-- A comma is skipped where there is one. -/
theorem Closes.comma (closes : Closes go) :
    attempt (optional (one (· == ','))) (onward go) = onward (fun t groups => go (skipComma t) groups) ∧
      Closes fun t groups => go (skipComma t) groups := by
  apply closes.option (.char ',')
  · intro t
    unfold skipComma
    split <;> simp
  · intro last t groups
    rw [attempt_one_cons, if_pos (by decide)]
    rfl
  · intro last t groups other
    exact attempt_one_other _ last groups other
  · intro t other
    unfold skipComma
    split
    · exact absurd rfl other
    · rfl

/-- An annotation is skipped where there is one. -/
theorem Closes.typeMark (closes : Closes go) :
    attempt (optional typeMarkPattern) (onward go) = onward (fun t groups => go (skipTypeMark t) groups) ∧
      Closes fun t groups => go (skipTypeMark t) groups := by
  have closing : (fun c : Rune => c != ',' && c != ')') (.char ')') = false := by decide
  have marked (k : Cursor → Option β) (c : Cursor) : attempt typeMarkPattern k c =
      attempt (one (· == ':')) (attempt (.many fun c => c != ',' && c != ')') k) c := by
    rw [typeMarkPattern, attempt_all_cons, attempt_all_cons, attempt_all_nil]
  apply closes.option (.char ':')
  · intro t
    unfold skipTypeMark
    split
    · rw [mem_dropWhile_iff closing]
      simp
    · rfl
  · intro last t groups
    rw [marked, (closes.many closing).1, attempt_one_cons, if_pos (by decide)]
    rfl
  · intro last t groups other
    rw [marked]
    exact attempt_one_other _ last groups other
  · intro t other
    unfold skipTypeMark
    split
    · exact absurd rfl other
    · rfl

/-- What follows the receiver is skipped. -/
theorem attempt_afterReceiver (closes : Closes go) (c : Cursor) :
    attempt (all [many isBlank, optional typeMarkPattern, optional (one (· == ',')), many isBlank]) (onward go) c =
      go ((skipComma (skipTypeMark (c.rest.dropWhile isBlank))).dropWhile isBlank) c.groups := by
  have closing : isBlank (.char ')') = false := by decide
  obtain ⟨space, closes⟩ := closes.many closing
  obtain ⟨comma, closes⟩ := closes.comma
  obtain ⟨mark, closes⟩ := closes.typeMark
  obtain ⟨gap, -⟩ := closes.many closing
  simp only [attempt_all_cons, attempt_all_nil, space, comma, mark, gap]
  rfl

/-- A receiver and what follows it are skipped, where a word boundary ends the receiver. -/
theorem attempt_receiver (closes : Closes go) (r : Text) (before : Rune) (t : Text) (groups : List Text) :
    attempt (all [word r, boundary, many isBlank, optional typeMarkPattern, optional (one (· == ',')), many isBlank])
      (onward go) ⟨some before, t, groups⟩ = (afterReceiver? r before t).bind fun u => go u groups := by
  have last : r.getLast?.or (some before) = some (r.getLast?.getD before) := by
    cases r.getLast? <;> rfl
  rw [attempt_all_cons, attempt_word, afterReceiver?]
  cases after? r t with
  | none => rfl
  | some rest =>
    rw [Option.bind_some, attempt_all_cons, attempt_boundary, attempt_afterReceiver closes, last]
    dsimp only
    split <;> rfl

/-- The readings of a parameter list are tried in order. -/
theorem attempt_readings (closes : Closes go) (r t : Text) (groups : List Text) :
    attempt (optional (receiverPattern r)) (onward go) ⟨some (.char '('), t, groups⟩ =
      (readings r t).findSome? fun u => go u groups := by
  have given (u? : Option Text) : u?.toList.findSome? (fun u => go u groups) = u?.bind fun u => go u groups := by
    cases u? with
    | none => rfl
    | some u => exact List.findSome?_singleton
  rw [attempt_optional, receiverPattern, attempt_all_cons, attempt_optional, attempt_receiver closes]
  unfold readings
  rw [List.findSome?_append, List.findSome?_append, given, List.findSome?_singleton]
  refine congrArg (fun first : Option β => (first.or _).or _) ?_
  cases t with
  | nil => rfl
  | cons x t =>
    rw [attempt_one_cons]
    by_cases dollar : x = .char '$'
    · subst dollar
      rw [if_pos (by decide), attempt_receiver closes]
      exact (given _).symm
    · rw [if_neg (by simpa using dollar)]
      split
      · next rest here => exact absurd (List.cons.inj here).1 dollar
      · rfl

/-- The parameters are kept, up to the first closing parenthesis. -/
theorem attempt_params :
    attempt (group (many (· != .char ')'))) (attempt (one (· == .char ')')) fun d => some d.groups) =
      onward fun t groups => (upToClose? t).map fun params => groups ++ [params] := by
  funext c
  rw [attempt_group, attempt_many_of_fails]
  · rw [keep_skip, onward, upToClose?]
    have closed := mem_dropWhile_iff (p := (· != .char ')')) (by decide) c.rest
    dsimp only [Cursor.skip]
    cases left : c.rest.dropWhile (· != .char ')') with
    | nil =>
      rw [left] at closed
      have unclosed : c.rest.contains (.char ')') = false := by
        simpa using closed
      rw [attempt_one_nil, unclosed]
      rfl
    | cons x t =>
      have close : x = .char ')' := by
        have stop := List.head?_dropWhile_not (· != .char ')') c.rest
        rw [left] at stop
        simpa using stop
      rw [left, close] at closed
      have there : c.rest.contains (.char ')') = true := by
        simpa using closed
      rw [close, attempt_one_cons, if_pos (by decide), there]
      rfl
  · intro last x t groups inside
    have other : (x == .char ')') = false := by simpa using inside
    rw [Cursor.keep, attempt_one_cons, other]
    rfl

theorem closes_params :
    Closes fun t (groups : List Text) => (upToClose? t).map fun params => groups ++ [params] := by
  intro t groups
  rw [Option.isSome_map, upToClose?]
  by_cases closed : .char ')' ∈ t
  · simp [closed]
  · simp [closed]

/-! ## Before the opening parenthesis -/

/-- What comes next, from an opening parenthesis on. -/
def fromParen (k : Text → List Text → Option β) (t : Text) (groups : List Text) : Option β :=
  match t with
  | .char '(' :: inner => k inner groups
  | _ => none

theorem fromParen_none {k : Text → List Text → Option β} {t : Text} (other : ∀ inner, t ≠ .char '(' :: inner)
    (groups : List Text) : fromParen k t groups = none := by
  unfold fromParen
  split
  · next inner => exact absurd rfl (other inner)
  · rfl

theorem fromParen_other {k : Text → List Text → Option β} {x : Rune} (other : x ≠ .char '(') (t : Text)
    (groups : List Text) : fromParen k (x :: t) groups = none :=
  fromParen_none (fun _ same => other (List.cons.inj same).1) groups

theorem exists_of_fromParen {k : Text → List Text → Option β} {t : Text} {groups : List Text}
    (goes_on : (fromParen k t groups).isSome = true) : ∃ inner, t = .char '(' :: inner := by
  unfold fromParen at goes_on
  split at goes_on
  · exact ⟨_, rfl⟩
  · cases goes_on

/-- What comes next, from the name on. -/
def fromName (k : Text → List Text → Option β) (t : Text) (groups : List Text) : Option β :=
  fromParen k ((t.dropWhile isNameChar).dropWhile isBlank) (groups ++ [t.takeWhile isNameChar])

variable {k : Text → List Text → Option β}

theorem attempt_paren {next : Cursor → Option β}
    (same : ∀ t groups, next ⟨some (.char '('), t, groups⟩ = k t groups) :
    attempt (one (· == .char '(')) next = onward (fromParen k) := by
  funext c
  obtain ⟨last, t, groups⟩ := c
  cases t with
  | nil => rfl
  | cons x t =>
    rw [attempt_one_cons, onward]
    by_cases paren : x = .char '('
    · subst paren
      exact same t groups
    · rw [fromParen_other paren, if_neg (by simpa using paren)]

/-- White space before the parenthesis is skipped: the parenthesis is none. -/
theorem attempt_space : attempt (many isBlank) (onward (fromParen k)) =
    onward fun t groups => fromParen k (t.dropWhile isBlank) groups := by
  funext c
  apply attempt_many_of_fails
  intro last x t groups blank
  apply fromParen_other
  rintro rfl
  exact absurd blank (by decide)

/-- A name is taken whole: a part of it would have to be followed by white space or by the parenthesis. -/
theorem attempt_name : attempt (group (many isNameChar))
    (onward fun t groups => fromParen k (t.dropWhile isBlank) groups) = onward (fromName k) := by
  funext c
  rw [attempt_group, attempt_many_of_fails]
  · rw [keep_skip]
    rfl
  · intro last x t groups inside
    simp only [isNameChar, Bool.and_eq_true, Bool.not_eq_true', bne_iff_ne, ne_eq] at inside
    rw [onward, Cursor.keep, List.dropWhile_cons_of_neg (by simp [inside.1])]
    exact fromParen_other inside.2 t _

/-- White space before the name is skipped. Less of it can be skipped only where there is no name, and then all of it
can. -/
theorem attempt_gap : attempt (many isBlank) (onward (fromName k)) =
    onward fun t groups => fromName k (t.dropWhile isBlank) groups := by
  funext c
  apply attempt_many
  intro last x t groups blank goes_on
  have unnamed : isNameChar x = false := by simp [isNameChar, blank]
  have whole : (x :: t).dropWhile isNameChar = x :: t := List.dropWhile_cons_of_neg (by simp [unnamed])
  rw [onward, fromName, whole] at goes_on
  obtain ⟨inner, paren⟩ := exists_of_fromParen goes_on
  have untaken : (x :: t).takeWhile isNameChar = [] := List.takeWhile_cons_of_neg (by simp [unnamed])
  rw [paren, untaken] at goes_on
  rw [onward, fromName, Cursor.skip]
  dsimp only
  rw [paren]
  exact goes_on

/-- After a keyword a word boundary is that no word character follows. -/
theorem attempt_ends {x : Rune} (word : isWord x = true) (go : Text → List Text → Option β) (t : Text)
    (groups : List Text) : attempt boundary (onward go) ⟨some x, t, groups⟩ =
      if isWordAt t.head? then none else go t groups := by
  have here : isWordAt (some x) = true := word
  rw [attempt_boundary, isBoundary, here]
  cases isWordAt t.head? <;> rfl

theorem after?_other {x y : Rune} (other : y ≠ x) (s t : Text) : after? (x :: s) (y :: t) = none :=
  if_neg fun same => other (beq_iff_eq.1 same).symm

theorem exists_of_after? {x : Rune} {s t rest : Text} (read : after? (x :: s) t = some rest) :
    ∃ u, t = x :: u := by
  cases t with
  | nil => cases read
  | cons y u =>
    by_cases same : y = x
    · exact ⟨u, by rw [same]⟩
    · cases (after?_other same s u).symm.trans read

/-- A text that starts with neither keyword. -/
theorem afterKeyword?_other {x : Rune} (first : x ≠ .char 'f') (second : x ≠ .char 'd') (t : Text) :
    afterKeyword? (x :: t) = none := by
  have long : after? "function" (x :: t) = none := after?_other first _ t
  have short : after? "def" (x :: t) = none := after?_other second _ t
  rw [afterKeyword?, long, short]
  rfl

/-- At most one of the keywords is there. -/
theorem attempt_keyword (go : Text → List Text → Option β) :
    attempt (either (word "function") (word "def")) (attempt boundary (onward go)) =
      onward fun t groups => (afterKeyword? t).bind fun rest => go rest groups := by
  funext c
  obtain ⟨last, t, groups⟩ := c
  have ends (x : Rune) (isWord : isWord x = true) (rest : Text) :
      attempt boundary (onward go) ⟨some x, rest, groups⟩ =
        (if isWordAt rest.head? then none else some rest).bind fun rest => go rest groups := by
    rw [attempt_ends isWord]
    split <;> rfl
  rw [attempt_either, attempt_word, attempt_word, onward, afterKeyword?]
  cases long : after? "function" t with
  | some rest =>
    have short : after? "def" t = none := by
      obtain ⟨u, rfl⟩ := exists_of_after? long
      exact after?_other (by decide) _ u
    rw [short, Option.bind_none, Option.or_none, Option.bind_some]
    exact ends (.char 'n') (by decide) rest
  | none =>
    rw [Option.bind_none, Option.none_or]
    cases after? "def" t with
    | none => rfl
    | some rest => exact ends (.char 'f') (by decide) rest

/-- The continuation fails where the text starts with a space or a tab. -/
theorem keyword_margin (go : Text → List Text → Option β) {x : Rune} (margin : isMargin x = true) (t : Text)
    (groups : List Text) : ((afterKeyword? (x :: t)).bind fun rest => go rest groups) = none := by
  rw [afterKeyword?_other, Option.bind_none]
  · rintro rfl
    exact absurd margin (by decide)
  · rintro rfl
    exact absurd margin (by decide)

/-- The word `async` is skipped where it is there, since it is no keyword. -/
theorem attempt_async (go : Text → List Text → Option β) :
    attempt (optional (all [word "async", one isMargin, many isMargin]))
      (onward fun t groups => (afterKeyword? t).bind fun rest => go rest groups) =
      onward fun t groups => (afterKeyword? (skipAsync t)).bind fun rest => go rest groups := by
  have run : attempt (many isMargin) (onward fun t groups => (afterKeyword? t).bind fun rest => go rest groups) =
      onward fun t groups => (afterKeyword? (t.dropWhile isMargin)).bind fun rest => go rest groups := by
    funext c
    apply attempt_many_of_fails
    intro last x t groups margin
    exact keyword_margin go margin t groups
  funext c
  obtain ⟨last, t, groups⟩ := c
  simp only [attempt_optional, attempt_all_cons, attempt_all_nil, run, attempt_word]
  rw [onward, onward, skipAsync]
  cases read : after? "async" t with
  | none => rfl
  | some rest =>
    rw [Option.bind_some]
    cases rest with
    | nil => rfl
    | cons x rest =>
      rw [attempt_one_cons]
      by_cases margin : isMargin x = true
      · have no_keyword : afterKeyword? t = none := by
          obtain ⟨u, rfl⟩ := exists_of_after? read
          exact afterKeyword?_other (by decide) (by decide) u
        rw [no_keyword, Option.bind_none, Option.or_none, if_pos margin]
        simp only [margin, if_true]
        rfl
      · simp [margin]

/-- The margin is skipped. -/
theorem attempt_margin (go : Text → List Text → Option β) :
    attempt (many isMargin) (onward fun t groups => (afterKeyword? (skipAsync t)).bind fun rest => go rest groups) =
      onward fun t groups => (afterKeyword? (skipAsync (t.dropWhile isMargin))).bind fun rest => go rest groups := by
  funext c
  apply attempt_many_of_fails
  intro last x t groups margin
  have other : x ≠ .char 'a' := by
    rintro rfl
    exact absurd margin (by decide)
  have unskipped : skipAsync (x :: t) = x :: t := by
    have none_there : after? "async" (x :: t) = none := after?_other other _ t
    rw [skipAsync, none_there]
  rw [onward, unskipped]
  exact keyword_margin go margin t groups

end Attempts

/-! ## The first header -/

section Search
variable (r : Text)

/-- The texts that the pattern keeps of a header. -/
def kept (h : Header) : List Text :=
  [h.name, h.params]

/-- What the reader of openings reads, before it goes on. -/
theorem bind_opening? {β : Type} (k : Text → List Text → Option β) (line : Text) (groups : List Text) :
    ((afterKeyword? (skipAsync (line.dropWhile isMargin))).bind fun rest => fromName k (rest.dropWhile isBlank) groups) =
      (opening? line).bind fun read => k read.2 (groups ++ [read.1]) := by
  unfold opening?
  cases afterKeyword? (skipAsync (line.dropWhile isMargin)) with
  | none => rfl
  | some rest =>
    rw [Option.bind_some, fromName]
    dsimp only
    split
    · next inner paren =>
      rw [paren]
      rfl
    · next other => exact fromParen_none other _

/-- At the start of a line the pattern keeps what the reader reads, and elsewhere it fails. -/
theorem attempt_pattern (last : Option Rune) (t : Text) :
    attempt (pattern r) (fun d => some d.groups) ⟨last, t, []⟩ =
      if last.all (· == .char '\n') then (at? r t).map kept else none := by
  have readings_tried (t : Text) (groups : List Text) := attempt_readings closes_params r t groups
  simp only [pattern, attempt_all_cons, attempt_all_nil, attempt_params, attempt_paren readings_tried, attempt_space,
    attempt_name, attempt_gap, attempt_keyword, attempt_async, attempt_margin, attempt_lineStart]
  refine congrArg (if last.all (· == .char '\n') then · else none) ?_
  rw [onward, bind_opening?, at?]
  cases opening? t with
  | none => rfl
  | some read =>
    rw [Option.bind_some]
    dsimp only
    induction readings r read.2 with
    | nil => rfl
    | cons u rest ih =>
      rw [List.findSome?_cons, List.findSome?_cons]
      cases upToClose? u with
      | none => exact ih
      | some params => rfl

/-- From a place on, the pattern is tried with success only at line starts. -/
theorem searchFrom_pattern (last : Option Rune) (t : Text) :
    searchFrom (pattern r) last t =
      ((if last.all (· == .char '\n') then t :: lineStarts.followers t else lineStarts.followers t).findSome?
        (at? r)).map kept := by
  induction t generalizing last with
  | nil =>
    rw [searchFrom, head?_run, attempt_pattern]
    split
    · rw [lineStarts.followers, List.findSome?_singleton]
    · rfl
  | cons x t ih =>
    have further : searchFrom (pattern r) (some x) t = ((lineStarts.followers (x :: t)).findSome? (at? r)).map kept :=
      ih (some x)
    rw [searchFrom, head?_run, attempt_pattern, further]
    split
    · rw [List.findSome?_cons]
      cases at? r (x :: t) <;> rfl
    · rfl

/-- The reader finds what a search for the pattern finds. -/
theorem search_pattern (source : Text) : search (pattern r) source = (find? r source).map kept :=
  searchFrom_pattern r none source

end Search

end Header

end Overlay
