import Overlay.Fault
import Overlay.Text.Blank
import Overlay.Text.Word

/-!
# Function headers

The text that a function shows for itself keeps its header and hides its body. `Header.find?` reads
the first header of a source text: at the start of some line, blanks, an optional `async`, one of
the two keywords, the name, and the parameters up to the first closing parenthesis. A parameter
list may start with the reserved receiver, with or without a dollar sign and with or without an
annotation; that parameter is left out. `Header.render` writes the header again with a placeholder
for the body, or a header without parameters when the source has none.
-/

namespace Overlay
set_option autoImplicit false

open Text (isBlank isWord isWordAt isBoundary trim)

/-- A recovered header: the name, and the parameters as they were written. -/
structure Header where
  name : Text
  params : Text
  deriving DecidableEq, Repr

namespace Header

/-- A space or a tab. -/
def isMargin (r : Rune) : Bool :=
  r == ' ' || r == '\t'

/-- The rest of a text after a given start. -/
def after? : Text → Text → Option Text
  | [], t => some t
  | _ :: _, [] => none
  | p :: ps, c :: t => if p == c then after? ps t else none

/-- Skips `async` and the spaces and tabs after it, if there is at least one of them. -/
def skipAsync (t : Text) : Text :=
  match after? "async" t with
  | some (c :: rest) => if isMargin c then rest.dropWhile isMargin else t
  | _ => t

/-- Skips one of the keywords, which no word character may follow. -/
def afterKeyword? (t : Text) : Option Text :=
  match (after? "function" t).orElse fun _ => after? "def" t with
  | some rest => if isWordAt rest.head? then none else some rest
  | none => none

/-- A character of a function's name. -/
def isNameChar (r : Rune) : Bool :=
  !isBlank r && r != '('

/-- Reads a line's header up to the opening parenthesis: the name and the text after it. -/
def opening? (line : Text) : Option (Text × Text) :=
  match afterKeyword? (skipAsync (line.dropWhile isMargin)) with
  | none => none
  | some rest =>
    let rest := rest.dropWhile isBlank
    match (rest.dropWhile isNameChar).dropWhile isBlank with
    | .char '(' :: params => some (rest.takeWhile isNameChar, params)
    | _ => none

/-- Skips an annotation: a colon and what follows it up to a comma or a closing parenthesis. -/
def skipTypeMark (t : Text) : Text :=
  match t with
  | .char ':' :: rest => rest.dropWhile fun c => c != ',' && c != ')'
  | _ => t

/-- Skips one comma. -/
def skipComma (t : Text) : Text :=
  match t with
  | .char ',' :: rest => rest
  | _ => t

/-- Skips the receiver `r` that starts right after `before`, with its annotation and its comma; a
word boundary has to end the receiver. -/
def afterReceiver? (r : Text) (before : Rune) (t : Text) : Option Text :=
  match after? r t with
  | none => none
  | some rest =>
    if isBoundary (some (r.getLast?.getD before)) rest.head? then
      some ((skipComma (skipTypeMark (rest.dropWhile isBlank))).dropWhile isBlank)
    else none

/-- The readings of a parameter list in the order in which they are tried: without a receiver that
a dollar sign precedes, without the plain receiver, and whole. -/
def readings (r : Text) (t : Text) : List Text :=
  (match t with
    | .char '$' :: rest => (afterReceiver? r '$' rest).toList
    | _ => []) ++
  (afterReceiver? r '(' t).toList ++ [t]

/-- The text up to the first closing parenthesis, if there is one. -/
def upToClose? (t : Text) : Option Text :=
  if t.contains (.char ')') then some (t.takeWhile (· != ')')) else none

/-- Reads a header at the start of a line. -/
def at? (r line : Text) : Option Header :=
  match opening? line with
  | none => none
  | some (name, rest) => ((readings r rest).findSome? upToClose?).map (Header.mk name)

/-- The rests of a text that start a line: the text itself and what follows each line feed. -/
def lineStarts (t : Text) : List Text :=
  t :: followers t
where
  /-- The rests after each line feed. -/
  followers : Text → List Text
    | [] => []
    | c :: rest => if c == '\n' then rest :: followers rest else followers rest

/-- The first header of a source text. -/
def find? (r source : Text) : Option Header :=
  (lineStarts source).findSome? (at? r)

/-- A header as it is shown, the name it goes by, and whether the source had one. -/
structure Rendering (ν : Type) where
  text : Text
  name : ν
  found : Bool

/-- A header and a hidden body. -/
def write (name params body : Text) : Text :=
  "function " ++ name ++ "(" ++ params ++ ") \x7b\n  " ++ body ++ "\n\x7d"

/-- The first header of a source text that may be missing. -/
def findIn? (receiver : Text) (source : Option Text) : Option Header :=
  find? receiver (source.getD "")

/-- Shows the header of `source` under the given name, or under the recovered one. -/
def render (receiver body : Text) (source name : Option Text) : Rendering (Option Text) :=
  match findIn? receiver source with
  | none => ⟨write (name.getD "") "" body, name, false⟩
  | some h =>
    let shown := name.getD h.name
    ⟨write shown (trim h.params) body, some shown, true⟩

/-- The source text that a datum is: none if it does not count as true, and a fault if it is no text. -/
def sourceOf {ρ : Type} (isTruthy : Datum ρ → Bool) (source : Datum ρ) : Except Fault (Option Text) :=
  match source with
  | .str s => .ok (some s)
  | d => if isTruthy d then .error .badCall else .ok none

/-- Shows the header of `source` under a name that may be any datum, `bare` being its text; null stands
for no name. Where no header is found, a name that does not count as true is not shown. -/
def renderAs {ρ : Type} (isTruthy : Datum ρ → Bool) (bare : Datum ρ → Except Fault Text)
    (receiver body : Text) (source : Option Text) (name : Datum ρ) :
    Except Fault (Rendering (Datum ρ)) := do
  if name.isNull then
    let r := render receiver body source none
    return ⟨r.text, r.name.elim .null .str, r.found⟩
  else
    let found := (findIn? receiver source).isSome
    let shown ← if found || isTruthy name then bare name else .ok ""
    let r := render receiver body source (some shown)
    return ⟨r.text, name, r.found⟩

/-- Shows a header when everything about it may be any datum: the receiver has to be a text, and the
body is shown as it is. -/
def renderData (receiver body source name : PlainDatum) : Except Fault (Rendering PlainDatum) :=
  match receiver with
  | .str r => do
    renderAs Datum.isTruthy (fun d => .ok d.bare) r body.bare (← sourceOf Datum.isTruthy source) name
  | _ => .error .badCall

end Header

end Overlay
