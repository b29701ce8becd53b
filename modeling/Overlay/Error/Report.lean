import Overlay.Error.Code

/-!
# Error reports

A message holds a code, a text, labelled notes and a hint, and `Message.format` writes them one to
a line. What is given as a text may be any datum: it is written inside the line, and it counts as
missing when it does not count as true. A report is a message of a certain kind with what the kind
records besides. `Report.make?` builds a report from named fields: a kind fixes some fields, requires
one and refuses those that it fixes itself or does not have.
-/

namespace Overlay.Error
set_option autoImplicit false

/-- Context that is attached to an error. -/
structure Note where
  message : PlainDatum
  label : PlainDatum := .str "note"

/-- A complete error message. -/
structure Message where
  code : Code
  message : PlainDatum
  notes : List Note := []
  hint : PlainDatum := .str ""

/-- The line of a note. -/
def Note.line (n : Note) : Text :=
  "  " ++ n.label.bare ++ ": " ++ n.message.bare

/-- The lines of a message: code and text, each note, and the hint if there is one. -/
def Message.lines (m : Message) : List Text :=
  (m.code.text ++ ": " ++ m.message.bare) :: m.notes.map Note.line ++
    (if m.hint.isTruthy then ["  hint: " ++ m.hint.bare] else [])

/-- The text of a message. -/
def Message.format (m : Message) : Text :=
  Text.join "\n" m.lines

/-- The kinds of failure. -/
inductive Kind where
  /-- A failure of no special kind. -/
  | general
  /-- A value of the wrong type. -/
  | type
  /-- A callable was required. -/
  | notCallable
  /-- A frozen object was to be changed. -/
  | frozen
  /-- A name that cannot be reached. -/
  | reference
  /-- Settings or options that are wrong. -/
  | configuration
  /-- A broken invariant. -/
  | internal
  deriving DecidableEq, Repr

namespace Kind

/-- The kinds, in order. -/
def all : List Kind :=
  [.general, .type, .notCallable, .frozen, .reference, .configuration, .internal]

/-- The kind that a kind is a special case of. -/
def parent? : Kind → Option Kind
  | .general => none
  | .notCallable | .frozen => some .type
  | _ => some .general

/-- A failure of kind `k` is also one of kind `j`. -/
def isA (k j : Kind) : Bool :=
  j == .general || k == j || k.parent? == some j

/-- The code of a failure of this kind when none is given. -/
def code : Kind → Code
  | .type => .ofCategory .typeViolation
  | .notCallable => .ofCategory .notCallable
  | .frozen => .ofCategory .frozenObject
  | .reference => .ofCategory .undefinedName
  | .configuration => .ofCategory .badOption
  | .general | .internal => .ofCategory .internalError

end Kind

/-- A failure that the library reports. -/
structure Report where
  kind : Kind
  message : Message
  /-- The expected and the actual type, for type failures. -/
  types : Option (PlainDatum × PlainDatum) := none
  /-- The name that the failure is about, where there is one. -/
  name : Option PlainDatum := none

namespace Report

/-- The text of a report. -/
def text (r : Report) : Text :=
  r.message.format

/-- A report with one more note. -/
def addNote (r : Report) (n : Note) : Report :=
  { r with message := { r.message with notes := r.message.notes ++ [n] } }

/-- A report with another hint. -/
def withHint (r : Report) (hint : PlainDatum) : Report :=
  { r with message := { r.message with hint := hint } }

/-- The notes on the expected and the actual type, when both are known. -/
def typeNotes (expected actual : PlainDatum) : List Note :=
  if expected.isTruthy && actual.isTruthy then
    [{ message := .str ("Expected type: " ++ expected.bare) },
      { message := .str ("Actual type: " ++ actual.bare) }]
  else []

/-- A type failure with its notes on types. -/
def ofType (kind : Kind) (code : Code) (message expected actual : PlainDatum) (notes : List Note)
    (hint : PlainDatum) : Report :=
  { kind := kind
    message := ⟨code, message, notes ++ typeNotes expected actual, hint⟩
    types := some (expected, actual) }

/-- A type failure with nothing but a code, a message and types. -/
def typeFailure (code : Category) (message expected actual : Text) : Report :=
  ofType .type (.ofCategory code) (.str message) (.str expected) (.str actual) [] (.str "")

/-- A callable was required, and `what` is something else. -/
def notCallable (what : Text) (actual : PlainDatum) (notes : List Note) (hint : PlainDatum) : Report :=
  ofType .notCallable Kind.notCallable.code (.str (what ++ " is not a function")) (.str "function")
    actual notes hint

/-- The hint that goes with every refusal to change a frozen object. -/
def frozenHint : Text :=
  "Patch the value seen through the runtime's read/set, not the frozen original"

/-- A property of a frozen object was to be changed. -/
def frozen (action : Text) (name expected actual : PlainDatum) (notes : List Note) : Report :=
  { ofType .frozen Kind.frozen.code
      (.str ("cannot " ++ action ++ " property '" ++ name.bare ++ "' of a frozen object"))
      expected actual notes (.str frozenHint) with
    name := some name }

/-- A name that cannot be reached. -/
def reference (name : PlainDatum) (notes : List Note) (hint : PlainDatum) : Report :=
  { kind := .reference
    message := ⟨Kind.reference.code, .str ("not found: " ++ name.bare), notes, hint⟩
    name := some name }

/-- A failure of some other kind. -/
def plain (kind : Kind) (code : Category) (message : Text) : Report :=
  { kind := kind, message := { code := .ofCategory code, message := .str message } }

end Report

/-- The fields that a report can be made from; `code` and `notes` may be given as absent. -/
inductive Field where
  | message (d : PlainDatum)
  | what (d : PlainDatum)
  | name (d : PlainDatum)
  | action (d : PlainDatum)
  | code (c : Option Code)
  | notes (ns : Option (List Note))
  | hint (d : PlainDatum)
  | expectedType (d : PlainDatum)
  | actualType (d : PlainDatum)

namespace Field

/-- A kind takes this field from outside. -/
def isTakenBy (k : Kind) : Field → Bool
  | .message _ => k == .general || k == .type || k == .configuration || k == .internal
  | .code _ => k == .general || k == .type || k == .configuration || k == .internal
  | .what _ => k == .notCallable
  | .name _ => k == .frozen || k == .reference
  | .action _ => k == .frozen
  | .expectedType _ => k == .type || k == .frozen
  | .actualType _ => k == .type || k == .frozen || k == .notCallable
  | .notes _ => true
  | .hint _ => true

end Field

namespace Report

/-- The first value that `pick` finds among the fields. -/
def fieldValue {α : Type} (fields : List Field) (pick : Field → Option α) : Option α :=
  fields.findSome? pick

/-- The report of a kind from named fields: none if a field is refused or the required one is
missing. A frozen object's hint is always its own. -/
def make? (kind : Kind) (fields : List Field) : Option Report := do
  guard (fields.all (Field.isTakenBy kind))
  let datum (pick : Field → Option PlainDatum) (absent : Text) :=
    (fieldValue fields pick).getD (.str absent)
  let notes := (fieldValue fields fun | .notes ns => ns | _ => none).getD []
  let hint := datum (fun | .hint d => some d | _ => none) ""
  let code := (fieldValue fields fun | .code c => c | _ => none).getD kind.code
  let expected := datum (fun | .expectedType d => some d | _ => none) ""
  let actual := datum (fun | .actualType d => some d | _ => none) ""
  match kind with
  | .general | .configuration | .internal =>
    let message ← fieldValue fields fun | .message d => some d | _ => none
    some { kind, message := ⟨code, message, notes, hint⟩ }
  | .type =>
    let message ← fieldValue fields fun | .message d => some d | _ => none
    some (ofType .type code message expected actual notes hint)
  | .notCallable =>
    let what ← fieldValue fields fun | .what d => some d | _ => none
    some (notCallable what.bare actual notes hint)
  | .frozen =>
    let name ← fieldValue fields fun | .name d => some d | _ => none
    let action := datum (fun | .action d => some d | _ => none) "set"
    some (frozen action.bare name expected actual notes)
  | .reference =>
    let name ← fieldValue fields fun | .name d => some d | _ => none
    some (reference name notes hint)

end Report

end Overlay.Error
