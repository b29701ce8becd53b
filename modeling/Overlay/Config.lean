import Overlay.Fault
import Overlay.Name
import Overlay.Text.Blank

/-!
# Plugin settings

The settings of a plugin are the members that are never shared between an object and its patched
view, the names that enumeration keeps to itself, the reserved receiver of emulated functions and
the placeholders for hidden code. `Config.warnings` lists what looks wrong in them, in a fixed order,
and refuses nothing. Only settings of the wrong kind are refused: `Settings.check` takes settings as
they are given.
-/

namespace Overlay
set_option autoImplicit false

/-- The settings of one plugin. -/
structure Config where
  /-- Members that take part in value coercion: never copied, forwarded or supplied. -/
  coercionMembers : List PlainDatum := [.str "valueOf"]
  /-- Names of a supplement that enumeration leaves out. -/
  hiddenNames : List PlainDatum := [.str "constructor"]
  /-- The reserved first parameter of an emulated function. -/
  receiver : Text := "dis"
  /-- What is shown in place of a function's body. -/
  redactedBody : Text := "[cajoled code]"
  /-- What the emulated function constructor answers as its text. -/
  constructorText : PlainDatum := .str "disfunction(var_args)\x7b\n   [cajoled code]\n\x7d"

instance : Inhabited Config := ⟨{}⟩

namespace Config

/-- A member of the list equals the given datum. -/
def lists (members : List PlainDatum) (d : PlainDatum) : Bool :=
  members.any fun m => m.eqv d

/-- The key names a coercion member. -/
def isCoercionMember (c : Config) (k : Key) : Bool :=
  k.isAmong c.coercionMembers

/-- The key names what enumeration leaves out. -/
def isHiddenName (c : Config) (k : Key) : Bool :=
  k.isAmong c.hiddenNames

/-- A letter of ASCII or the low line. -/
def isIdentifierStart (r : Rune) : Bool :=
  r.satisfies Char.isAlpha || r == '_'

/-- A letter or digit of ASCII or the low line. -/
def isIdentifierRest (r : Rune) : Bool :=
  r.satisfies Char.isAlphanum || r == '_'

/-- An identifier of ASCII characters, which one line feed may follow. -/
def isIdentifier (t : Text) : Bool :=
  match t with
  | [] => false
  | r :: rest =>
    isIdentifierStart r &&
      (let tail := rest.dropWhile isIdentifierRest
       tail == [] || tail == "\n")

/-- A text of white space only. -/
def isBlankText (t : Text) : Bool :=
  t.all Text.isBlank

/-- The warning about a member that is no name. -/
def memberWarning? : PlainDatum → Option Text
  | .str _ => none
  | d => some ("member name " ++ d.text ++ " is not a string")

/-- The warning about a receiver that no header can strip. -/
def receiverWarning (receiver : Text) : Text :=
  "receiver_param " ++ Text.quote receiver ++
    " is not an identifier; function headers will not have it stripped"

/-- The warning about coercion members that hold the back-reference. -/
def constructorWarning : Text :=
  "coercion_members contains 'constructor'; shadows will still carry their back-reference"

/-- The warning about a placeholder that does not show. -/
def bodyWarning : Text :=
  "redacted_body is blank"

/-- What looks wrong in the settings. -/
def warnings (c : Config) : List Text :=
  (if isIdentifier c.receiver then [] else [receiverWarning c.receiver]) ++
  (if c.isCoercionMember "constructor" then [constructorWarning] else []) ++
  (if isBlankText c.redactedBody then [bodyWarning] else []) ++
  (c.coercionMembers ++ c.hiddenNames).filterMap memberWarning?

end Config

/-- Settings as they are given, of which some have to be texts. -/
structure Settings where
  coercionMembers : List PlainDatum := ({} : Config).coercionMembers
  hiddenNames : List PlainDatum := ({} : Config).hiddenNames
  receiver : PlainDatum := .str ({} : Config).receiver
  redactedBody : PlainDatum := .str ({} : Config).redactedBody
  constructorText : PlainDatum := ({} : Config).constructorText

instance : Inhabited Settings := ⟨{}⟩

/-- The settings, unless one of them is of the wrong kind. -/
def Settings.check (s : Settings) : Except Fault Config := do
  let receiver ← match s.receiver with
    | .str r => .ok r
    | _ => .error .badCall
  let redactedBody ← match s.redactedBody with
    | .str b => .ok b
    | _ => .error .noMember
  return {
    coercionMembers := s.coercionMembers
    hiddenNames := s.hiddenNames
    receiver := receiver
    redactedBody := redactedBody
    constructorText := s.constructorText }

end Overlay
