import Overlay.Text.Digit

/-!
# Switches of a command line

An argument that starts with a dash is a switch, unless it is a dash alone, a negative number, or
unknown and with a space in it. A long switch may be shortened as far as it stays unambiguous and may
carry its value after an equals sign; short switches without values may share one dash, and an equals
sign after the first of them means nothing. `scan` reads arguments into marks from left to right; two
dashes end the switches.
-/

namespace Overlay.Command
set_option autoImplicit false

/-- A switch: what it means, and whether a value goes with it. -/
structure Switch (α : Type) where
  meaning : α
  takesValue : Bool

/-- The spellings of switches. -/
abbrev Switches (α : Type) := List (Text × Switch α)

/-- The argument that ends the switches. -/
def twoDashes : Text := "--"

/-- How one argument reads. -/
inductive Reading (α : Type) where
  | operand
  | ambiguous
  | unknown
  /-- A switch by its spelling; text attached to it, after an equals sign or directly. -/
  | switch (spelling : Text) (s : Switch α) (attached : Option Text)

/-- An argument cut at its first equals sign. -/
def cutAtEquals (t : Text) : Text × Option Text :=
  match t.dropWhile (· != .char '=') with
  | [] => (t, none)
  | _ :: value => (t.takeWhile (· != .char '='), some value)

/-- A text without one line feed at its end. -/
def withoutLineEnd (t : Text) : Text :=
  if t.getLast? == some (.char '\n') then t.dropLast else t

/-- A dash and digits of any script, which a point may divide; one line feed may follow. -/
def isNegativeNumber (t : Text) : Bool :=
  match withoutLineEnd t with
  | .char '-' :: rest =>
    match rest.dropWhile Text.isDecimal with
    | [] => !rest.isEmpty
    | .char '.' :: fraction => !fraction.isEmpty && fraction.all Text.isDecimal
    | _ => false
  | _ => false

variable {α : Type}

/-- The switches that a long argument may stand for. -/
def longMatches (g : Switches α) (name : Text) (value : Option Text) : List (Reading α) :=
  (g.filter fun e => name.isPrefixOf e.1).map fun e => .switch e.1 e.2 value

/-- The switches that an argument with one dash may stand for. -/
def shortMatches (g : Switches α) (t : Text) : List (Reading α) :=
  g.filterMap fun e =>
    if e.1 == t.take 2 then some (.switch e.1 e.2 (some (t.drop 2)))
    else if t.isPrefixOf e.1 then some (.switch e.1 e.2 none)
    else none

/-- The switches that an argument may stand for when it is none by its full spelling. -/
def looseMatches (g : Switches α) (t : Text) : List (Reading α) :=
  match t with
  | .char '-' :: .char '-' :: _ => longMatches g (cutAtEquals t).1 (cutAtEquals t).2
  | _ => shortMatches g t

/-- The switch whose full spelling stands before an equals sign. -/
def exactWithValue? (g : Switches α) (t : Text) : Option (Reading α) :=
  match cutAtEquals t with
  | (name, some value) => (g.lookup name).map fun s => .switch name s (some value)
  | _ => none

/-- How an argument reads. -/
def classify (g : Switches α) (arg : Text) : Reading α :=
  match arg with
  | .char '-' :: rest =>
    match g.lookup arg with
    | some s => .switch arg s none
    | none =>
      if rest.isEmpty then .operand
      else
        match exactWithValue? g arg with
        | some r => r
        | none =>
          match looseMatches g arg with
          | [r] => r
          | _ :: _ :: _ => .ambiguous
          | [] =>
            if isNegativeNumber arg || arg.contains (.char ' ') then .operand else .unknown
  | _ => .operand

/-- What the arguments of a command line say, one after the other. -/
inductive Mark (α : Type) where
  /-- A switch with its value, if it takes one. -/
  | switch (meaning : α) (value : Option Text)
  /-- An operand, with the arguments after it. -/
  | operand (text : Text) (rest : List Text)
  /-- Two dashes, with the arguments after them. -/
  | divider (rest : List Text)
  /-- An argument that nothing takes. -/
  | stray
  /-- An argument that is wrong. -/
  | wrong

/-- Reads the switches that share a dash with one that takes no value, given the text after it: the
marks and the switch that still needs a value, unless something in the text is no switch. -/
def joined? (g : Switches α) : Text → Option (List (Mark α) × Option α)
  | [] => some ([], none)
  | c :: rest => do
    let s ← g.lookup [.char '-', c]
    if s.takesValue then
      return if rest.isEmpty then ([], some s.meaning)
        else ([.switch s.meaning (some rest)], none)
    else
      let (marks, pending) ← joined? g rest
      return (.switch s.meaning none :: marks, pending)

/-- Reads a switch with what is attached to it: the marks, and the switch that still needs a value. -/
def attachments (g : Switches α) (spelling : Text) (s : Switch α) (attached : Option Text) :
    List (Mark α) × Option α :=
  match attached, s.takesValue with
  | none, true => ([], some s.meaning)
  | none, false => ([.switch s.meaning none], none)
  | some text, true => ([.switch s.meaning (some text)], none)
  | some text, false =>
    if text.isEmpty || twoDashes.isPrefixOf spelling then ([.wrong], none)
    else
      match joined? g text with
      | some (marks, pending) => (.switch s.meaning none :: marks, pending)
      | none => ([.wrong], none)

/-- Reads the arguments after two dashes. -/
def operandsOf : List Text → List (Mark α)
  | [] => []
  | a :: rest => .operand a rest :: operandsOf rest

/-- The argument can be the value of a switch. -/
def isValue (g : Switches α) (arg : Text) : Bool :=
  arg != twoDashes && (match classify g arg with | .operand => true | _ => false)

/-- Reads arguments into marks; nothing is read after a wrong one. -/
def scan (g : Switches α) : List Text → List (Mark α)
  | [] => []
  | a :: rest =>
    if a == twoDashes then .divider rest :: operandsOf rest
    else
      match classify g a with
      | .operand => .operand a rest :: scan g rest
      | .unknown => .stray :: scan g rest
      | .ambiguous => [.wrong]
      | .switch spelling s attached =>
        match attachments g spelling s attached with
        | (marks, none) => marks ++ scan g rest
        | (marks, some meaning) =>
          match rest with
          | [] => marks ++ [.wrong]
          | v :: rest =>
            if isValue g v then marks ++ .switch meaning (some v) :: scan g rest
            else marks ++ [.wrong]

/-- Some argument before the two dashes reads as more than one switch. -/
def hasAmbiguity (g : Switches α) (args : List Text) : Bool :=
  (args.takeWhile (· != twoDashes)).any fun a => match classify g a with | .ambiguous => true | _ => false

end Overlay.Command
