import Overlay.Text.Rune

/-!
# Paths

A path is taken against a working directory. Empty parts and single dots go, two dots take back the
part before them. A tilde at the start of the first part stands for the home of the user whose name
follows, or of the user who runs the program when no name does. The file system knows a name by its
bytes: half a character from U+DC80 to U+DCFF stands for one byte that is no text, and no path holds
any other half.
-/

namespace Overlay.Command
set_option autoImplicit false

/-- The bytes by which the file system knows a rune of a name. -/
def runeBytes? : Rune → Option (List UInt8)
  | .char c => some (String.utf8EncodeChar c)
  | .half n => if 0x480 ≤ n.val ∧ n.val < 0x500 then some [(n.val - 0x400).toUInt8] else none

/-- The bytes by which the file system knows a name. -/
def nameBytes? (name : Text) : Option (List UInt8) :=
  (name.mapM runeBytes?).map List.flatten

/-- A place in a file tree: the text of a root and the parts below it. -/
structure Place where
  root : Text := ""
  parts : List Text := []
  deriving DecidableEq, Repr

namespace Place

/-- The text of a place. -/
def text (p : Place) : Text :=
  let t := p.root ++ p.parts.flatMap (.char '/' :: ·)
  if t.isEmpty then "/" else t

/-- The names on the way to a place, by their bytes. -/
def names (p : Place) : List (List UInt8) :=
  p.parts.map fun part => (nameBytes? part).getD []

/-- Two places are one: their names have the same bytes. -/
def isSame (p q : Place) : Bool :=
  p.root == q.root && p.names == q.names

/-- The way to the second place leads through the first. -/
def isAbove (p q : Place) : Bool :=
  p.root == q.root && p.names.isPrefixOf q.names

/-- The place that one part leads to. -/
def step (p : Place) (part : Text) : Place :=
  if part == ".." then { p with parts := p.parts.dropLast }
  else { p with parts := p.parts ++ [part] }

/-- The place that some parts lead to. -/
def follow (p : Place) (parts : List Text) : Place :=
  parts.foldl step p

/-- The parts of a path that mean something. -/
def partsOf (path : Text) : List Text :=
  (Text.split '/' path).filter fun part => part != "" && part != "."

/-- The path starts at the root. -/
def isAbsolute (path : Text) : Bool :=
  path.head? == some (.char '/')

/-- The place at which a path starts. -/
def startOf (cwd : Place) (path : Text) : Place :=
  if isAbsolute path then {} else cwd

/-- The place that a path leads to from a working directory. -/
def resolve (cwd : Place) (path : Text) : Place :=
  (cwd.startOf path).follow (partsOf path)

/-- The most bytes that one part of a path may have. -/
def partLimit : Nat := 255

/-- The most bytes that a path may have. -/
def pathLimit : Nat := 4095

end Place

/-- Why a path leads nowhere. -/
inductive NoWay where
  /-- The home of a user who is not known. -/
  | unknownUser
  /-- A character that no path can hold. -/
  | zeroByte
  /-- Half a character that has no bytes. -/
  | noBytes
  deriving DecidableEq, Repr

/-- The homes of users by their names; the empty name is that of the user who runs the program. -/
abbrev Homes := List (Text × Place)

/-- The user whose home a path starts with, and the parts below it. -/
def homePath? (path : Text) : Option (Text × List Text) :=
  match Place.isAbsolute path, Place.partsOf path with
  | false, (.char '~' :: user) :: rest => some (user, rest)
  | _, _ => none

/-- What is wrong with a name that no path can hold. -/
def wrongName? (name : Text) : Option NoWay :=
  if (nameBytes? name).isNone then some .noBytes
  else if name.hasZero then some .zeroByte
  else none

/-- The place that some parts lead to; the first that no path can hold decides why they lead nowhere. -/
def reach (start : Place) (parts : List Text) : Except NoWay Place :=
  match parts.findSome? wrongName? with
  | some why => .error why
  | none => .ok (start.follow parts)

/-- The place that a path leads to from a working directory, among the homes of the users. -/
def locate (homes : Homes) (cwd : Place) (path : Text) : Except NoWay Place :=
  match homePath? path with
  | some (user, rest) =>
    match wrongName? user, homes.lookup user with
    | some why, _ => .error why
    | none, some home => reach home rest
    | none, none => .error .unknownUser
  | none => reach (cwd.startOf path) (Place.partsOf path)

end Overlay.Command
