import Overlay.Datum

/-!
# Reading JSON

`Json.read` reads a whole text as one JSON value, white space around it allowed. The three names for
numbers that are none, `NaN`, `Infinity` and `-Infinity`, are read too. A number without a fraction
and an exponent is an integer, which may have only so many digits. Half a character that is escaped
alone stays half a character. Of two entries of one key the last gives the value and the first the
place. Lists and records may be nested only so deep. What is wrong first in the text decides why it is
refused. Each nested value is shorter than the text around it, so the length of the text is fuel
enough.
-/

namespace Overlay.Json
set_option autoImplicit false

/-- Why a text is refused. -/
inductive Refusal where
  | malformed
  /-- An integer with too many digits. -/
  | hugeInteger
  /-- Lists and records are nested too deeply. -/
  | tooDeep
  deriving DecidableEq, Repr

/-- A part that was read, and the text after it. -/
abbrev Reading (α : Type) := Except Refusal (α × Text)

/-- White space between the parts of a JSON text. -/
def isSpace (r : Rune) : Bool :=
  r == ' ' || r == '\t' || r == '\n' || r == '\r'

/-- A text without the white space it starts with. -/
def skip (t : Text) : Text :=
  t.dropWhile isSpace

/-- The value of a hexadecimal digit. -/
def hexValue? (r : Rune) : Option Nat :=
  if r.isDigit then some (r.toNat - '0'.toNat)
  else if r.satisfies fun c => decide ('a' ≤ c) && decide (c ≤ 'f') then some (r.toNat - 'a'.toNat + 10)
  else if r.satisfies fun c => decide ('A' ≤ c) && decide (c ≤ 'F') then some (r.toNat - 'A'.toNat + 10)
  else none

/-- Reads four hexadecimal digits. -/
def readUnit? : Text → Option (Nat × Text)
  | a :: b :: c :: d :: rest => do
    let a ← hexValue? a
    let b ← hexValue? b
    let c ← hexValue? c
    let d ← hexValue? d
    return (4096 * a + 256 * b + 16 * c + d, rest)
  | _ => none

/-- The second half of a character beyond the first plane, if the text goes on with one. -/
def readLowHalf? : Text → Option (Nat × Text)
  | .char '\\' :: .char 'u' :: rest => do
    let (n, rest) ← readUnit? rest
    if 0xDC00 ≤ n ∧ n < 0xE000 then return (n, rest) else none
  | _ => none

/-- Reads a code point by its units; half a character alone is left as it is. -/
def readCoded? (t : Text) : Option (Nat × Text) := do
  let (n, rest) ← readUnit? t
  if 0xD800 ≤ n ∧ n < 0xDC00 then
    match readLowHalf? rest with
    | some (m, rest) => return (0x10000 + (n - 0xD800) * 0x400 + (m - 0xDC00), rest)
    | none => return (n, rest)
  else return (n, rest)

/-- The character that a one letter escape stands for. -/
def escaped? : Rune → Option Char
  | .char '"' => some '"'
  | .char '\\' => some '\\'
  | .char '/' => some '/'
  | .char 'b' => some '\x08'
  | .char 'f' => some '\x0c'
  | .char 'n' => some '\n'
  | .char 'r' => some '\r'
  | .char 't' => some '\t'
  | _ => none

/-- Reads the rest of a string after its opening quote, the runes so far in reverse. -/
def readString : Nat → Text → Text → Reading PlainDatum
  | 0, _, _ => .error .malformed
  | fuel + 1, acc, t =>
    match t with
    | .char '"' :: rest => .ok (.str acc.reverse, rest)
    | .char '\\' :: .char 'u' :: rest =>
      match readCoded? rest with
      | some (n, rest) => readString fuel (.ofNat n :: acc) rest
      | none => .error .malformed
    | .char '\\' :: e :: rest =>
      match escaped? e with
      | some c => readString fuel (.char c :: acc) rest
      | none => .error .malformed
    | r :: rest =>
      if r.toNat < 0x20 || r == '\\' then .error .malformed else readString fuel (r :: acc) rest
    | [] => .error .malformed

/-- The most digits that an integer may have. -/
def digitLimit : Nat := 4300

/-- Reads a number; a zero in front stands alone. -/
def readNumber (negative : Bool) (t : Text) : Reading PlainDatum :=
  match t with
  | .char '0' :: r :: _ => if r.isDigit then .ok (.int 0, t.drop 1) else number
  | _ => number
where
  /-- A number whose digits may be read together. -/
  number : Reading PlainDatum :=
    match Decimal.read t with
    | some (.whole n, rest) =>
      if n < Nat.pow 10 digitLimit then .ok (.int (if negative then -n else n), rest)
      else .error .hugeInteger
    | some (.scaled n x, rest) => .ok (.float (.ofDecimal negative n x), rest)
    | none => .error .malformed

/-- The rest of a text after a word. -/
def afterWord? (word t : Text) : Option Text :=
  if word.isPrefixOf t then some (t.drop word.length) else none

/-- The words that stand for values. -/
def words : List (Text × PlainDatum) :=
  [("null", .null), ("true", .bool true), ("false", .bool false), ("NaN", .nan none),
    ("Infinity", .float (.infinity false)), ("-Infinity", .float (.infinity true))]

/-- Reads a word or a number. -/
def readScalar (t : Text) : Reading PlainDatum :=
  match words.findSome? fun w => (afterWord? w.1 t).map fun rest => (w.2, rest) with
  | some r => .ok r
  | none =>
    match t with
    | .char '-' :: rest => readNumber true rest
    | _ => readNumber false t

mutual

/-- Reads a value in which lists and records are nested at most `depth` deep. -/
def readValue : Nat → Nat → Text → Reading PlainDatum
  | 0, _, _ => .error .malformed
  | fuel + 1, depth, t =>
    match t with
    | .char '"' :: rest => readString fuel [] rest
    | .char '[' :: rest =>
      match depth with
      | 0 => .error .tooDeep
      | depth + 1 =>
        match skip rest with
        | .char ']' :: rest => .ok (.list none [], rest)
        | rest => readItems fuel depth [] rest
    | .char '\x7b' :: rest =>
      match depth with
      | 0 => .error .tooDeep
      | depth + 1 =>
        match skip rest with
        | .char '\x7d' :: rest => .ok (.record [], rest)
        | rest => readEntries fuel depth [] rest
    | _ => readScalar t

/-- Reads the items of a list, at least one, and its end; the items so far are in reverse. -/
def readItems : Nat → Nat → List PlainDatum → Text → Reading PlainDatum
  | 0, _, _, _ => .error .malformed
  | fuel + 1, depth, items, t =>
    match readValue fuel depth t with
    | .error r => .error r
    | .ok (x, rest) =>
      match skip rest with
      | .char ',' :: rest => readItems fuel depth (x :: items) (skip rest)
      | .char ']' :: rest => .ok (.list none (x :: items).reverse, rest)
      | _ => .error .malformed

/-- Reads the entries of a record, at least one, and its end. -/
def readEntries : Nat → Nat → List (PlainDatum × PlainDatum) → Text → Reading PlainDatum
  | 0, _, _, _ => .error .malformed
  | fuel + 1, depth, entries, t =>
    match t with
    | .char '"' :: rest =>
      match readString fuel [] rest with
      | .error r => .error r
      | .ok (key, rest) =>
        match skip rest with
        | .char ':' :: rest =>
          match readValue fuel depth (skip rest) with
          | .error r => .error r
          | .ok (x, rest) =>
            let entries := Datum.insertEntry entries key x
            match skip rest with
            | .char ',' :: rest => readEntries fuel depth entries (skip rest)
            | .char '\x7d' :: rest => .ok (.record entries, rest)
            | _ => .error .malformed
        | _ => .error .malformed
    | _ => .error .malformed

end

/-- Reads a text as one JSON value, nested at most `depth` deep. Every rune takes at most two steps of
reading. -/
def read (depth : Nat) (t : Text) : Except Refusal PlainDatum :=
  match readValue (2 * t.length + 2) depth (skip t) with
  | .ok (x, rest) => if (skip rest).isEmpty then .ok x else .error .malformed
  | .error r => .error r

end Overlay.Json
