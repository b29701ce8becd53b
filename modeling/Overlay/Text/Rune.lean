/-!
# Runes and texts

A text is a list of runes, and a rune is a character or half of one. The code points from U+D800 to
U+DFFF stand for a character only in pairs; where one of them stands alone in a text it stays what it
is, and only what has to be written as bytes refuses it. `Rune.toNat` and `Rune.ofNat` go between
runes and code points, and `Rune.ofNat_toNat` says that every rune comes back from its code point.
-/

namespace Overlay
set_option autoImplicit false

/-- One code point of a text. -/
inductive Rune where
  | char (c : Char)
  /-- Half of a character, by its place among the halves. -/
  | half (n : Fin 0x800)
  deriving DecidableEq, Repr, Inhabited

/-- A text. -/
abbrev Text := List Rune

/-- A character is a rune. -/
instance : Coe Char Rune := ⟨.char⟩

namespace Rune

/-- The code point of a rune. -/
def toNat : Rune → Nat
  | .char c => c.toNat
  | .half n => 0xD800 + n.val

/-- The rune of a code point. -/
def ofNat (n : Nat) : Rune :=
  if h : 0xD800 ≤ n ∧ n - 0xD800 < 0x800 then .half ⟨n - 0xD800, h.2⟩ else .char (Char.ofNat n)

/-- The character that a rune is. -/
def char? : Rune → Option Char
  | .char c => some c
  | .half _ => none

/-- The rune is half of a character. -/
def isHalf : Rune → Bool
  | .char _ => false
  | .half _ => true

/-- The rune is a character with a property. -/
def satisfies (p : Char → Bool) : Rune → Bool
  | .char c => p c
  | .half _ => false

/-- A digit of ASCII. -/
def isDigit : Rune → Bool :=
  satisfies Char.isDigit

theorem ofNat_toNat (r : Rune) : ofNat r.toNat = r := by
  cases r with
  | char c =>
    have h : ¬ (0xD800 ≤ c.toNat ∧ c.toNat - 0xD800 < 0x800) := by
      have valid : c.toNat < 0xD800 ∨ 0xDFFF < c.toNat ∧ c.toNat < 0x110000 := c.valid
      omega
    simp [ofNat, toNat, h]
  | half n =>
    have h : 0xD800 ≤ 0xD800 + n.val ∧ 0xD800 + n.val - 0xD800 < 0x800 := by omega
    simp only [toNat, ofNat, h, and_self, ↓reduceDIte, half.injEq]
    exact Fin.ext (by simp)

end Rune

namespace Text

/-- The text of a string. -/
def ofString (s : String) : Text :=
  s.toList.map .char

/-- The code points of a text. -/
def points (t : Text) : List Nat :=
  t.map Rune.toNat

/-- No half of a character stands in the text. -/
def isWhole (t : Text) : Bool :=
  t.all fun r => !r.isHalf

/-- The string of a text, if no half of a character stands in it. -/
def toString? (t : Text) : Option String :=
  (t.mapM Rune.char?).map String.ofList

/-- The string of a text, with the replacement character for half of one. -/
def shown (t : Text) : String :=
  String.ofList (t.map fun r => r.char?.getD '�')

/-- Texts put together with a separator between them. -/
def join (separator : Text) (parts : List Text) : Text :=
  List.intercalate separator parts

/-- The parts of a text between the separators. -/
def split (separator : Rune) (t : Text) : List Text :=
  t.foldr (fun r parts =>
    if r == separator then [] :: parts
    else
      match parts with
      | [] => [[r]]
      | part :: rest => (r :: part) :: rest) [[]]

/-- The text holds the character of code zero. -/
def hasZero (t : Text) : Bool :=
  t.contains (.char '\x00')

end Text

/-- A string is a text. -/
instance : Coe String Text := ⟨Text.ofString⟩

end Overlay
