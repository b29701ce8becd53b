import Overlay.Number.Decimal
import Overlay.Text.Quoted

/-!
# Data

A datum is a plain value or a list or record of data, whose leaves may also be references of a type
`ρ`. Option records and settings hold data without references; the values of a running plugin
refer to objects and functions; an answer refers to them by their labels.

Two lists with equal items can still be two lists, and a result that is no number equals only itself.
Both therefore carry a mark: data that a run has made have a number there, and data that came as they
are have none. Equality takes lists by their items and what is no number by its mark.
-/

namespace Overlay
set_option autoImplicit false

/-- A value whose references are of type `ρ`. -/
inductive Datum (ρ : Type) where
  | null
  | undefined
  | bool (b : Bool)
  | int (i : Int)
  | float (x : Binary64)
  /-- A result that is no number. -/
  | nan (mark : Option Nat)
  | str (s : Text)
  | list (mark : Option Nat) (items : List (Datum ρ))
  | record (entries : List (Datum ρ × Datum ρ))
  | ref (r : ρ)
  deriving Inhabited

/-- Data without references. -/
abbrev PlainDatum := Datum Empty

namespace Datum

variable {ρ : Type}

/-- The text of a datum that has no parts. -/
def leafText : Datum ρ → Text
  | .null => "None"
  | .undefined => "undefined"
  | .bool b => if b then "True" else "False"
  | .int i => toString i
  | .float x => x.text
  | .nan _ => "nan"
  | .str s => Text.quote s
  | .list _ _ | .record _ | .ref _ => ""

/-- The text of a list with the given texts of its items. -/
def listText (items : List Text) : Text :=
  "[" ++ Text.join ", " items ++ "]"

/-- The text of a record with the given texts of its entries. -/
def recordText (entries : List (Text × Text)) : Text :=
  "\x7b" ++ Text.join ", " (entries.map fun e => e.1 ++ ": " ++ e.2) ++ "\x7d"

mutual

/-- The text of a datum without references. -/
def text : PlainDatum → Text
  | .list _ items => listText (itemTexts items)
  | .record entries => recordText (entryTexts entries)
  | d => d.leafText

/-- The texts of the items of a list. -/
def itemTexts : List PlainDatum → List Text
  | [] => []
  | x :: xs => text x :: itemTexts xs

/-- The texts of the entries of a record. -/
def entryTexts : List (PlainDatum × PlainDatum) → List (Text × Text)
  | [] => []
  | (k, x) :: xs => (text k, text x) :: entryTexts xs

end

/-- The text of a datum inside a sentence: a text is written as it is. -/
def bare : PlainDatum → Text
  | .str s => s
  | d => d.text

/-- The number that a datum stands for: a truth value stands for zero or one. -/
def number? : Datum ρ → Option (Int ⊕ Binary64)
  | .bool b => some (.inl (if b then 1 else 0))
  | .int i => some (.inl i)
  | .float x => some (.inr x)
  | _ => none

/-- Equality of numbers across their kinds. -/
def eqvNumber : Int ⊕ Binary64 → Int ⊕ Binary64 → Bool
  | .inl i, .inl j => i == j
  | .inl i, .inr x => x.eqvInt i
  | .inr x, .inl i => x.eqvInt i
  | .inr x, .inr y => x.eqv y

mutual

/-- Equality of data: numbers by value whatever their kind, what is no number by its mark, lists by
their items, and records by their entries in any order. -/
def eqv [BEq ρ] : Datum ρ → Datum ρ → Bool
  | .null, .null => true
  | .undefined, .undefined => true
  | .nan m, .nan n => m.isSome && m == n
  | .str s, .str t => s == t
  | .ref r, .ref t => r == t
  | .list _ xs, .list _ ys => eqvItems xs ys
  | .record xs, .record ys => xs.length == ys.length && eqvEntries xs ys
  | x, y =>
    match x.number?, y.number? with
    | some a, some b => eqvNumber a b
    | _, _ => false

/-- Equality of lists, item by item. -/
def eqvItems [BEq ρ] : List (Datum ρ) → List (Datum ρ) → Bool
  | [], [] => true
  | x :: xs, y :: ys => eqv x y && eqvItems xs ys
  | _, _ => false

/-- Every entry of the first record is one of the second. -/
def eqvEntries [BEq ρ] : List (Datum ρ × Datum ρ) → List (Datum ρ × Datum ρ) → Bool
  | [], _ => true
  | (k, x) :: xs, ys => (ys.any fun e => eqv k e.1 && eqv x e.2) && eqvEntries xs ys

end

/-- The datum counts as true: it is no absent value, no zero and not empty. -/
def isTruthy : Datum ρ → Bool
  | .null | .undefined => false
  | .bool b => b
  | .int i => i != 0
  | .float x => x.isNonzero
  | .nan _ => true
  | .str s => !s.isEmpty
  | .list _ items => !items.isEmpty
  | .record entries => !entries.isEmpty
  | .ref _ => true

/-- The datum is neither a list nor a record. -/
def isAtomic : Datum ρ → Bool
  | .list _ _ | .record _ => false
  | _ => true

/-- The datum is null. -/
def isNull : Datum ρ → Bool
  | .null => true
  | _ => false

/-- The entries of a record with one more: a key that is there keeps its place. -/
def insertEntry [BEq ρ] (entries : List (Datum ρ × Datum ρ)) (key value : Datum ρ) :
    List (Datum ρ × Datum ρ) :=
  if entries.any fun e => e.1.eqv key then
    entries.map fun e => if e.1.eqv key then (e.1, value) else e
  else entries ++ [(key, value)]

/-- The parts that a datum falls into: the items of a list, the runes of a text, the keys of a record;
none for what has no parts. -/
def parts? : Datum ρ → Option (List (Datum ρ))
  | .list _ items => some items
  | .str s => some (s.map fun r => .str [r])
  | .record entries => some (entries.map (·.1))
  | _ => none

mutual

/-- The datum with its references replaced. -/
def mapRefs {σ : Type} (f : ρ → σ) : Datum ρ → Datum σ
  | .null => .null
  | .undefined => .undefined
  | .bool b => .bool b
  | .int i => .int i
  | .float x => .float x
  | .nan m => .nan m
  | .str s => .str s
  | .list m items => .list m (mapItems f items)
  | .record entries => .record (mapEntries f entries)
  | .ref r => .ref (f r)

/-- The items of a list with their references replaced. -/
def mapItems {σ : Type} (f : ρ → σ) : List (Datum ρ) → List (Datum σ)
  | [] => []
  | x :: xs => mapRefs f x :: mapItems f xs

/-- The entries of a record with their references replaced. -/
def mapEntries {σ : Type} (f : ρ → σ) : List (Datum ρ × Datum ρ) → List (Datum σ × Datum σ)
  | [] => []
  | (k, x) :: xs => (mapRefs f k, mapRefs f x) :: mapEntries f xs

end

end Datum

end Overlay
