import Overlay.Number.Binary64
import Overlay.Text.Blank
import Overlay.Text.Digit

/-!
# Decimal text of floating-point numbers

`Decimal.shortest` finds the fewest digits that read back as the same number and, of those, the
digits nearest to it. `Binary64.text` writes them positionally while the point lies between three
zeros after it and sixteen digits before it, and with an exponent of at least two digits outside
that range; a whole number keeps one zero after the point. `Decimal.read` reads digits with an
optional fraction and exponent, and `Spelled.ofText?` the looser spellings of a whole text.
-/

namespace Overlay
set_option autoImplicit false

/-- The positive decimal `0.d₁d₂…dₙ * 10 ^ point`, by its digits. -/
structure Decimal where
  digits : List Char
  point : Int
  deriving DecidableEq, Repr

namespace Decimal

/-- How often `num` has to be taken ten times to reach `den`, at most `fuel` times. -/
def tenfoldsTo (den : Nat) : Nat → Nat → Nat
  | 0, _ => 0
  | fuel + 1, num => if den ≤ num then 0 else tenfoldsTo den fuel (num * 10) + 1

/-- The place of the point: the least `k` with `num / den < 10 ^ k`. -/
def pointOf (num den : Nat) : Int :=
  if den ≤ num then (Nat.toDigits 10 (num / den)).length
  else 1 - (tenfoldsTo den 400 num : Int)

/-- Digits without the zeros at their end. -/
def stripZeros (ds : List Char) : List Char :=
  (ds.reverse.dropWhile (· == '0')).reverse

/-- The decimal `coefficient * 10 ^ scale`. -/
def ofScaled (coefficient : Nat) (scale : Int) : Decimal :=
  let ds := Nat.toDigits 10 coefficient
  ⟨stripZeros ds, ds.length + scale⟩

/-- The number nearest to `coefficient * 10 ^ scale` is `m * 2 ^ e`. -/
def readsBack (m : Nat) (e : Int) (coefficient : Nat) (scale : Int) : Bool :=
  Binary64.ofDecimal false coefficient scale == .finite false m e

/-- Of the two neighbours of `num / den` with `n` digits, the one that reads back as `m * 2 ^ e`;
the nearer one if both do. -/
def withDigits? (m : Nat) (e : Int) (num den n : Nat) : Option Decimal :=
  let scale := pointOf num den - n
  let (a, b) := if 0 ≤ scale then (num, den * Nat.pow 10 scale.toNat) else (num * Nat.pow 10 (-scale).toNat, den)
  let low := a / b
  let nearest := Binary64.divNearest a b
  let other := if nearest = low then low + 1 else low
  if readsBack m e nearest scale then some (ofScaled nearest scale)
  else if readsBack m e other scale then some (ofScaled other scale)
  else none

/-- The shortest decimal that reads back as the positive number `m * 2 ^ e`. -/
def shortest (m : Nat) (e : Int) : Decimal :=
  let (num, den) := if 0 ≤ e then (m * Nat.pow 2 e.toNat, 1) else (m, Nat.pow 2 (-e).toNat)
  ((List.range 17).findSome? fun n => withDigits? m e num den (n + 1)).getD ⟨['0'], 1⟩

/-- An exponent of ten with its sign and at least two digits. -/
def exponentText (x : Int) : List Char :=
  let ds := Nat.toDigits 10 x.natAbs
  (if x < 0 then '-' else '+') :: (if ds.length < 2 then '0' :: ds else ds)

/-- The text of a positive decimal. -/
def text (d : Decimal) : List Char :=
  let n := d.digits.length
  if -4 < d.point ∧ d.point ≤ 16 then
    if d.point ≤ 0 then '0' :: '.' :: (List.replicate (-d.point).toNat '0' ++ d.digits)
    else
      let k := d.point.toNat
      if n ≤ k then d.digits ++ List.replicate (k - n) '0' ++ ['.', '0']
      else d.digits.take k ++ '.' :: d.digits.drop k
  else
    d.digits.take 1 ++ (if n ≤ 1 then [] else '.' :: d.digits.drop 1) ++
      'e' :: exponentText (d.point - 1)

/-- The value of decimal digits read after `acc`. -/
def valueOf (acc : Nat) (ds : Text) : Nat :=
  ds.foldl (fun n r => 10 * n + (r.toNat - '0'.toNat)) acc

/-- Reads the digits after an exponent mark: the exponent and what follows it. -/
def readExponent (t : Text) : Option (Int × Text) :=
  let (negative, rest) := match t with
    | .char '-' :: r => (true, r)
    | .char '+' :: r => (false, r)
    | r => (false, r)
  let ds := rest.takeWhile Rune.isDigit
  if ds.isEmpty then none
  else
    let x : Int := valueOf 0 ds
    some (if negative then -x else x, rest.dropWhile Rune.isDigit)

/-- A number as it was written: a fraction or an exponent makes it a floating-point number. -/
inductive Numeral where
  | whole (value : Nat)
  | scaled (digits : Nat) (scale : Int)
  deriving DecidableEq, Repr

/-- Reads an unsigned number, as far as it goes. -/
def read (t : Text) : Option (Numeral × Text) :=
  let whole := t.takeWhile Rune.isDigit
  let rest := t.dropWhile Rune.isDigit
  if whole.isEmpty then none
  else
    let (fraction, rest) := match rest with
      | .char '.' :: r =>
        let ds := r.takeWhile Rune.isDigit
        if ds.isEmpty then ([], rest) else (ds, r.dropWhile Rune.isDigit)
      | _ => ([], rest)
    let (exponent, rest) := match rest with
      | c :: r =>
        if c == 'e' || c == 'E' then
          match readExponent r with
          | some (x, r) => (some x, r)
          | none => (none, rest)
        else (none, rest)
      | [] => (none, rest)
    let digits := valueOf (valueOf 0 whole) fraction
    match fraction, exponent with
    | [], none => some (.whole digits, rest)
    | _, _ => some (.scaled digits (exponent.getD 0 - fraction.length), rest)

end Decimal

namespace Binary64

/-- The text of a number. -/
def text : Binary64 → String
  | .infinity negative => if negative then "-inf" else "inf"
  | .finite negative m e =>
    let body := if m = 0 then ['0', '.', '0'] else (Decimal.shortest m e).text
    String.ofList (if negative then '-' :: body else body)

end Binary64

/-- What a text can spell where a number is asked for. -/
inductive Spelled where
  | number (x : Binary64)
  /-- The word for a result that is no number. -/
  | noNumber
  deriving DecidableEq, Repr

namespace Spelled

/-- A low line may stand between two digits, where it means nothing; none if one stands elsewhere. -/
def withoutLowLines? : Text → Option Text
  | [] => some []
  | .char '_' :: _ => none
  | c :: .char '_' :: d :: rest =>
    if c.isDigit && d.isDigit then (withoutLowLines? (d :: rest)).map (c :: ·) else none
  | c :: rest => (withoutLowLines? rest).map (c :: ·)

/-- An unsigned number whose digits may be missing on one side of the point. -/
def unsigned? (negative : Bool) (t : Text) : Option Binary64 :=
  let whole := t.takeWhile Rune.isDigit
  let rest := t.dropWhile Rune.isDigit
  let (fraction, rest) := match rest with
    | .char '.' :: r => (r.takeWhile Rune.isDigit, r.dropWhile Rune.isDigit)
    | r => ([], r)
  let digits := Decimal.valueOf (Decimal.valueOf 0 whole) fraction
  let withExponent (exponent : Int) := Binary64.ofDecimal negative digits (exponent - fraction.length)
  if whole.isEmpty && fraction.isEmpty then none
  else
    match rest with
    | [] => some (withExponent 0)
    | c :: r =>
      if c == 'e' || c == 'E' then
        match Decimal.readExponent r with
        | some (x, []) => some (withExponent x)
        | _ => none
      else none

/-- A digit of any script as the one of ASCII, and other runes as they are. -/
def plainDigit (r : Rune) : Rune :=
  (Text.decimal? r).elim r fun n => .ofNat ('0'.toNat + n)

/-- A letter of ASCII in lower case, and other runes as they are. -/
def lowered (r : Rune) : Rune :=
  r.char?.elim r fun c => .char c.toLower

/-- The number that a text spells: digits with a sign, a point and an exponent, or a word for what no
digits spell. White space around it is allowed. -/
def ofText? (t : Text) : Option Spelled :=
  let (negative, t) := match (Text.trim t).map plainDigit with
    | .char '-' :: r => (true, r)
    | .char '+' :: r => (false, r)
    | r => (false, r)
  let word := t.map lowered
  if word == "nan" then some .noNumber
  else if word == "inf" || word == "infinity" then some (.number (.infinity negative))
  else (withoutLowLines? t).bind fun t => (unsigned? negative t).map .number

end Spelled

end Overlay
