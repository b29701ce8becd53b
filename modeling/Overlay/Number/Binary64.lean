/-!
# Binary floating point of 64 bits

A finite number is a sign, a mantissa below `2 ^ 53` and an exponent of two not below `-1074`. All
arithmetic is on exact integers: `ofRatio` takes a quotient to the nearest number, a tie to the
one with an even mantissa, and a quotient too large for the format to infinity. Every number has
one spelling here, so two of them are compared by their parts; only the two zeros are equal with
different parts. What the format has for results that are no number is not among them: it equals
nothing, so it is kept where values are told apart.
-/

namespace Overlay
set_option autoImplicit false

/-- A number of the format. -/
inductive Binary64 where
  /-- `mantissa * 2 ^ exponent`, with a sign. -/
  | finite (negative : Bool) (mantissa : Nat) (exponent : Int)
  | infinity (negative : Bool)
  deriving DecidableEq, Repr, Inhabited

namespace Binary64

/-- The least exponent of two. -/
def minExponent : Int := -1074

/-- The greatest exponent of two. -/
def maxExponent : Int := 971

/-- Zero with a sign. -/
def zero (negative : Bool) : Binary64 :=
  .finite negative 0 minExponent

/-- The quotient `num / den`, a half going to the even neighbour. -/
def divNearest (num den : Nat) : Nat :=
  let q := num / den
  let r := num % den
  if 2 * r < den then q
  else if den < 2 * r then q + 1
  else if q % 2 = 0 then q
  else q + 1

/-- Numerator and denominator of `num / den / 2 ^ e`. -/
def scaleDown (num den : Nat) (e : Int) : Nat × Nat :=
  if 0 ≤ e then (num, den * Nat.pow 2 e.toNat) else (num * Nat.pow 2 (-e).toNat, den)

/-- The exponent at which `num / den` has a mantissa of 53 bits, or the least exponent. -/
def exponentOf (num den : Nat) : Int :=
  let low := max ((num.log2 : Int) - den.log2 - 53) minExponent
  let (n, d) := scaleDown num den low
  if n / d < Nat.pow 2 53 then low else low + 1

/-- The number nearest to `num / den`. -/
def ofRatio (negative : Bool) (num den : Nat) : Binary64 :=
  if num = 0 then zero negative
  else
    let e := exponentOf num den
    let (n, d) := scaleDown num den e
    let m := divNearest n d
    let (m, e) := if m = Nat.pow 2 53 then (Nat.pow 2 52, e + 1) else (m, e)
    if maxExponent < e then .infinity negative else .finite negative m e

/-- The number nearest to `digits * 10 ^ scale`. A scale far outside the format's range is decided
without computing the power. -/
def ofDecimal (negative : Bool) (digits : Nat) (scale : Int) : Binary64 :=
  let magnitude := (Nat.toDigits 10 digits).length + scale
  if digits = 0 ∨ magnitude < -330 then zero negative
  else if 310 < magnitude then .infinity negative
  else if 0 ≤ scale then ofRatio negative (digits * Nat.pow 10 scale.toNat) 1
  else ofRatio negative digits (Nat.pow 10 (-scale).toNat)

/-- Neither of the zeros. -/
def isNonzero : Binary64 → Bool
  | .finite _ m _ => m != 0
  | .infinity _ => true

/-- An integer with a sign of its own. -/
def signed (negative : Bool) (n : Nat) : Int :=
  if negative then -n else n

/-- The integer that a number is, if it is one. -/
def toInt? : Binary64 → Option Int
  | .finite s m e =>
    if 0 ≤ e then some (signed s (m * Nat.pow 2 e.toNat))
    else if m % Nat.pow 2 (-e).toNat = 0 then some (signed s (m / Nat.pow 2 (-e).toNat))
    else none
  | .infinity _ => none

/-- The number below zero. -/
def isNegative : Binary64 → Bool
  | .finite s m _ => s && m != 0
  | .infinity s => s

/-- The quotient of an integer and a positive integer, taken to the nearest number. -/
def ofSigned (num : Int) (den : Nat) : Binary64 :=
  ofRatio (decide (num < 0)) num.natAbs den

/-- The number less one. -/
def pred : Binary64 → Binary64
  | .finite s m e =>
    if 0 ≤ e then ofSigned (signed s (m * Nat.pow 2 e.toNat) - 1) 1
    else ofSigned (signed s m - (Nat.pow 2 (-e).toNat : Nat)) (Nat.pow 2 (-e).toNat)
  | .infinity s => .infinity s

/-- Equality of numbers: the zeros are equal. -/
def eqv : Binary64 → Binary64 → Bool
  | .finite s m e, .finite s' m' e' => (m == 0 && m' == 0) || (s == s' && m == m' && e == e')
  | .infinity s, .infinity s' => s == s'
  | _, _ => false

/-- Equality with an integer, exact at any size. -/
def eqvInt (x : Binary64) (i : Int) : Bool :=
  x.toInt? == some i

end Binary64

end Overlay
