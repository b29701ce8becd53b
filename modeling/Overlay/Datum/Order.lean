import Overlay.Datum

/-!
# The order of data

Numbers are ordered by value whatever their kind, texts by their code points, and lists by the first
items that differ, a shorter list before a longer one that starts with it. What is no number is less
than nothing and nothing is less than it. Between other data there is no order.
-/

namespace Overlay
set_option autoImplicit false

namespace Binary64

/-- A finite number as a numerator and the exponent of a denominator that is a power of two. -/
def fraction (negative : Bool) (mantissa : Nat) (exponent : Int) : Int × Nat :=
  (signed negative (mantissa * Nat.pow 2 exponent.toNat), (-exponent).toNat)

/-- The first of two fractions is the less one. -/
def lessFraction (a b : Int × Nat) : Bool :=
  decide (a.1 * (Nat.pow 2 b.2 : Nat) < b.1 * (Nat.pow 2 a.2 : Nat))

/-- The first of two numbers is the less one. -/
def isLess : Binary64 → Binary64 → Bool
  | .finite s m e, .finite s' m' e' => lessFraction (fraction s m e) (fraction s' m' e')
  | .infinity s, .infinity s' => s && !s'
  | .infinity s, .finite _ _ _ => s
  | .finite _ _ _, .infinity s => !s

/-- The number is less than an integer. -/
def isLessInt (x : Binary64) (i : Int) : Bool :=
  match x with
  | .finite s m e => lessFraction (fraction s m e) (i, 0)
  | .infinity s => s

/-- The integer is less than the number. -/
def isMoreInt (x : Binary64) (i : Int) : Bool :=
  match x with
  | .finite s m e => lessFraction (i, 0) (fraction s m e)
  | .infinity s => !s

end Binary64

namespace Datum

variable {ρ : Type}

/-- The order of numbers across their kinds. -/
def lessNumber : Int ⊕ Binary64 → Int ⊕ Binary64 → Bool
  | .inl i, .inl j => decide (i < j)
  | .inl i, .inr x => x.isMoreInt i
  | .inr x, .inl i => x.isLessInt i
  | .inr x, .inr y => x.isLess y

/-- The datum is a number, or what stands for none. -/
def isNumeric : Datum ρ → Bool
  | .nan _ => true
  | d => d.number?.isSome

/-- The order of data that have no parts; none if there is no order between them. -/
def lessLeaf? (x y : Datum ρ) : Option Bool :=
  match x, y with
  | .str s, .str t => some (decide (s.points < t.points))
  | _, _ =>
    match x.number?, y.number? with
    | some a, some b => some (lessNumber a b)
    | _, _ => if x.isNumeric && y.isNumeric then some false else none

mutual

/-- The first of two data is the less one; none if there is no order between them. -/
def isLess? [BEq ρ] : Datum ρ → Datum ρ → Option Bool
  | .list _ xs, .list _ ys => lessItems? xs ys
  | x, y => lessLeaf? x y

/-- The first of two lists is the less one. -/
def lessItems? [BEq ρ] : List (Datum ρ) → List (Datum ρ) → Option Bool
  | _, [] => some false
  | [], _ :: _ => some true
  | x :: xs, y :: ys => if eqv x y then lessItems? xs ys else isLess? x y

end

end Datum

end Overlay
