import Overlay.Datum

/-!
# Error codes

A code is a prefix and a number, written `PREFIX-NNNN`; category and phase go with it but do not
tell two codes apart. The predefined codes have one prefix and fall into blocks of a thousand by
the kind of failure. A code's digest is coarser than the code: numbers go into it modulo a prime. A
code can also be compared with a prefix and a number that may be any data.
-/

namespace Overlay.Error
set_option autoImplicit false

/-- Where a failure came up. -/
inductive Phase where
  | access
  | resolve
  | define
  | outers
  | config
  | internal
  deriving DecidableEq, Repr

/-- What a failure is about. -/
inductive Category where
  | typeViolation
  | notCallable
  | frozenObject
  | nullBase
  | primitiveBase
  | undefinedName
  | badOption
  | missingMitigator
  | duplicateShadow
  | internalError
  deriving DecidableEq, Repr

/-- The phases, in order. -/
def Phase.all : List Phase :=
  [.access, .resolve, .define, .outers, .config, .internal]

/-- The word for a phase. -/
def Phase.word : Phase → Text
  | .access => "access"
  | .resolve => "resolve"
  | .define => "define"
  | .outers => "outers"
  | .config => "config"
  | .internal => "internal"

/-- The phase that a word names. -/
def Phase.ofWord? (s : Text) : Option Phase :=
  Phase.all.find? (·.word == s)

/-- The categories, in order. -/
def Category.all : List Category :=
  [.typeViolation, .notCallable, .frozenObject, .nullBase, .primitiveBase, .undefinedName,
    .badOption, .missingMitigator, .duplicateShadow, .internalError]

/-- The word for a category. -/
def Category.word : Category → Text
  | .typeViolation => "TYPE_VIOLATION"
  | .notCallable => "NOT_CALLABLE"
  | .frozenObject => "FROZEN_OBJECT"
  | .nullBase => "NULL_BASE"
  | .primitiveBase => "PRIMITIVE_BASE"
  | .undefinedName => "UNDEFINED_NAME"
  | .badOption => "BAD_OPTION"
  | .missingMitigator => "MISSING_REWRITER"
  | .duplicateShadow => "DUPLICATE_SHADOW"
  | .internalError => "INTERNAL_ERROR"

/-- The category that a word names. -/
def Category.ofWord? (s : Text) : Option Category :=
  Category.all.find? (·.word == s)

/-- The place of a category in the order, counted from one. -/
def Category.number (c : Category) : Nat :=
  Category.all.idxOf c + 1

/-- A structured error code. -/
structure Code where
  pre : PlainDatum
  number : Int
  category : Category
  phase : Phase

namespace Code

/-- Zeros that bring a text to the given width. -/
def padding (width : Nat) (ds : List Char) : List Char :=
  List.replicate (width - ds.length) '0'

/-- A number with at least four characters; a minus sign is one of them. -/
def numberText (n : Int) : Text :=
  let ds := Nat.toDigits 10 n.natAbs
  String.ofList (if n < 0 then '-' :: (padding 3 ds ++ ds) else padding 4 ds ++ ds)

/-- The text of a code. -/
def text (c : Code) : Text :=
  c.pre.bare ++ "-" ++ numberText c.number

/-- A code with its category, as it is shown in a report about codes. -/
def describe (c : Code) : Text :=
  "ErrorCode(" ++ Text.quote c.text ++ ", " ++ c.category.word ++ ")"

/-- Codes are told apart by prefix and number. -/
def eqv (a b : Code) : Bool :=
  a.pre.eqv b.pre && a.number == b.number

/-- The modulus of digests. -/
def digestModulus : Nat := Nat.pow 2 61 - 1

/-- The digest of a number: its remainder with its sign, minus one being kept free. -/
def digest (n : Int) : Int :=
  let r : Int := n.natAbs % digestModulus
  let d := if n < 0 then -r else r
  if d = -1 then -2 else d

/-- The digest of a quotient by a power of two, which divides by its inverse. -/
def digestShifted (n : Int) (shift : Nat) : Int :=
  digest (n * (Nat.pow 2 ((61 - shift % 61) % 61) : Nat))

/-- The digest of a floating-point number. -/
def digestFloat : Binary64 → Int
  | .finite s m e => digestShifted (Binary64.signed s (m * Nat.pow 2 e.toNat)) (-e).toNat
  | .infinity s => if s then -314159 else 314159

/-- The digest of a datum, if it is a number. -/
def digest? (d : PlainDatum) : Option Int :=
  d.number?.map fun
    | .inl i => digest i
    | .inr x => digestFloat x

/-- Two data go into a digest alike: they are equal, or numbers of one digest. -/
def digestAlike (x y : PlainDatum) : Bool :=
  x.eqv y || ((digest? x).isSome && digest? x == digest? y)

/-- The code has the given prefix and the given number. -/
def hasParts (c : Code) (pre number : PlainDatum) : Bool :=
  c.pre.eqv pre && number.eqv (.int c.number)

/-- The code has the digest of the given prefix and the given number. -/
def digestsAs (c : Code) (pre number : PlainDatum) : Bool :=
  digestAlike c.pre pre && digestAlike (.int c.number) number

/-- Two codes have one digest. -/
def sameDigest (a b : Code) : Bool :=
  a.digestsAs b.pre (.int b.number)

/-- A code equals a text that spells it. -/
def eqvText (c : Code) (s : Text) : Bool :=
  c.text == s

/-- The predefined code of a category. -/
def ofCategory : Category → Code
  | .typeViolation => ⟨.str "VLJ", 2001, .typeViolation, .access⟩
  | .notCallable => ⟨.str "VLJ", 2002, .notCallable, .access⟩
  | .frozenObject => ⟨.str "VLJ", 2003, .frozenObject, .access⟩
  | .nullBase => ⟨.str "VLJ", 2004, .nullBase, .access⟩
  | .primitiveBase => ⟨.str "VLJ", 2005, .primitiveBase, .access⟩
  | .undefinedName => ⟨.str "VLJ", 3001, .undefinedName, .outers⟩
  | .badOption => ⟨.str "VLJ", 4001, .badOption, .config⟩
  | .missingMitigator => ⟨.str "VLJ", 4002, .missingMitigator, .config⟩
  | .duplicateShadow => ⟨.str "VLJ", 9002, .duplicateShadow, .resolve⟩
  | .internalError => ⟨.str "VLJ", 9001, .internalError, .internal⟩

end Code

end Overlay.Error
