import Overlay.Text.Digit

/-!
# Texts without machine identities

Where a thing lies in memory differs from run to run, so no text that goes into a transcript may tell
it. `scrub` takes every address out of a text and replaces the identity of a plain callable's category
by a fixed word. It looks at the text alone: a text that only looks like an address goes too.
-/

namespace Overlay.Text
set_option autoImplicit false

/-- A hexadecimal digit. -/
def isHexDigit (r : Rune) : Bool :=
  r.satisfies fun c =>
    c.isDigit || (decide ('a' ≤ c) && decide (c ≤ 'f')) || (decide ('A' ≤ c) && decide (c ≤ 'F'))

/-- What stands before the digits of an address. -/
def addressMark : Text := " at 0x"

/-- What stands before the digits of an identity. -/
def identityMark : Text := "('py', "

/-- The text after an address, if the text starts with one. -/
def afterAddress? (t : Text) : Option Text :=
  let digits := t.drop addressMark.length
  if addressMark.isPrefixOf t && digits.head?.any isHexDigit then some (digits.dropWhile isHexDigit)
  else none

/-- The text after an identity, if the text starts with one. -/
def afterIdentity? (t : Text) : Option Text :=
  let digits := t.drop identityMark.length
  if identityMark.isPrefixOf t && digits.head?.any isDecimal then
    match digits.dropWhile isDecimal with
    | .char ')' :: rest => some rest
    | _ => none
  else none

/-- Replaces each match of a pattern, which `after?` gives the rest of, from left to right. -/
def replaceAll (after? : Text → Option Text) (replacement : Text) : Nat → Text → Text
  | 0, t => t
  | _ + 1, [] => []
  | fuel + 1, r :: t =>
    match after? (r :: t) with
    | some rest => replacement ++ replaceAll after? replacement fuel rest
    | none => r :: replaceAll after? replacement fuel t

/-- A text without addresses and identities. Each step goes at least one rune further, so the length of
the text is fuel enough. -/
def scrub (t : Text) : Text :=
  let t := replaceAll afterAddress? [] t.length t
  replaceAll afterIdentity? "('py', id)" t.length t

end Overlay.Text
