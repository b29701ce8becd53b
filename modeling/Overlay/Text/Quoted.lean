import Overlay.Text.Printable

/-!
# Quoted text

A text is shown between single quotes, or between double quotes when it holds a single quote and
no double one. The quote in use and the backslash are escaped, the line feed, the carriage return
and the tab have their short names, and any other rune that does not show is written by its code
point with two, four or eight hexadecimal digits.
-/

namespace Overlay.Text
set_option autoImplicit false

/-- A hexadecimal digit in lower case. -/
def hexDigit (n : Nat) : Char :=
  if n < 10 then Char.ofNat (0x30 + n) else Char.ofNat (0x57 + n)

/-- The lowest `width` hexadecimal digits of `n`, the highest first. -/
def hexDigits : Nat → Nat → Text
  | 0, _ => []
  | width + 1, n => hexDigits width (n / 16) ++ [.char (hexDigit (n % 16))]

/-- A rune that does not show, by its code point. -/
def escapeCode (n : Nat) : Text :=
  if n < 0x100 then "\\x" ++ hexDigits 2 n
  else if n < 0x10000 then "\\u" ++ hexDigits 4 n
  else "\\U" ++ hexDigits 8 n

/-- One rune of a text between the quotes `q`. -/
def quoteRune (q r : Rune) : Text :=
  if r == q || r == '\\' then ['\\', r]
  else if r == '\n' then "\\n"
  else if r == '\r' then "\\r"
  else if r == '\t' then "\\t"
  else if isPrintable r then [r]
  else escapeCode r.toNat

/-- The quote that a text is shown between. -/
def quoteMark (t : Text) : Rune :=
  if t.contains (.char '\'') && !t.contains (.char '"') then '"' else '\''

/-- A text between quotes. -/
def quote (t : Text) : Text :=
  let q := quoteMark t
  q :: t.flatMap (quoteRune q) ++ [q]

end Overlay.Text
