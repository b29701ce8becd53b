import Overlay.Text.Rune
import Overlay.Text.Span

/-!
# White space

The white space of this library is the set of characters that separate words in any script,
together with the four separator controls U+001C to U+001F. The zero width space and the byte
order mark are no white space. `trim` takes it off both ends of a text.
-/

namespace Overlay.Text
set_option autoImplicit false

/-- The white space characters, as closed ranges of code points. -/
def blankSpans : List Span :=
  [(0x09, 0x0D), (0x1C, 0x20), (0x85, 0x85), (0xA0, 0xA0), (0x1680, 0x1680), (0x2000, 0x200A),
    (0x2028, 0x2029), (0x202F, 0x202F), (0x205F, 0x205F), (0x3000, 0x3000)]

/-- White space. -/
def isBlank (r : Rune) : Bool :=
  Span.mem blankSpans r.toNat

/-- A text without the white space it starts with. -/
def trimLeft (t : Text) : Text :=
  t.dropWhile isBlank

/-- A text without the white space it ends with. -/
def trimRight (t : Text) : Text :=
  (t.reverse.dropWhile isBlank).reverse

/-- A text without the white space at either end. -/
def trim (t : Text) : Text :=
  trimRight (trimLeft t)

end Overlay.Text
