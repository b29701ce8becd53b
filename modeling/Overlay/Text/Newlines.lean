import Overlay.Text.Rune

/-!
# Line ends

A text that comes from outside may end its lines in three ways. `unifyNewlines` writes each of them as
one line feed.
-/

namespace Overlay.Text
set_option autoImplicit false

/-- A carriage return, alone or with a line feed after it, becomes one line feed. -/
def unifyNewlines : List Char → List Char
  | [] => []
  | '\r' :: '\n' :: rest => '\n' :: unifyNewlines rest
  | c :: rest => (if c == '\r' then '\n' else c) :: unifyNewlines rest

/-- A text read from bytes: none unless they are UTF-8. -/
def ofBytes? (bytes : ByteArray) : Option Text :=
  (String.fromUTF8? bytes).map fun s => (unifyNewlines s.toList).map .char

end Overlay.Text
