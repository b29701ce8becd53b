/-!
# Sets of code points as closed ranges

A character class is listed as closed ranges of code points. `Span.mem` is the membership test
that every table of this library goes through; `Span.mem_iff` is all that a proof needs of it.
-/

namespace Overlay.Text
set_option autoImplicit false

/-- The first and the last code point of a run of code points. -/
abbrev Span := Nat × Nat

namespace Span

/-- Some span of the table holds the code point `n`. -/
def mem (table : List Span) (n : Nat) : Bool :=
  table.any fun s => decide (s.1 ≤ n) && decide (n ≤ s.2)

theorem mem_iff {table : List Span} {n : Nat} :
    mem table n = true ↔ ∃ s ∈ table, s.1 ≤ n ∧ n ≤ s.2 := by
  simp [mem]

end Span

end Overlay.Text
