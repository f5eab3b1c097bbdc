/-!
# Ranges of code points

A property of characters is given by a table of closed ranges of code points.  `Ranges` is the
type of such tables, and `table.covers c` says that the code point of `c` lies in one of its
ranges.
-/

namespace Mientras.Text

/-- A table of closed ranges of code points, each given by its least and its greatest member. -/
abbrev Ranges := List (Nat × Nat)

/-- The code point of `c` lies in one of the ranges of the table. -/
def Ranges.covers (table : Ranges) (c : Char) : Bool :=
  table.any fun r => r.1 ≤ c.toNat && c.toNat ≤ r.2

theorem Ranges.covers_iff (table : Ranges) (c : Char) :
  table.covers c = true ↔ ∃ r ∈ table, r.1 ≤ c.toNat ∧ c.toNat ≤ r.2
  := by
  simp [Ranges.covers]

end Mientras.Text
