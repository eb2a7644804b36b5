/-!
# Ranges of characters

A class of characters is kept as a table of the ranges of its code points, with
both their ends, in ascending order. The tables of this library follow version 17
of the Unicode character database.
-/

namespace Homing.Text

/-- Ranges of code points, with both their ends. -/
abbrev Ranges := List (Nat × Nat)

namespace Ranges

/-- Whether a character is in one of the ranges. -/
def contains (rs : Ranges) (c : Char) : Bool :=
  rs.any fun r => r.1 ≤ c.toNat && c.toNat ≤ r.2

end Ranges

end Homing.Text
