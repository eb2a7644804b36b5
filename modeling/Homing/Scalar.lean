/-!
# Scalars

Lengths, rates and times are computed in a type `α` with `Scalar α`: the four
operations, square root, absolute value, three comparisons that answer with a
`Bool`, and the two conversions to and from whole steps. Nothing is assumed
about these operations. The running machine takes `α` to be `Float`, whose
comparisons are all false at a value that is not a number, so no ordering law
can be asked for here.

Every formula of the library keeps one fixed order of operations, because a
binary64 sum depends on it.
-/

namespace Homing

/-- The arithmetic of lengths, rates and times. Decimal constants come from
`OfScientific`, so that `1.1` means the nearest value of `α`. -/
class Scalar (α : Type u) extends Add α, Sub α, Mul α, Div α, Neg α, OfScientific α where
  /-- The square root. -/
  sqrt : α → α
  /-- The absolute value. -/
  abs : α → α
  /-- Strictly less. -/
  lt : α → α → Bool
  /-- Less or equal. -/
  le : α → α → Bool
  /-- Equal as numbers: the two zeros are equal, and a value that is not a
  number differs from itself. -/
  eq : α → α → Bool
  /-- The scalar nearest to a whole number. -/
  ofInt : Int → α
  /-- The nearest whole number, a half going away from zero. It is cut to the
  64-bit range of a step counter, and is 0 for what is not a number. -/
  round : α → Int

namespace Scalar

/-- The smaller of two scalars. A value that is not a number is passed over in
favour of the other one, and of two equal values the second is kept, which shows where
they are two zeros. -/
def min [Scalar α] (a b : α) : α := if lt a b || !eq b b then a else b

end Scalar

instance : Scalar Float where
  sqrt := Float.sqrt
  abs := Float.abs
  lt a b := decide (a < b)
  le a b := decide (a ≤ b)
  eq a b := a == b
  ofInt := Float.ofInt
  round x := x.round.toInt64.toInt

end Homing
