import Homing.Decimal.Binary

/-!
# The fewest digits that read back

`shortest` writes a float with the fewest significant digits from which it can
be read back, always with a plain point and never with an exponent. Of the
decimals with that many digits it takes the one nearest to the value, and the
greater of two that are equally near. Whole numbers have no point, and zero
keeps its sign.

The reals that are read back as a float `m * 2 ^ q` form an interval around it,
which reaches half-way to either neighbour and holds its ends when `m` is even.
The search goes through the multiples of ever smaller powers of ten until one of
them is in that interval; only the two multiples next to the value need a look.
-/

namespace Homing.Decimal

/-- The reals that are read back as one float, with the float's own value. -/
structure Interval where
  low : Ratio
  value : Ratio
  high : Ratio
  /-- The ends belong to the interval. -/
  closed : Bool

namespace Interval

/-- The interval of `m * 2 ^ q`. Below a power of two the lower neighbour is only
half as far away, unless the exponent is already the least one. -/
def ofBinary (m : Nat) (q : Int) : Interval where
  low :=
    if m = leadingBit ∧ q ≠ -1074 then .ofBinary (4 * m - 1) (q - 2)
    else .ofBinary (4 * m - 2) (q - 2)
  value := .ofBinary (4 * m) (q - 2)
  high := .ofBinary (4 * m + 2) (q - 2)
  closed := m % 2 = 0

/-- The interval with its decimal point moved. -/
def scale (k : Int) (i : Interval) : Interval where
  low := i.low.scale k
  value := i.value.scale k
  high := i.high.scale k
  closed := i.closed

/-- Whether a whole number is in the interval. -/
def contains (i : Interval) (n : Nat) : Bool :=
  (i.low.isLt n || (i.closed && i.low.isLe n)) &&
    (!i.high.isLe n || (i.closed && !i.high.isLt n))

/-- The whole number in the interval that is nearest to its value, if any is in
it. -/
def nearest? (i : Interval) : Option Nat :=
  let n := i.value.floor
  match i.contains n, i.contains (n + 1) with
  | true, true =>
    if 2 * (i.value.num % i.value.den) < i.value.den then some n else some (n + 1)
  | true, false => some n
  | false, true => some (n + 1)
  | false, false => none

/-- The decimal `n * 10 ^ k` with the greatest exponent, at most the one given,
that is in the interval. -/
def coarsest (i : Interval) : Nat → Int → Nat × Int
  | 0, k => (i.value.floor, k)
  | fuel + 1, k =>
    match (i.scale (-k)).nearest? with
    | some n => (n, k)
    | none => i.coarsest fuel (k - 1)

end Interval

/-- The number of decimal digits of a whole number. -/
def digitCount (n : Nat) : Nat := (Nat.toDigits 10 n).length

/-- An exponent `k` for which `10 ^ k` is above the value, by a factor of at most
a hundred. -/
def exponentAbove (r : Ratio) : Int :=
  if r.den ≤ r.num then digitCount r.floor else 2 - digitCount (r.den / r.num)

/-- The digits and the exponent of the shortest decimal of `m * 2 ^ q`. Two
exponents above the leading digit and seventeen below it always suffice. -/
def shortestDigits (m : Nat) (q : Int) : Nat × Int :=
  let i := Interval.ofBinary m q
  i.coarsest 24 (exponentAbove i.value)

/-- The decimal `n * 10 ^ k`, written with a plain point. -/
def positional (n : Nat) (k : Int) : String :=
  let digits := Nat.toDigits 10 n
  if 0 ≤ k then String.ofList (digits ++ List.replicate k.toNat '0')
  else
    let places := (-k).toNat
    let padded := List.replicate (places + 1 - digits.length) '0' ++ digits
    let whole := padded.length - places
    String.ofList (padded.take whole ++ '.' :: padded.drop whole)

/-- The sign of a number that is written out. -/
def sign (negative : Bool) : String := if negative then "-" else ""

/-- A float with the fewest digits that read back. -/
def shortest (x : Float) : String :=
  match Binary.ofFloat x with
  | .nan => "NaN"
  | .infinite negative => sign negative ++ "inf"
  | .finite negative 0 _ => sign negative ++ "0"
  | .finite negative m q =>
    let (n, k) := shortestDigits m q
    sign negative ++ positional n k

/-- A float with the fewest digits that read back, and at least one digit after
the point, so that it cannot be taken for a whole number. -/
def shortestWithPoint (x : Float) : String :=
  let text := shortest x
  match Binary.ofFloat x with
  | .finite .. => if text.toList.contains '.' then text else text ++ ".0"
  | _ => text

end Homing.Decimal
