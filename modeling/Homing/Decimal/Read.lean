import Homing.Decimal.Shortest

/-!
# Reading decimals

`ofDigits mantissa exponent` is the float nearest to `mantissa * 10 ^ exponent`.
A decimal that is far outside the range of floats is infinite or zero at once, so
that no huge power of ten is ever built.

`read?` reads a float by itself: an optional sign, then the word `inf`,
`infinity` or `nan` in any case, or digits with an optional point and an optional
exponent.
-/

namespace Homing.Decimal

/-- The float nearest to `mantissa * 10 ^ exponent`. -/
def ofDigits (mantissa : Nat) (exponent : Int) : Float :=
  let magnitude := exponent + digitCount mantissa
  if mantissa = 0 then 0.0
  else if 400 < magnitude then 1.0 / 0.0
  else if magnitude < -400 then 0.0
  else if 0 ≤ exponent then Float.ofScientific mantissa false exponent.toNat
  else Float.ofScientific mantissa true (-exponent).toNat

/-- A float with a sign put before it. -/
def withSign (negative : Bool) (x : Float) : Float := if negative then -x else x

/-- The value of a digit to the base `base`. -/
def digit? (base : Nat) (c : Char) : Option Nat :=
  let value :=
    if c.isDigit then c.toNat - '0'.toNat
    else if 'a' ≤ c ∧ c ≤ 'f' then c.toNat - 'a'.toNat + 10
    else if 'A' ≤ c ∧ c ≤ 'F' then c.toNat - 'A'.toNat + 10
    else base
  if value < base then some value else none

/-- The number that digits write to a base. Characters that are no digits of that
base are passed over. -/
def ofDigitChars (base : Nat) (cs : List Char) : Nat :=
  (cs.filterMap (digit? base)).foldl (fun n d => n * base + d) 0

/-- A text without the sign it may begin with, and whether that is a minus. -/
def splitSign : List Char → Bool × List Char
  | '-' :: cs => (true, cs)
  | '+' :: cs => (false, cs)
  | cs => (false, cs)

/-- The exponent that a text writes, which is an optional sign and digits. -/
def exponent? (cs : List Char) : Option Int :=
  let (negative, digits) := splitSign cs
  if digits.isEmpty || !digits.all Char.isDigit then none
  else
    let n : Int := ofDigitChars 10 digits
    some (if negative then -n else n)

/-- The float of digits before and after a point and an exponent. -/
def ofParts (whole fraction : List Char) (exponent : Int) : Float :=
  ofDigits (ofDigitChars 10 (whole ++ fraction)) (exponent - fraction.length)

/-- The float that an unsigned text writes with digits. -/
def readDigits? (cs : List Char) : Option Float :=
  let whole := cs.takeWhile Char.isDigit
  let rest := cs.dropWhile Char.isDigit
  let (fraction, rest) :=
    match rest with
    | '.' :: more => (more.takeWhile Char.isDigit, more.dropWhile Char.isDigit)
    | _ => ([], rest)
  if whole.isEmpty && fraction.isEmpty then none
  else match rest with
    | [] => some (ofParts whole fraction 0)
    | e :: more => if e = 'e' ∨ e = 'E' then (exponent? more).map (ofParts whole fraction) else none

/-- The float that a text writes. -/
def read? (text : String) : Option Float :=
  let (negative, cs) := splitSign text.toList
  let word := String.ofList (cs.map Char.toLower)
  let magnitude :=
    if word = "inf" ∨ word = "infinity" then some (1.0 / 0.0)
    else if word = "nan" then some (0.0 / 0.0)
    else readDigits? cs
  magnitude.map (withSign negative)

end Homing.Decimal
