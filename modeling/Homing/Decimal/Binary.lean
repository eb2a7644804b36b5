/-!
# The exact value of a float

`Binary.ofFloat` takes a 64-bit float apart: a finite one is `m * 2 ^ q` with a
sign, for whole numbers `m` and `q`. The printers of this folder work on that
value in exact arithmetic. `Ratio` is such a value without its sign as a quotient
of natural numbers, and `Ratio.scale` moves its decimal point.
-/

namespace Homing.Decimal

/-- What a 64-bit float stands for. -/
inductive Binary where
  | nan
  | infinite (negative : Bool)
  /-- The value `mantissa * 2 ^ exponent`. Zero has a sign too. -/
  | finite (negative : Bool) (mantissa : Nat) (exponent : Int)
deriving DecidableEq, Repr

/-- The leading bit of a float that is not written out, as a mantissa. -/
def leadingBit : Nat := 0x10000000000000

/-- The value of a float. The exponent field 0 marks the values without a leading bit,
and 2047 those that are not finite. -/
def Binary.ofFloat (x : Float) : Binary :=
  let bits := x.toBits.toNat
  let negative := bits.testBit 63
  let exponent : Nat := bits / leadingBit % 2048
  let fraction := bits % leadingBit
  if exponent = 2047 then if fraction = 0 then .infinite negative else .nan
  else if exponent = 0 then .finite negative fraction (-1074)
  else .finite negative (leadingBit + fraction) (exponent - 1075)

/-- A quotient of natural numbers. -/
structure Ratio where
  num : Nat
  den : Nat
deriving DecidableEq, Repr

namespace Ratio

/-- The quotient `m * 2 ^ q`. -/
def ofBinary (m : Nat) (q : Int) : Ratio :=
  if 0 ≤ q then ⟨m <<< q.toNat, 1⟩ else ⟨m, 1 <<< (-q).toNat⟩

/-- The quotient times `10 ^ k`. -/
def scale (k : Int) (r : Ratio) : Ratio :=
  if 0 ≤ k then ⟨r.num * Nat.pow 10 k.toNat, r.den⟩
  else ⟨r.num, r.den * Nat.pow 10 (-k).toNat⟩

/-- The whole number below the quotient or equal to it. -/
def floor (r : Ratio) : Nat := r.num / r.den

/-- The nearest whole number, the even one of two that are equally near. -/
def roundEven (r : Ratio) : Nat :=
  let n := r.num / r.den
  let rest := 2 * (r.num % r.den)
  if rest < r.den then n
  else if r.den < rest then n + 1
  else if n % 2 = 0 then n else n + 1

/-- Whether a whole number is above the quotient. -/
def isLt (r : Ratio) (n : Nat) : Bool := r.num < n * r.den

/-- Whether a whole number is above the quotient or equal to it. -/
def isLe (r : Ratio) (n : Nat) : Bool := r.num ≤ n * r.den

end Ratio

end Homing.Decimal
