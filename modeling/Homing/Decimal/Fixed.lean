import Homing.Decimal.Shortest

/-!
# A fixed number of decimal places

`fixed places` writes a float rounded to a number of places after the point. The
exact value is rounded, a tie goes to the even digit, and the sign is kept also
where nothing but zeros is left.
-/

namespace Homing.Decimal

/-- A float with a fixed number of digits after the point. -/
def fixed (places : Nat) (x : Float) : String :=
  match Binary.ofFloat x with
  | .nan => "NaN"
  | .infinite negative => sign negative ++ "inf"
  | .finite negative m q =>
    sign negative ++ positional ((Ratio.ofBinary m q).scale places).roundEven (-(places : Int))

end Homing.Decimal
