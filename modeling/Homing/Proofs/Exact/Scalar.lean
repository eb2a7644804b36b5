import Mathlib.Algebra.Order.Floor.Ring
import Mathlib.Analysis.Real.Sqrt
import Mathlib.Data.Rat.Floor
import Mathlib.Data.Rat.Sqrt
import Homing.Scalar

/-!
# Exact arithmetic

The formulas of the library read over an ordered field: the four operations are those
of the field, the comparisons decide its order, and `Scalar.round` goes to the nearest
whole number within the range of a step counter, a half going away from zero. Of the
square root mostly the sign is used, so `SquareRoot` asks for no more; `ExactRoot` adds
what it does to squares. Over the reals it is the square root itself. Over the rationals
it is exact on the squares of rationals, which is enough to run the simulator on numbers
that a kernel can compute with.
-/

namespace Homing

/-- A root that is zero at zero and positive above it. -/
class SquareRoot (K : Type u) [Zero K] [LT K] where
  sqrt : K → K
  sqrt_zero : sqrt 0 = 0
  sqrt_pos : ∀ {x : K}, 0 < x → 0 < sqrt x

noncomputable instance : SquareRoot ℝ where
  sqrt := Real.sqrt
  sqrt_zero := Real.sqrt_zero
  sqrt_pos := Real.sqrt_pos.2

instance : SquareRoot ℚ where
  sqrt := Rat.sqrt
  sqrt_zero := rfl
  sqrt_pos {x} hx := by
    have hnum : 0 < Int.sqrt x.num := by
      have hle : 1 ≤ x.num.toNat := by
        have := Rat.num_pos.2 hx
        omega
      exact Int.natCast_pos.2 (Nat.sqrt_pos.2 hle)
    have hden : 0 < Nat.sqrt x.den := Nat.sqrt_pos.2 x.den_pos
    rw [Rat.sqrt, Rat.mkRat_eq_div]
    positivity

/-- A root that takes a square back to the number that was squared, without its sign. -/
class ExactRoot (K : Type u) [Field K] [LinearOrder K] [SquareRoot K] : Prop where
  sqrt_mul_self : ∀ x : K, SquareRoot.sqrt (x * x) = |x|

instance : ExactRoot ℝ := ⟨Real.sqrt_mul_self_eq_abs⟩

instance : ExactRoot ℚ := ⟨Rat.sqrt_eq⟩

variable {K : Type u} [Field K] [LinearOrder K]

/-- A whole number cut to the range of a step counter. -/
def clampSteps (n : Int) : Int := max (-2 ^ 63) (min (2 ^ 63 - 1) n)

/-- The whole number nearest to an element of a field, a half going away from zero. -/
def nearest [FloorRing K] (x : K) : Int := if 0 ≤ x then ⌊x + 1 / 2⌋ else -⌊-x + 1 / 2⌋

instance exactScalar [FloorRing K] [SquareRoot K] : Scalar K where
  ofScientific mantissa negative exponent :=
    if negative then (mantissa : K) / 10 ^ exponent else (mantissa : K) * 10 ^ exponent
  sqrt := SquareRoot.sqrt
  abs x := |x|
  lt a b := decide (a < b)
  le a b := decide (a ≤ b)
  eq a b := decide (a = b)
  ofInt n := n
  round x := clampSteps (nearest x)

namespace Scalar

variable [FloorRing K] [SquareRoot K]

@[simp] theorem lt_exact (a b : K) : Scalar.lt a b = decide (a < b) := rfl

@[simp] theorem le_exact (a b : K) : Scalar.le a b = decide (a ≤ b) := rfl

@[simp] theorem eq_exact (a b : K) : Scalar.eq a b = decide (a = b) := rfl

@[simp] theorem abs_exact (a : K) : Scalar.abs a = |a| := rfl

@[simp] theorem ofInt_exact (n : Int) : (Scalar.ofInt n : K) = n := rfl

theorem sqrt_exact (a : K) : Scalar.sqrt a = SquareRoot.sqrt a := rfl

theorem ofScientific_exact (mantissa : Nat) (negative : Bool) (exponent : Nat) :
    (OfScientific.ofScientific mantissa negative exponent : K) =
      if negative then (mantissa : K) / 10 ^ exponent else (mantissa : K) * 10 ^ exponent := rfl

@[simp] theorem zero_exact : (0.0 : K) = 0 := by
  rw [ofScientific_exact]
  simp

@[simp] theorem one_exact [IsStrictOrderedRing K] : (1.0 : K) = 1 := by
  rw [ofScientific_exact]
  norm_num

@[simp] theorem two_exact [IsStrictOrderedRing K] : (2.0 : K) = 2 := by
  rw [ofScientific_exact]
  norm_num

@[simp] theorem minute_exact [IsStrictOrderedRing K] : (60000.0 : K) = 60000 := by
  rw [ofScientific_exact]
  norm_num

@[simp] theorem min_exact (a b : K) : Scalar.min a b = Min.min a b := by
  unfold Scalar.min
  by_cases hab : a < b
  · simp [hab, hab.le]
  · simp [hab, not_lt.1 hab]

variable [IsStrictOrderedRing K]

/-- A whole number in the range of a step counter is its own nearest one. -/
theorem round_ofInt {n : Int} (hn : clampSteps n = n) : Scalar.round (Scalar.ofInt n : K) = n := by
  have hnearest : nearest (n : K) = n := by
    have half (k : Int) : ⌊(k : K) + 1 / 2⌋ = k := by
      rw [Int.floor_eq_iff]
      constructor
      · linarith [show (0 : K) < 1 / 2 by norm_num]
      · linarith [show (1 / 2 : K) < 1 by norm_num]
    unfold nearest
    by_cases h0 : (0 : K) ≤ n
    · rw [if_pos h0, half]
    · rw [if_neg h0, ← Int.cast_neg, half, neg_neg]
  have hround : Scalar.round (Scalar.ofInt n : K) = clampSteps (nearest (n : K)) := rfl
  rw [hround, hnearest, hn]

/-- What was rounded once is not changed by going there and back. -/
theorem round_ofInt_round (x : K) :
    Scalar.round (Scalar.ofInt (Scalar.round x) : K) = Scalar.round x := by
  apply round_ofInt
  have hround : Scalar.round x = clampSteps (nearest x) := rfl
  rw [hround]
  unfold clampSteps
  omega

end Scalar

end Homing
