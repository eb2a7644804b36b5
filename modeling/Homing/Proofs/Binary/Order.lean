import Mathlib.Data.Prod.Lex
import Homing.Proofs.Exact.Scalar

/-!
# The order behind the comparisons

A plan compares times and pull-offs, and what it makes of them only needs that the comparisons
order the numbers, the values that equal themselves (`LawfulComparisons`). Exact arithmetic is of
this kind, and so is binary64: away from the value that is no number, `rank` reads its comparison
as that of triples of integers.
-/

namespace Homing

/-- A value is a number if it equals itself. -/
def Scalar.IsNumber {α : Type u} [Scalar α] (x : α) : Prop := Scalar.eq x x = true

instance {α : Type u} [Scalar α] (x : α) : Decidable (Scalar.IsNumber x) :=
  inferInstanceAs (Decidable (Scalar.eq x x = true))

/-- The strict comparison is an order on the numbers, in which values that neither comes before
the other of are interchangeable, and nothing else is below anything. -/
class LawfulComparisons (α : Type u) [Scalar α] : Prop where
  lt_irrefl : ∀ x : α, Scalar.lt x x = false
  lt_trans : ∀ {x y z : α}, Scalar.lt x y = true → Scalar.lt y z = true → Scalar.lt x z = true
  lt_or_lt : ∀ {x y z : α}, Scalar.lt x z = true → Scalar.IsNumber y →
    Scalar.lt x y = true ∨ Scalar.lt y z = true
  isNumber_of_lt : ∀ {x y : α}, Scalar.lt x y = true → Scalar.IsNumber x

theorem LawfulComparisons.lt_asymm {α : Type u} [Scalar α] [LawfulComparisons α] {x y : α}
    (h : Scalar.lt x y = true) : Scalar.lt y x = false := by
  rw [← Bool.not_eq_true]
  intro hback
  have hself := LawfulComparisons.lt_trans h hback
  rw [LawfulComparisons.lt_irrefl] at hself
  cases hself

instance {K : Type u} [Field K] [LinearOrder K] [FloorRing K] [SquareRoot K] :
    LawfulComparisons K where
  lt_irrefl x := by simp
  lt_trans := by
    intro x y z hxy hyz
    simp only [Scalar.lt_exact, decide_eq_true_eq] at *
    exact hxy.trans hyz
  lt_or_lt := by
    intro x y z hxz _
    simp only [Scalar.lt_exact, decide_eq_true_eq] at *
    exact (lt_or_ge x y).imp_right fun hyx => hyx.trans_lt hxz
  isNumber_of_lt _ := by simp [Scalar.IsNumber]

namespace Binary

open Float.Model (UnpackedFloat)

/-- The place of a binary64 value in their order. The value that is no number has none, and gets
one only to make this total. -/
def rank : UnpackedFloat → ℤ ×ₗ ℤ ×ₗ ℤ
  | .infinity .negative => toLex (-2, toLex (0, 0))
  | .finite .negative mantissa exponent _ => toLex (-1, toLex (-exponent, -mantissa))
  | .zero _ => toLex (0, toLex (0, 0))
  | .finite .positive mantissa exponent _ => toLex (1, toLex (exponent, mantissa))
  | .infinity .positive => toLex (2, toLex (0, 0))
  | .notANumber => toLex (3, toLex (0, 0))

theorem then_eq_lt_iff (e e' : ℤ) (m m' : ℕ) :
    (compare e e').then (compare m m') = .lt ↔ e < e' ∨ e = e' ∧ m < m' := by
  rw [Ordering.then_eq_lt, Int.compare_eq_lt, Int.compare_eq_eq, Nat.compare_eq_lt]

theorem then_eq_gt_iff (e e' : ℤ) (m m' : ℕ) :
    (compare e e').then (compare m m') = .gt ↔ e' < e ∨ e = e' ∧ m' < m := by
  rw [Ordering.then_eq_gt, Int.compare_eq_gt, Int.compare_eq_eq, Nat.compare_eq_gt]

theorem compare_signs : compare UnpackedFloat.Sign.negative UnpackedFloat.Sign.positive = .lt ∧
    ∀ s : UnpackedFloat.Sign, compare s s = .eq :=
  ⟨by decide, fun s => by cases s <;> decide⟩

/-- One value is below another when neither is the one that is no number and its rank is lower. -/
theorem compare_eq_lt_iff (x y : UnpackedFloat) :
    x.compare y = some .lt ↔ x ≠ .notANumber ∧ y ≠ .notANumber ∧ rank x < rank y := by
  -- Two finite values of one sign compare by exponent and mantissa, all others by their forms.
  rcases x with (_ | _) | _ | (_ | _) | ⟨_ | _, m, e, _⟩ <;>
    rcases y with (_ | _) | _ | (_ | _) | ⟨_ | _, m', e', _⟩ <;>
    dsimp only [UnpackedFloat.compare, rank] <;>
    simp [↓ne_eq, ↓reduceCtorEq, Prod.Lex.toLex_lt_toLex, then_eq_lt_iff, then_eq_gt_iff,
      compare_signs.1]

theorem lt_iff (x y : Float) : Scalar.lt x y = true ↔ x.toModel.unpack ≠ .notANumber ∧
    y.toModel.unpack ≠ .notANumber ∧ rank x.toModel.unpack < rank y.toModel.unpack := by
  have hdecide : Scalar.lt x y = decide (x < y) := rfl
  have hlt : x < y ↔ (x.toModel.unpack.compare y.toModel.unpack == some .lt) = true := by
    show decide (x.toModel < y.toModel) = true ↔ _
    rw [decide_eq_true_iff]
    rfl
  rw [hdecide, decide_eq_true_iff, hlt, beq_iff_eq, compare_eq_lt_iff]

theorem compare_self_iff (x : UnpackedFloat) : x.compare x = some .eq ↔ x ≠ .notANumber := by
  rcases x with (_ | _) | _ | (_ | _) | ⟨_ | _, m, e, _⟩ <;>
    dsimp only [UnpackedFloat.compare] <;>
    simp [↓ne_eq, ↓reduceCtorEq, compare_signs.2]

theorem isNumber_iff (x : Float) : Scalar.IsNumber x ↔ x.toModel.unpack ≠ .notANumber := by
  have hbeq : Scalar.IsNumber x ↔ (x.toModel.unpack.compare x.toModel.unpack == some .eq) = true :=
    Iff.rfl
  rw [hbeq, beq_iff_eq, compare_self_iff]

end Binary

open Binary in
instance : LawfulComparisons Float where
  lt_irrefl x := by
    rw [← Bool.not_eq_true, lt_iff]
    exact fun h => lt_irrefl _ h.2.2
  lt_trans := by
    intro x y z hxy hyz
    rw [lt_iff] at *
    exact ⟨hxy.1, hyz.2.1, hxy.2.2.trans hyz.2.2⟩
  lt_or_lt := by
    intro x y z hxz hy
    rw [isNumber_iff] at hy
    rw [lt_iff] at hxz
    rw [lt_iff, lt_iff]
    rcases lt_or_ge (rank x.toModel.unpack) (rank y.toModel.unpack) with hlt | hge
    · exact .inl ⟨hxz.1, hy, hlt⟩
    · exact .inr ⟨hy, hxz.2.1, hge.trans_lt hxz.2.2⟩
  isNumber_of_lt := by
    intro x y hxy
    rw [lt_iff] at hxy
    rw [isNumber_iff]
    exact hxy.1

end Homing
