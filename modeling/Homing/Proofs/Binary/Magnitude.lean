import Homing.Proofs.Binary.Order
import Homing.Proofs.Binary.Rounding

/-!
# How large a binary64 result can be

Each operation is given the bound of its result from those of its operands: the bound of the exact
result, and one more for rounding. The bounds are crude on purpose. They only have to leave room
for the formulas of a plan, which multiply a few quantities and sum up six squares. The other way
round, a product is finite only if both factors are, since neither an infinite value nor one that
is no number is ever multiplied away.
-/

namespace Homing

namespace Binary

open Float.Model (UnpackedFloat Format totalExponent)
open Float.Model.UnpackedFloat (Sign roundWithAccuracy unpack unpackExponent unpackMantissa)

/-! ## Operations -/

/-- The value is finite and its magnitude at least `2 ^ -(l + 1)`. -/
def Above (l : ℕ) : UnpackedFloat → Prop
  | .finite _ m e _ => -(l : ℤ) ≤ totalExponent m e
  | _ => False

theorem log2_mul_le (m n : ℕ) : (m * n).log2 ≤ m.log2 + n.log2 + 1 := by
  by_cases hzero : m * n = 0
  · rw [hzero]
    exact Nat.zero_le _
  · have hlt : m * n < 2 ^ (m.log2 + 1) * 2 ^ (n.log2 + 1) :=
      Nat.mul_lt_mul'' Nat.lt_log2_self Nat.lt_log2_self
    rw [← pow_add] at hlt
    have hlog := (Nat.log2_lt hzero).2 hlt
    omega

theorem log2_add_le (m n : ℕ) : (m + n).log2 ≤ max m.log2 n.log2 + 1 := by
  by_cases hzero : m + n = 0
  · rw [hzero]
    exact Nat.zero_le _
  · have hm : m < 2 ^ (max m.log2 n.log2 + 1) :=
      Nat.lt_log2_self.trans_le (Nat.pow_le_pow_right two_pos (by omega))
    have hn : n < 2 ^ (max m.log2 n.log2 + 1) :=
      Nat.lt_log2_self.trans_le (Nat.pow_le_pow_right two_pos (by omega))
    have hlog : (m + n).log2 < max m.log2 n.log2 + 1 + 1 :=
      (Nat.log2_lt hzero).2 (by rw [pow_succ]; omega)
    omega

theorem log2_div_le (m n : ℕ) (hn : 0 < n) (hle : n ≤ m) : (m / n).log2 + n.log2 ≤ m.log2 := by
  have hquotient : 0 < m / n := Nat.div_pos hle hn
  rw [Nat.le_log2 (by omega), pow_add]
  calc 2 ^ (m / n).log2 * 2 ^ n.log2 ≤ m / n * n :=
        Nat.mul_le_mul (Nat.log2_self_le hquotient.ne') (Nat.log2_self_le hn.ne')
    _ ≤ m := Nat.div_mul_le_self m n

theorem log2_sqrt_le (m : ℕ) : 2 * m.sqrt.log2 ≤ m.log2 := by
  by_cases hzero : m = 0
  · subst hzero
    decide
  · have hroot : 0 < m.sqrt := Nat.sqrt_pos.2 (Nat.pos_of_ne_zero hzero)
    rw [Nat.le_log2 hzero, two_mul, pow_add]
    calc 2 ^ m.sqrt.log2 * 2 ^ m.sqrt.log2 ≤ m.sqrt * m.sqrt :=
          Nat.mul_le_mul (Nat.log2_self_le hroot.ne') (Nat.log2_self_le hroot.ne')
      _ ≤ m := Nat.sqrt_le m

theorem log2_shiftLeft_le (m n : ℕ) : (m <<< n).log2 ≤ m.log2 + n := by
  by_cases hzero : m = 0
  · subst hzero
    simp
  · have hlt : m <<< n < 2 ^ (m.log2 + 1 + n) := by
      rw [Nat.shiftLeft_eq, pow_add]
      exact Nat.mul_lt_mul_of_pos_right Nat.lt_log2_self (Nat.two_pow_pos n)
    have hne : m <<< n ≠ 0 := by
      rw [Nat.shiftLeft_eq]
      exact Nat.mul_ne_zero hzero (Nat.two_pow_pos n).ne'
    have hlog := (Nat.log2_lt hne).2 hlt
    omega

variable {k l : ℕ} {x y : UnpackedFloat} {s t : Sign}

theorem below_mul (hx : Below k x) (hy : Below l y) (hs : Signed s x) (ht : Signed t y) :
    Below (k + l + 1) (UnpackedFloat.mul .binary64 x y) ∧
      Signed (s * t) (UnpackedFloat.mul .binary64 x y) := by
  cases x with
  | infinity => exact hx.elim
  | notANumber => exact hx.elim
  | zero s' =>
      obtain rfl : s' = s := hs
      cases y with
      | infinity => exact hy.elim
      | notANumber => exact hy.elim
      | zero t' => exact ⟨trivial, congrArg _ ht⟩
      | finite t' => exact ⟨trivial, congrArg _ ht⟩
  | finite s' m e hm =>
      obtain rfl : s' = s := hs
      cases y with
      | infinity => exact hy.elim
      | notANumber => exact hy.elim
      | zero t' => exact ⟨trivial, congrArg _ ht⟩
      | finite t' n f hn =>
          obtain rfl : t' = t := ht
          obtain ⟨-, hx, hx'⟩ := hx
          obtain ⟨-, hy, hy'⟩ := hy
          have hlog := log2_mul_le m n
          unfold totalExponent at hx' hy'
          refine below_roundWithAccuracy _ _ (by push_cast; omega) ?_
          unfold totalExponent
          push_cast
          omega

theorem below_round {m : ℕ} {e : ℤ} (he : e + 53 ≤ k + 1) (htop : totalExponent m e ≤ k) :
    Below (k + 1) (UnpackedFloat.round .binary64 s m e) ∧
      Signed s (UnpackedFloat.round .binary64 s m e) := by
  unfold UnpackedFloat.round UnpackedFloat.decreaseExponent
  dsimp only
  generalize (e - Format.binary64.targetExponent (totalExponent m e)).toNat = n
  have hlog := log2_shiftLeft_le m n
  unfold totalExponent at *
  exact below_roundWithAccuracy s _ (by omega) (by unfold totalExponent; omega)

/-- The sum of two values that are not negative. -/
theorem below_add (hx : Below k x) (hy : Below k y) (hs : Signed .positive x)
    (ht : Signed .positive y) : Below (k + 2) (UnpackedFloat.add .binary64 x y) ∧
      Signed .positive (UnpackedFloat.add .binary64 x y) := by
  cases x with
  | infinity => exact hx.elim
  | notANumber => exact hx.elim
  | zero s' =>
      obtain rfl : s' = .positive := hs
      cases y with
      | infinity => exact hy.elim
      | notANumber => exact hy.elim
      | zero t' =>
          obtain rfl : t' = .positive := ht
          exact ⟨trivial, rfl⟩
      | finite t' => exact ⟨hy.mono (Nat.le_add_right k 2), ht⟩
  | finite s' m e hm =>
      obtain rfl : s' = .positive := hs
      cases y with
      | infinity => exact hy.elim
      | notANumber => exact hy.elim
      | zero t' => exact ⟨hx.mono (Nat.le_add_right k 2), rfl⟩
      | finite t' n f hn =>
          obtain rfl : t' = .positive := ht
          obtain ⟨-, hx, hx'⟩ := hx
          obtain ⟨-, hy, hy'⟩ := hy
          unfold totalExponent at hx' hy'
          have hm' := log2_shiftLeft_le m (e - min e f).toNat
          have hn' := log2_shiftLeft_le n (f - min e f).toNat
          have hpos : 0 < m <<< (e - min e f).toNat := by
            rw [Nat.shiftLeft_eq]
            exact Nat.mul_pos hm (Nat.two_pow_pos _)
          have hadd : UnpackedFloat.add .binary64 (.finite .positive m e hm)
              (.finite .positive n f hn) = UnpackedFloat.normalize .binary64
                ((m <<< (e - min e f).toNat : ℕ) + (n <<< (f - min e f).toNat : ℕ)) (min e f)
                .positive := rfl
          rw [hadd]
          generalize m <<< (e - min e f).toNat = m' at *
          generalize n <<< (f - min e f).toNat = n' at *
          have hlog := log2_add_le m' n'
          have hgt : compare ((m' : ℤ) + n') 0 = .gt := Int.compare_eq_gt.2 (by omega)
          have hround : UnpackedFloat.normalize .binary64 ((m' : ℤ) + n') (min e f) .positive =
              UnpackedFloat.round .binary64 .positive (m' + n') (min e f) := by
            unfold UnpackedFloat.normalize
            rw [hgt]
            exact congrArg (UnpackedFloat.round .binary64 .positive · (min e f))
              (Int.toNat_natCast (m' + n'))
          rw [hround]
          refine below_round (by push_cast; omega) ?_
          unfold totalExponent
          push_cast
          omega

/-- A quotient, of a bound that leaves room for the divisor. -/
theorem below_div (hx : Below k x) (hy : Above l y) (hs : Signed s x) (ht : Signed t y) :
    Below (k + l + 2) (UnpackedFloat.div .binary64 x y) ∧
      Signed (s / t) (UnpackedFloat.div .binary64 x y) := by
  cases y with
  | infinity => exact hy.elim
  | notANumber => exact hy.elim
  | zero => exact hy.elim
  | finite t' n f hn =>
      obtain rfl : t' = t := ht
      cases x with
      | infinity => exact hx.elim
      | notANumber => exact hx.elim
      | zero s' => exact ⟨trivial, congrArg (· / t') hs⟩
      | finite s' m e hm =>
          obtain rfl : s' = s := hs
          obtain ⟨-, hx, hx'⟩ := hx
          have hy' : -(l : ℤ) ≤ totalExponent n f := hy
          have hdiv : UnpackedFloat.div .binary64 (.finite s' m e hm) (.finite t' n f hn) =
              roundWithAccuracy .binary64 (s' / t')
                (UnpackedFloat.divCore .binary64 m e n f).1
                (UnpackedFloat.divCore .binary64 m e n f).2.1
                (UnpackedFloat.divCore .binary64 m e n f).2.2 := rfl
          obtain ⟨c, hmantissa, hexponent, hc, hroom⟩ : ∃ c : ℕ,
              (UnpackedFloat.divCore .binary64 m e n f).1 = (m <<< c) / n ∧
              (UnpackedFloat.divCore .binary64 m e n f).2.1 = e - f - c ∧
              e - f - c ≤ max (totalExponent m e - totalExponent n f - 53) (-1074) ∧
              e - f - c ≤ e - f := by
            have htarget : Format.binary64.targetExponent (totalExponent m e - totalExponent n f) =
                max (totalExponent m e - totalExponent n f - 53) (-1074) := rfl
            refine ⟨(e - f - min (e - f) (Format.binary64.targetExponent
              (totalExponent m e - totalExponent n f))).toNat, rfl, ?_, by omega, by omega⟩
            show min (e - f) (Format.binary64.targetExponent
              (totalExponent m e - totalExponent n f)) = _
            omega
          rw [hdiv, hmantissa, hexponent]
          have hshift := log2_shiftLeft_le m c
          have hlog : ((m <<< c) / n).log2 + n.log2 ≤ m.log2 + c ∨ (m <<< c) / n = 0 := by
            by_cases hle : n ≤ m <<< c
            · exact .inl ((log2_div_le _ n hn hle).trans hshift)
            · exact .inr (Nat.div_eq_of_lt (Nat.not_le.1 hle))
          unfold totalExponent at *
          refine below_roundWithAccuracy _ _ (by push_cast; omega) ?_
          unfold totalExponent
          rcases hlog with hlog | hzero
          · push_cast
            omega
          · rw [hzero, Nat.log2_zero]
            push_cast
            omega

/-- The root of a value that is not negative. -/
theorem below_sqrt (hx : Below k x) (hs : Signed .positive x) :
    Below (k + 2) (UnpackedFloat.sqrt .binary64 x) ∧
      Signed .positive (UnpackedFloat.sqrt .binary64 x) := by
  cases x with
  | infinity => exact hx.elim
  | notANumber => exact hx.elim
  | zero s' => exact ⟨trivial, hs⟩
  | finite s' m e hm =>
      obtain rfl : s' = .positive := hs
      obtain ⟨-, hx, hx'⟩ := hx
      have hsqrt : UnpackedFloat.sqrt .binary64 (.finite .positive m e hm) =
          roundWithAccuracy .binary64 .positive (UnpackedFloat.sqrtCore .binary64 m e).1
            (UnpackedFloat.sqrtCore .binary64 m e).2.1
            (UnpackedFloat.sqrtCore .binary64 m e).2.2 := rfl
      obtain ⟨c, f, hmantissa, hexponent, hc, hroom⟩ : ∃ (c : ℕ) (f : ℤ),
          (UnpackedFloat.sqrtCore .binary64 m e).1 = (m <<< c).sqrt ∧
          (UnpackedFloat.sqrtCore .binary64 m e).2.1 = f ∧ e - 2 * f = c ∧
          f ≤ max ((totalExponent m e + 1) / 2 - 53) (-1074) := by
        have htarget : Format.binary64.targetExponent ((totalExponent m e + 1).ediv 2) =
            max ((totalExponent m e + 1) / 2 - 53) (-1074) := rfl
        have hhalf : e.ediv 2 = e / 2 := rfl
        refine ⟨(e - 2 * min (e.ediv 2) (Format.binary64.targetExponent
          ((totalExponent m e + 1).ediv 2))).toNat, min (e.ediv 2) (Format.binary64.targetExponent
          ((totalExponent m e + 1).ediv 2)), rfl, rfl, by omega, by omega⟩
      rw [hsqrt, hmantissa, hexponent]
      have hshift := log2_shiftLeft_le m c
      have hlog := log2_sqrt_le (m <<< c)
      unfold totalExponent at *
      refine below_roundWithAccuracy _ _ (by push_cast; omega) ?_
      unfold totalExponent
      push_cast
      omega

theorem below_neg (hx : Below k x) : Below k x.neg := by
  cases x <;> exact hx

theorem below_abs (hx : Below k x) : Below k x.abs := by
  cases x <;> exact hx

/-! ## Floats -/

/-- The float is finite, less than `2 ^ k` in magnitude, and of the sign `s`. -/
structure Within (k : ℕ) (s : Sign) (a : Float) : Prop where
  below : Below k a.toModel.unpack
  signed : Signed s a.toModel.unpack

namespace Within

variable {a b : Float}

theorem isFinite (h : Within k s a) : a.isFinite = true := h.below.isFinite

theorem of_pack (hk : k ≤ 1024) (h : Below k x ∧ Signed s x) : Within k s ⟨.pack x⟩ := by
  obtain ⟨hbelow, hsigned⟩ := below_unpack_pack hk h.1 h.2
  exact ⟨hbelow, hsigned⟩

theorem mul (ha : Within k s a) (hb : Within l t b) (hk : k + l + 1 ≤ 1024) :
    Within (k + l + 1) (s * t) (a * b) :=
  of_pack hk (below_mul ha.below hb.below ha.signed hb.signed)

theorem add (ha : Within k .positive a) (hb : Within k .positive b) (hk : k + 2 ≤ 1024) :
    Within (k + 2) .positive (a + b) :=
  of_pack hk (below_add ha.below hb.below ha.signed hb.signed)

theorem div (ha : Within k s a) (hb : Above l b.toModel.unpack) (ht : Signed t b.toModel.unpack)
    (hk : k + l + 2 ≤ 1024) : Within (k + l + 2) (s / t) (a / b) :=
  of_pack hk (below_div ha.below hb ha.signed ht)

theorem sqrt (ha : Within k .positive a) (hk : k + 2 ≤ 1024) :
    Within (k + 2) .positive a.sqrt :=
  of_pack hk (below_sqrt ha.below ha.signed)

theorem neg (ha : Within k s a) (hk : k ≤ 1024) : Within k (-s) (-a) := by
  refine of_pack hk ⟨below_neg ha.below, ?_⟩
  have hs := ha.signed
  generalize a.toModel.unpack = x at hs
  cases x with
  | notANumber => trivial
  | _ => exact congrArg (- ·) hs

theorem abs (ha : Within k s a) (hk : k ≤ 1024) : Within k .positive a.abs := by
  refine of_pack hk ⟨below_abs ha.below, ?_⟩
  generalize a.toModel.unpack = x
  cases x <;> trivial

theorem mono (ha : Within k s a) (hkl : k ≤ l) : Within l s a := ⟨ha.below.mono hkl, ha.signed⟩

end Within

theorem isFinite_of_pack (h : (Float.ofModel (.pack x)).isFinite = true) : x.isFinite = true := by
  cases x with
  | zero => rfl
  | finite => rfl
  | infinity s => cases s <;> exact h
  | notANumber => exact h

theorem isFinite_of_mul {a b : Float} (h : (a * b).isFinite = true) :
    a.isFinite = true ∧ b.isFinite = true := by
  have hmul : (UnpackedFloat.mul .binary64 a.toModel.unpack b.toModel.unpack).isFinite = true :=
    isFinite_of_pack h
  have ha : a.isFinite = a.toModel.unpack.isFinite := rfl
  have hb : b.isFinite = b.toModel.unpack.isFinite := rfl
  rw [ha, hb]
  generalize a.toModel.unpack = x at hmul
  generalize b.toModel.unpack = y at hmul
  cases x <;> cases y <;> first | exact ⟨rfl, rfl⟩ | cases hmul

theorem isFinite_of_neg {a : Float} (h : (-a).isFinite = true) : a.isFinite = true := by
  have hneg : a.toModel.unpack.neg.isFinite = true := isFinite_of_pack h
  have ha : a.isFinite = a.toModel.unpack.isFinite := rfl
  rw [ha]
  generalize a.toModel.unpack = x at hneg
  cases x <;> exact hneg

theorem isFinite_of_abs {a : Float} (h : a.abs.isFinite = true) : a.isFinite = true := by
  have habs : a.toModel.unpack.abs.isFinite = true := isFinite_of_pack h
  have ha : a.isFinite = a.toModel.unpack.isFinite := rfl
  rw [ha]
  generalize a.toModel.unpack = x at habs
  cases x <;> exact habs

/-! ## Bounds by comparison -/

/-- The mantissa of a float has 53 bits, unless its exponent is the lowest one, and the exponent
stays below the one that is kept for the values that are not finite. -/
theorem canonical_of_unpack {a : Float} {m : ℕ} {e : ℤ} {hm : 0 < m}
    (h : a.toModel.unpack = .finite s m e hm) :
    m.log2 ≤ 52 ∧ -1074 ≤ e ∧ e ≤ 971 ∧ (e = -1074 ∨ m.log2 = 52) := by
  obtain ⟨b, hunpack⟩ : ∃ b : BitVec Format.binary64.numBits, unpack .binary64 b =
      .finite s m e hm := ⟨_, h⟩
  by_cases hfinite : (unpackExponent b).toNat = 2047
  · have hones : unpackExponent b = -1#11 := BitVec.eq_of_toNat_eq hfinite
    unfold unpack at hunpack
    dsimp only at hunpack
    rw [if_pos hones] at hunpack
    by_cases hzero : unpackMantissa b = 0#52
    · rw [if_pos hzero] at hunpack
      cases hunpack
    · rw [if_neg hzero] at hunpack
      cases hunpack
  · have hunpacked := unpacked_unpack b hfinite
    have hlt : (unpackMantissa b).toNat < 2 ^ 52 := (unpackMantissa b).isLt
    have hlast : (unpackExponent b).toNat < 2 ^ 11 := (unpackExponent b).isLt
    rw [hunpack] at hunpacked
    cases hunpacked with
    | subnormal =>
        have hlog := (Nat.log2_lt hm.ne').2 hlt
        exact ⟨by omega, le_rfl, by omega, .inl rfl⟩
    | normal hpos =>
        have hupper : (2 ^ 52 + (unpackMantissa b).toNat).log2 < 53 :=
          (Nat.log2_lt hm.ne').2 (by omega)
        have hlower : 52 ≤ (2 ^ 52 + (unpackMantissa b).toNat).log2 :=
          (Nat.le_log2 hm.ne').2 (Nat.le_add_right _ _)
        exact ⟨by omega, by omega, by omega, .inr (by omega)⟩

theorem exists_within {a : Float} (h : a.isFinite = true) : ∃ s, Within 1024 s a := by
  have hfinite : a.toModel.unpack.isFinite = true := h
  cases hunpack : a.toModel.unpack with
  | notANumber =>
      rw [hunpack] at hfinite
      cases hfinite
  | infinity t =>
      rw [hunpack] at hfinite
      cases hfinite
  | zero t => exact ⟨t, by rw [hunpack]; trivial, by rw [hunpack]; rfl⟩
  | finite t m e hm =>
      obtain ⟨hlog, hlow, hhigh, -⟩ := canonical_of_unpack hunpack
      refine ⟨t, ?_, by rw [hunpack]; rfl⟩
      rw [hunpack]
      unfold Below totalExponent
      omega

theorem rank_zero : rank (0.0 : Float).toModel.unpack = toLex (0, toLex (0, 0)) := by decide +kernel

theorem rank_large :
    rank (1e75 : Float).toModel.unpack = toLex (1, toLex (197, 4978412222288913)) := by
  decide +kernel

theorem rank_small :
    rank (1e-75 : Float).toModel.unpack = toLex (1, toLex (-302, 8148143905337944)) := by
  decide +kernel

theorem lt_zero_of_within {a : Float} (h : Within k .positive a) : Scalar.lt a 0.0 = false := by
  rw [← Bool.not_eq_true, lt_iff, rank_zero]
  rintro ⟨-, -, hrank⟩
  obtain ⟨hbelow, hsigned⟩ := h
  generalize a.toModel.unpack = x at *
  cases x with
  | notANumber => exact hbelow
  | infinity => exact hbelow
  | zero =>
      dsimp only [rank] at hrank
      exact lt_irrefl _ hrank
  | finite t m e hm =>
      obtain rfl : t = .positive := hsigned
      dsimp only [rank] at hrank
      simp [Prod.Lex.toLex_lt_toLex] at hrank

/-- A float that is not below zero, and below `1e75`. -/
theorem within_of_lt {a : Float} (hzero : Scalar.lt a 0.0 = false) (hlt : Scalar.lt a 1e75 = true) :
    ∃ s, Within 250 s a := by
  obtain ⟨hnumber, -, hrank⟩ := (lt_iff _ _).1 hlt
  have hnonneg : ¬ rank a.toModel.unpack < rank (0.0 : Float).toModel.unpack := by
    intro hbelow
    have hzero' : Scalar.lt a 0.0 = true :=
      (lt_iff _ _).2 ⟨hnumber, (isNumber_iff _).1 (by decide +kernel), hbelow⟩
    rw [hzero] at hzero'
    cases hzero'
  rw [rank_large] at hrank
  rw [rank_zero] at hnonneg
  cases hunpack : a.toModel.unpack with
  | notANumber => exact absurd hunpack hnumber
  | zero t => exact ⟨t, by rw [hunpack]; trivial, by rw [hunpack]; rfl⟩
  | infinity t =>
      rw [hunpack] at hrank hnonneg
      cases t <;> dsimp only [rank] at hrank hnonneg <;>
        simp [Prod.Lex.toLex_lt_toLex] at hrank hnonneg
  | finite t m e hm =>
      obtain ⟨hlog, hlow, -, -⟩ := canonical_of_unpack hunpack
      rw [hunpack] at hrank hnonneg
      cases t with
      | negative =>
          dsimp only [rank] at hnonneg
          simp [Prod.Lex.toLex_lt_toLex] at hnonneg
      | positive =>
          dsimp only [rank] at hrank
          simp only [Prod.Lex.toLex_lt_toLex] at hrank
          refine ⟨.positive, ?_, by rw [hunpack]; rfl⟩
          rw [hunpack]
          unfold Below totalExponent
          omega

/-- A finite float above `1e-75`. -/
theorem above_of_lt {a : Float} (hlt : Scalar.lt 1e-75 a = true) (hfinite : a.isFinite = true) :
    Above 249 a.toModel.unpack ∧ Signed .positive a.toModel.unpack := by
  obtain ⟨-, -, hrank⟩ := (lt_iff _ _).1 hlt
  have hfinite' : a.toModel.unpack.isFinite = true := hfinite
  rw [rank_small] at hrank
  cases hunpack : a.toModel.unpack with
  | notANumber =>
      rw [hunpack] at hfinite'
      cases hfinite'
  | infinity t =>
      rw [hunpack] at hfinite'
      cases hfinite'
  | zero t =>
      rw [hunpack] at hrank
      dsimp only [rank] at hrank
      simp [Prod.Lex.toLex_lt_toLex] at hrank
  | finite t m e hm =>
      obtain ⟨-, hlow, -, hlog⟩ := canonical_of_unpack hunpack
      rw [hunpack] at hrank
      cases t with
      | negative =>
          dsimp only [rank] at hrank
          simp [Prod.Lex.toLex_lt_toLex] at hrank
      | positive =>
          dsimp only [rank] at hrank
          simp only [Prod.Lex.toLex_lt_toLex] at hrank
          refine ⟨?_, rfl⟩
          unfold Above totalExponent
          omega

end Binary

end Homing
