import Mathlib.Data.Nat.Log
import Mathlib.Tactic.Linarith
import Homing.Scalar

/-!
# Rounding and packing a binary64 value

Every operation on floats unpacks its operands, computes exactly, rounds, and packs what it got.
`Below k` says of an unpacked value that it is finite and less than `2 ^ k`. Rounding raises this
bound by one at most (`below_roundWithAccuracy`), and packing keeps it as long as it is not above
`1024` (`below_unpack_pack`). Both hold for normal and subnormal values alike, since a mantissa is
only known by its length.
-/

namespace Homing

namespace Binary

open Float.Model (UnpackedFloat Format totalExponent)
open Float.Model.UnpackedFloat (ExtendedMantissa Accuracy Sign roundWithAccuracy)

/-- The value is finite and its magnitude less than `2 ^ k`. Its exponent is no lower than the
lowest one, and low enough to leave room for 53 bits. -/
def Below (k : ℕ) : UnpackedFloat → Prop
  | .zero _ => True
  | .finite _ m e _ => -1074 ≤ e ∧ e + 53 ≤ k ∧ totalExponent m e ≤ k
  | _ => False

/-- The value has this sign, as far as it has one. -/
def Signed (s : Sign) : UnpackedFloat → Prop
  | .zero t | .finite t _ _ _ | .infinity t => t = s
  | .notANumber => True

theorem Below.mono {k l : ℕ} {x : UnpackedFloat} (h : Below k x) (hkl : k ≤ l) : Below l x := by
  cases x with
  | zero => trivial
  | finite s m e => exact ⟨h.1, h.2.1.trans (by omega), h.2.2.trans (by omega)⟩
  | infinity => exact h.elim
  | notANumber => exact h.elim

theorem Below.isFinite {k : ℕ} {x : UnpackedFloat} (h : Below k x) : x.isFinite = true := by
  cases x with
  | zero => rfl
  | finite => rfl
  | infinity => exact h.elim
  | notANumber => exact h.elim

/-! ## Rounding -/

theorem mantissa_shiftRight (em : ExtendedMantissa) (n : ℕ) :
    (em >>> n).mantissa = em.mantissa / 2 ^ n := by
  show (Nat.repeat ExtendedMantissa.shiftRightOne n em).mantissa = _
  induction n with
  | zero => simp [Nat.repeat]
  | succ n ih =>
      rw [Nat.repeat, ExtendedMantissa.shiftRightOne, ih, Nat.div_div_eq_div_mul, ← pow_succ]

theorem mantissa_ofMantissaAndAccuracy (m : ℕ) (acc : Accuracy) :
    (ExtendedMantissa.ofMantissaAndAccuracy m acc).mantissa = m := by
  rcases acc with _ | _ | _ | _ <;> rfl

/-- Rounding adds at most one unit. -/
theorem roundedMantissa_le (em : ExtendedMantissa) : em.roundedMantissa ≤ em.mantissa + 1 := by
  obtain ⟨m, round, sticky⟩ := em
  have hmod : m % 2 ≤ 1 := Nat.le_of_lt_succ (Nat.mod_lt m two_pos)
  cases round <;> cases sticky <;>
    simp [ExtendedMantissa.roundedMantissa, ExtendedMantissa.accuracy, Accuracy.roundToNearestEven]
  omega

theorem log2_le_log2 {m n : ℕ} (h : m ≤ n) : m.log2 ≤ n.log2 := by
  rw [Nat.log2_eq_log_two, Nat.log2_eq_log_two]
  exact Nat.log_mono_right h

theorem log2_div_pow (m n : ℕ) : (m / 2 ^ n).log2 = m.log2 - n := by
  rw [Nat.log2_eq_log_two, Nat.log2_eq_log_two, Nat.log_div_base_pow]

theorem log2_succ_le (m : ℕ) : (m + 1).log2 ≤ m.log2 + 1 := by
  by_cases hm : m = 0
  · subst hm
    decide
  · have hlt : m < 2 ^ (m.log2 + 1) := Nat.lt_log2_self
    have hle : m + 1 ≤ 2 ^ (m.log2 + 1) := hlt
    calc (m + 1).log2 ≤ (2 ^ (m.log2 + 1)).log2 := log2_le_log2 hle
      _ = m.log2 + 1 := Nat.log2_two_pow

/-- A mantissa is shifted right until it has 53 bits at most or its exponent is the lowest one. -/
theorem shiftToTarget_spec (m : ℕ) (e : ℤ) (acc : Accuracy) :
    ∃ n : ℕ, (UnpackedFloat.shiftToTargetExponent .binary64 m e acc).1.mantissa = m / 2 ^ n ∧
      (UnpackedFloat.shiftToTargetExponent .binary64 m e acc).2 = e + n ∧
      e + n = max e (max (totalExponent m e - 53) (-1074)) := by
  have htarget : Format.binary64.targetExponent (totalExponent m e) =
      max (totalExponent m e - 53) (-1074) := rfl
  refine ⟨(Format.binary64.targetExponent (totalExponent m e) - e).toNat, ?_, rfl, by omega⟩
  have hshift : (UnpackedFloat.shiftToTargetExponent .binary64 m e acc).1 =
      ExtendedMantissa.ofMantissaAndAccuracy m acc >>>
        (Format.binary64.targetExponent (totalExponent m e) - e).toNat := rfl
  rw [hshift, mantissa_shiftRight, mantissa_ofMantissaAndAccuracy]

/-- A rounded value keeps its sign, and is less than twice what it was rounded from. -/
theorem below_roundWithAccuracy {k m : ℕ} {e : ℤ} (s : Sign) (acc : Accuracy)
    (he : e + 53 ≤ k + 1) (htop : totalExponent m e ≤ k) :
    Below (k + 1) (roundWithAccuracy .binary64 s m e acc) ∧
      Signed s (roundWithAccuracy .binary64 s m e acc) := by
  obtain ⟨n, hmantissa, hexponent, hn⟩ := shiftToTarget_spec m e acc
  -- The first shift may be rounded up, by one unit of what is left.
  generalize hfirst : UnpackedFloat.shiftToTargetExponent .binary64 m e acc = first
    at hmantissa hexponent
  obtain ⟨em, e₁⟩ := first
  obtain rfl : e₁ = e + n := hexponent
  have hrounded : em.roundedMantissa.log2 ≤ (m.log2 - n) + 1 := by
    calc em.roundedMantissa.log2 ≤ (em.mantissa + 1).log2 := log2_le_log2 (roundedMantissa_le em)
      _ ≤ em.mantissa.log2 + 1 := log2_succ_le _
      _ = (m.log2 - n) + 1 := by rw [show em.mantissa = m / 2 ^ n from hmantissa, log2_div_pow]
  obtain ⟨n', hmantissa', hexponent', hn'⟩ :=
    shiftToTarget_spec em.roundedMantissa (e + n) Accuracy.exact
  generalize hsecond : UnpackedFloat.shiftToTargetExponent .binary64 em.roundedMantissa (e + n)
    Accuracy.exact = second at hmantissa' hexponent'
  obtain ⟨em', e₂⟩ := second
  obtain rfl : e₂ = e + n + n' := hexponent'
  have hlast : em'.mantissa.log2 = em.roundedMantissa.log2 - n' := by
    rw [show em'.mantissa = em.roundedMantissa / 2 ^ n' from hmantissa', log2_div_pow]
  unfold roundWithAccuracy
  rw [hfirst]
  dsimp only
  rw [hsecond]
  dsimp only
  by_cases hzero : em'.mantissa = 0
  · rw [dif_pos hzero]
    exact ⟨trivial, rfl⟩
  · rw [dif_neg hzero]
    unfold totalExponent at *
    refine ⟨⟨by omega, by omega, ?_⟩, rfl⟩
    show (em'.mantissa.log2 : ℤ) + 1 + (e + n + n') ≤ _
    omega

/-! ## Packing -/

open Float.Model.UnpackedFloat (pack unpack packComponents unpackSign unpackExponent unpackMantissa)

/-- The bits of a finite value are those of a zero, of a subnormal or of a normal value. -/
inductive Unpacked (s : Sign) (exponent : ℕ) (mantissa : ℕ) : UnpackedFloat → Prop
  | zero (hexponent : exponent = 0) : Unpacked s exponent mantissa (.zero s)
  | subnormal (hexponent : exponent = 0) (hm : 0 < mantissa) :
      Unpacked s exponent mantissa (.finite s mantissa (-1074) hm)
  | normal (hexponent : 0 < exponent) (hm : 0 < 2 ^ 52 + mantissa) :
      Unpacked s exponent mantissa (.finite s (2 ^ 52 + mantissa) (exponent - 1075) hm)

theorem toNat_one_append (v : BitVec 52) : (1#1 ++ v).toNat = 2 ^ 52 + v.toNat := by
  rw [BitVec.toNat_append, ← Nat.shiftLeft_add_eq_or_of_lt v.isLt]
  simp [Nat.shiftLeft_eq]

theorem unpacked_unpack (b : BitVec Format.binary64.numBits)
    (hfinite : (unpackExponent b).toNat ≠ 2047) :
    Unpacked (Sign.ofBitVec (unpackSign b)) (unpackExponent b).toNat (unpackMantissa b).toNat
      (unpack .binary64 b) := by
  have hones : unpackExponent b ≠ -1#11 := fun h => hfinite (congrArg BitVec.toNat h)
  unfold unpack
  dsimp only
  rw [if_neg hones]
  by_cases hzero : unpackExponent b = 0#11
  · have hexponent : (unpackExponent b).toNat = 0 := congrArg BitVec.toNat hzero
    rw [if_pos hzero]
    by_cases hmantissa : unpackMantissa b = 0#52
    · rw [dif_pos hmantissa]
      exact .zero hexponent
    · rw [dif_neg hmantissa, hexponent]
      exact .subnormal rfl _
  · have hpos : 0 < (unpackExponent b).toNat := by
      rw [Nat.pos_iff_ne_zero]
      exact fun h => hzero (BitVec.eq_of_toNat_eq h)
    have hnormal (m : ℕ) (hm : 0 < m) (heq : m = 2 ^ 52 + (unpackMantissa b).toNat) :
        Unpacked (Sign.ofBitVec (unpackSign b)) (unpackExponent b).toNat (unpackMantissa b).toNat
          (.finite (Sign.ofBitVec (unpackSign b)) m ((unpackExponent b).toNat - 1075) hm) := by
      subst heq
      exact .normal hpos hm
    rw [if_neg hzero]
    exact hnormal _ _ (toNat_one_append _)

theorem unpackSign_packComponents (s : Sign) (exponent : BitVec 11) (mantissa : BitVec 52) :
    Sign.ofBitVec (unpackSign (packComponents .binary64 s exponent mantissa)) = s := by
  have hsign : unpackSign (packComponents .binary64 s exponent mantissa) =
      (s.toBitVec ++ exponent ++ mantissa).extractLsb' 63 1 := rfl
  rw [hsign, BitVec.extractLsb'_append_eq_of_le (by decide),
    BitVec.extractLsb'_append_eq_of_le (by decide)]
  cases s <;> rfl

theorem unpacked_packComponents (s : Sign) (exponent : BitVec 11) (mantissa : BitVec 52)
    (hfinite : exponent.toNat ≠ 2047) : Unpacked s exponent.toNat mantissa.toNat
      (unpack .binary64 (packComponents .binary64 s exponent mantissa)) := by
  have h := unpacked_unpack (packComponents .binary64 s exponent mantissa)
  rw [UnpackedFloat.unpackExponent_packComponents, UnpackedFloat.unpackMantissa_packComponents,
    unpackSign_packComponents] at h
  exact h hfinite

/-- Packing keeps a value that is below the largest power of two, be it normal or subnormal. -/
theorem below_unpack_pack {k : ℕ} {s : Sign} {x : UnpackedFloat} (hk : k ≤ 1024) (h : Below k x)
    (hs : Signed s x) : Below k (unpack .binary64 (pack .binary64 x)) ∧
      Signed s (unpack .binary64 (pack .binary64 x)) := by
  cases x with
  | infinity => exact h.elim
  | notANumber => exact h.elim
  | zero t =>
      obtain rfl : t = s := hs
      cases t <;> exact ⟨trivial, rfl⟩
  | finite t m e hm =>
      obtain rfl : t = s := hs
      obtain ⟨hlow, hhigh, htop⟩ := h
      unfold totalExponent at htop
      have hpack : pack .binary64 (.finite t m e hm) = packComponents .binary64 t
          (if m.log2 + 1 = 53 then BitVec.ofNat 11 (e + 1075).toNat else 0#11)
          (BitVec.ofNat 52 m) := by
        have hbias : (e + Format.binary64.exponentBias +
            Format.binary64.mantissaBitsWithoutImplicit).toNat = (e + 1075).toNat := by
          show (e + 1023 + 52).toNat = _
          omega
        have hroom : ¬ 2 ^ 11 ≤ (e + 1075).toNat + 1 := by omega
        unfold pack
        dsimp only
        rw [hbias, if_neg hroom]
        exact (apply_ite (fun v => packComponents .binary64 t v (BitVec.ofNat 52 m)) _ _ _).symm
      have hmantissa : (BitVec.ofNat 52 m).toNat = m % 2 ^ 52 := BitVec.toNat_ofNat m 52
      have hmod : m % 2 ^ 52 < 2 ^ 52 := Nat.mod_lt m (by decide)
      rw [hpack]
      by_cases hnormal : m.log2 + 1 = 53
      · have hexponent : (BitVec.ofNat 11 (e + 1075).toNat).toNat = (e + 1075).toNat := by
          rw [BitVec.toNat_ofNat]
          exact Nat.mod_eq_of_lt (by omega)
        have hunpacked := unpacked_packComponents t (BitVec.ofNat 11 (e + 1075).toNat)
          (BitVec.ofNat 52 m) (by omega)
        rw [hexponent, hmantissa] at hunpacked
        rw [if_pos hnormal]
        generalize unpack .binary64 (packComponents .binary64 t _ _) = y at hunpacked
        cases hunpacked with
        | zero => exact ⟨trivial, rfl⟩
        | subnormal hzero => omega
        | normal _ hm' =>
            have hlog : (2 ^ 52 + m % 2 ^ 52).log2 < 53 :=
              (Nat.log2_lt (by omega)).2 (by omega)
            refine ⟨⟨by omega, by omega, ?_⟩, rfl⟩
            show ((2 ^ 52 + m % 2 ^ 52).log2 : ℤ) + 1 + _ ≤ _
            omega
      · have hunpacked := unpacked_packComponents t 0#11 (BitVec.ofNat 52 m) (by decide)
        rw [hmantissa] at hunpacked
        rw [if_neg hnormal]
        generalize unpack .binary64 (packComponents .binary64 t _ _) = y at hunpacked
        cases hunpacked with
        | zero => exact ⟨trivial, rfl⟩
        | subnormal _ hm' =>
            have hlog : (m % 2 ^ 52).log2 ≤ m.log2 := log2_le_log2 (Nat.mod_le m _)
            refine ⟨⟨le_rfl, by omega, ?_⟩, rfl⟩
            show ((m % 2 ^ 52).log2 : ℤ) + 1 + _ ≤ _
            omega
        | normal hpos => exact absurd hpos (by decide)

end Binary

end Homing
