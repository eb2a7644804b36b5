import Homing.Proofs.Plan.Limiting

/-!
# How long the axes of a fast approach run

The fast approach sends an axis as far as it gets, at its own rate, in the time that its scaled
travel takes at the rate of the limiting axis (`TakesPart.abs_target_fastApproach`). That time is
the axis's own, so two axes with one scaler run equally long, which is to say that their targets
are in the ratio of their rates, exactly when their travels are equal. In general the targets are
in the ratio of the rates times that of the travels.
-/

namespace Homing

variable {K : Type u} [Field K] [LinearOrder K] [IsStrictOrderedRing K] [FloorRing K]
  [SquareRoot K] {m : MachineSettings K} {motors : MotorSet} {n k : Nat} {a b : AxisSettings K}
  {h g : HomingSettings K}

/-- The distance of an axis in the fast approach is its rate times the time that its scaled travel
takes at the limiting rate. -/
theorem TakesPart.abs_target_fastApproach (hp : TakesPart m motors n a h) (hm : m.Sound)
    {limiting : K} (hlimiting : limitingRate (shares m motors .fastApproach) = limiting)
    (hpos : 0 < limiting) :
    ∃ d, (planMove m motors .fastApproach).target[n]? = some d ∧
      |d| = h.seekRate * (a.maxTravel * h.seekScaler / limiting) := by
  obtain ⟨ha, hh⟩ := hp.sound hm
  have hlength : 0 ≤ a.maxTravel * h.seekScaler * (h.seekRate / limiting) :=
    mul_nonneg (mul_nonneg ha.maxTravel.le hh.seekScaler.le) (div_nonneg hh.seekRate.le hpos.le)
  refine ⟨_, hp.target_fastApproach_eq hlimiting hpos, ?_⟩
  rw [h.abs_toward, abs_of_nonneg hlength]
  ring

/-- The targets of two axes with one scaler are in the ratio of their rates times that of their
travels. So each of them goes at its own rate exactly when their travels are equal. -/
theorem target_mul_rate_of_validate (hm : m.validate = .ok ()) (hp : TakesPart m motors n a h)
    (hq : TakesPart m motors k b g) (hscaler : h.seekScaler = g.seekScaler) :
    ∃ d e r s, (planMove m motors .fastApproach).target[n]? = some d ∧
      (planMove m motors .fastApproach).target[k]? = some e ∧
      (planMove m motors .fastApproach).rates[n]? = some r ∧
      (planMove m motors .fastApproach).rates[k]? = some s ∧
      |d| * s * b.maxTravel = |e| * r * a.maxTravel ∧
      (|d| * s = |e| * r ↔ a.maxTravel = b.maxTravel) := by
  have hsound := MachineSettings.sound_of_validate hm
  obtain ⟨j, c, f, hlimiting, hrate⟩ := exists_limitingAxis hsound hp
  have hf := (hlimiting.takes.sound hsound).2.seekRate
  obtain ⟨d, hd, hdist⟩ := hp.abs_target_fastApproach hsound hrate hf
  obtain ⟨e, he, hdist'⟩ := hq.abs_target_fastApproach hsound hrate hf
  -- What one millimetre of travel adds to either product.
  obtain ⟨unit, hunit⟩ : ∃ u, u = h.seekRate * g.seekRate * (g.seekScaler / f.seekRate) := ⟨_, rfl⟩
  have hpos : 0 < unit := by
    obtain ⟨-, hh⟩ := hp.sound hsound
    obtain ⟨-, hg⟩ := hq.sound hsound
    rw [hunit]
    exact mul_pos (mul_pos hh.seekRate hg.seekRate) (div_pos hg.seekScaler hf)
  have hleft : |d| * g.seekRate = a.maxTravel * unit := by
    rw [hdist, hscaler, hunit]
    ring
  have hright : |e| * h.seekRate = b.maxTravel * unit := by
    rw [hdist', hunit]
    ring
  refine ⟨d, e, _, _, hd, he, rates_planMove hp, rates_planMove hq, ?_, ?_⟩
  · change |d| * g.seekRate * b.maxTravel = |e| * h.seekRate * a.maxTravel
    rw [hleft, hright]
    ring
  · change |d| * g.seekRate = |e| * h.seekRate ↔ _
    rw [hleft, hright]
    exact mul_left_inj' hpos.ne'

/-- A short axis and a long one with the same rate. -/
def shortAndLong : MachineSettings ℚ where
  logLevel := .info
  axes :=
    [{ name := "X", maxTravel := 100, stepsPerMm := 80,
       homing := some { HomingSettings.default with seekRate := 100, seekScaler := 1 },
       motors := [.default] },
     { name := "Y", maxTravel := 300, stepsPerMm := 80,
       homing := some { HomingSettings.default with seekRate := 100, seekScaler := 1 },
       motors := [.default] }]

theorem takesPart_shortAndLong : ∃ a b h, TakesPart shortAndLong unevenMotors 0 a h ∧
    TakesPart shortAndLong unevenMotors 1 b h ∧ a.maxTravel = 100 ∧ b.maxTravel = 300 :=
  ⟨_, _, _, ⟨rfl, rfl, by decide⟩, ⟨rfl, rfl, by decide⟩, rfl, rfl⟩

theorem target_mul_rate_shortAndLong :
    shortAndLong.validate = .ok () ∧ ∃ d e r s : ℚ,
      (planMove shortAndLong unevenMotors .fastApproach).target[0]? = some d ∧
      (planMove shortAndLong unevenMotors .fastApproach).target[1]? = some e ∧
      (planMove shortAndLong unevenMotors .fastApproach).rates[0]? = some r ∧
      (planMove shortAndLong unevenMotors .fastApproach).rates[1]? = some s ∧
      |d| * s * 300 = |e| * r * 100 := by
  have hm : shortAndLong.validate = .ok () :=
    MachineSettings.validate_eq_ok_iff.2 (by decide +kernel)
  obtain ⟨a, b, h, hp, hq, ha, hb⟩ := takesPart_shortAndLong
  obtain ⟨d, e, r, s, hd, he, hr, hs, heq, -⟩ := target_mul_rate_of_validate hm hp hq rfl
  rw [ha, hb] at heq
  exact ⟨hm, d, e, r, s, hd, he, hr, hs, heq⟩

/-- The two axes have one rate, and the long one goes three times as far. -/
theorem not_target_mul_rate_shortAndLong :
    shortAndLong.validate = .ok () ∧ (∀ a ∈ shortAndLong.axes, ∀ h ∈ a.homing, h.seekScaler = 1) ∧
      0 ∈ (planMove shortAndLong unevenMotors .fastApproach).axes ∧
      1 ∈ (planMove shortAndLong unevenMotors .fastApproach).axes ∧
      ∃ d e r s : ℚ, (planMove shortAndLong unevenMotors .fastApproach).target[0]? = some d ∧
        (planMove shortAndLong unevenMotors .fastApproach).target[1]? = some e ∧
        (planMove shortAndLong unevenMotors .fastApproach).rates[0]? = some r ∧
        (planMove shortAndLong unevenMotors .fastApproach).rates[1]? = some s ∧
        |d| * s ≠ |e| * r :=
  ⟨MachineSettings.validate_eq_ok_iff.2 (by decide +kernel), by decide +kernel, by decide +kernel,
    by decide +kernel, 100, 300, 100, 100, by decide +kernel, by decide +kernel,
    by decide +kernel, by decide +kernel, by norm_num⟩

end Homing
