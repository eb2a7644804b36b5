import Homing.Proofs.Plan.ClosedForm
import Homing.Proofs.Plan.Travel

/-!
# The limiting axis of a fast approach

The limiting axis of a plan is the first of the axes that take longest to travel
(`LimitingAxis`), and the fast approach multiplies the travel of every axis by its rate over
the rate of the limiting one. So an axis goes its whole travel exactly when its rate, times its
scaler, is at least the rate of the limiting axis (`maxTravel_le_target_iff`). A short slow axis
beside a long fast one stops before its switch.
-/

namespace Homing

variable {K : Type u} [Field K] [LinearOrder K]

/-- The axis `n` is the first of those that take longest to travel. -/
structure LimitingAxis (m : MachineSettings K) (motors : MotorSet) (n : Nat) (a : AxisSettings K)
    (h : HomingSettings K) : Prop where
  takes : TakesPart m motors n a h
  longest : ∀ k b g, TakesPart m motors k b g →
    b.maxTravel / g.seekRate ≤ a.maxTravel / h.seekRate
  first : ∀ k b g, TakesPart m motors k b g → k < n →
    b.maxTravel / g.seekRate < a.maxTravel / h.seekRate

variable [FloorRing K] [SquareRoot K] {m : MachineSettings K} {motors : MotorSet} {n : Nat}
  {a : AxisSettings K} {h : HomingSettings K}

variable [IsStrictOrderedRing K]

/-- Where an axis takes part, one of them limits the fast approach. -/
theorem exists_limitingAxis (hm : m.Sound) (hp : TakesPart m motors n a h) :
    ∃ k b g, LimitingAxis m motors k b g ∧
      limitingRate (shares m motors .fastApproach) = g.seekRate := by
  have htime (b : AxisSettings K) (g : HomingSettings K) :
      timeOf .fastApproach b g = b.maxTravel / g.seekRate := rfl
  have hlimiting : IsLimitingRate m motors .fastApproach
      (limitingRate (shares m motors .fastApproach)) :=
    isLimitingRate_planMove fun _ _ _ _ => by simp [Scalar.IsNumber]
  generalize limitingRate (shares m motors .fastApproach) = limiting at hlimiting
  cases hlimiting with
  | none hnone =>
      have hzero := hnone n a h hp
      obtain ⟨ha, hh⟩ := hp.sound hm
      rw [htime, Scalar.lt_exact, Scalar.zero_exact, decide_eq_false_iff_not] at hzero
      exact absurd (div_pos ha.maxTravel hh.seekRate) hzero
  | @axis k b g hq _ hlongest hfirst =>
      refine ⟨k, b, g, ⟨hq, fun j c f hj => ?_, fun j c f hj hlt => ?_⟩, rfl⟩
      · have hle := hlongest j c f hj
        rw [htime, htime, Scalar.lt_exact, decide_eq_false_iff_not] at hle
        exact not_lt.1 hle
      · have hlt := hfirst j c f hj hlt
        rwa [htime, htime, Scalar.lt_exact, decide_eq_true_iff] at hlt

/-- The fast approach takes an axis at least as far as its travel exactly when the rate of the
axis, times its scaler, is at least the rate of the limiting axis. With a scaler of one or more
that is so for every axis that is no slower than the limiting one. -/
theorem maxTravel_le_target_iff (hm : m.validate = .ok ()) (hp : TakesPart m motors n a h) :
    ∃ k b g d, LimitingAxis m motors k b g ∧
      (planMove m motors .fastApproach).target[n]? = some d ∧
      |d| = a.maxTravel * h.seekScaler * (h.seekRate / g.seekRate) ∧
      (a.maxTravel ≤ |d| ↔ g.seekRate ≤ h.seekScaler * h.seekRate) ∧
      (1 ≤ h.seekScaler → g.seekRate ≤ h.seekRate → a.maxTravel ≤ |d|) := by
  have hsound := MachineSettings.sound_of_validate hm
  obtain ⟨k, b, g, hlimiting, hrate⟩ := exists_limitingAxis hsound hp
  obtain ⟨ha, hh⟩ := hp.sound hsound
  have hg := (hlimiting.takes.sound hsound).2.seekRate
  have htarget := hp.target_fastApproach_eq hrate hg
  have hlength : 0 ≤ a.maxTravel * h.seekScaler * (h.seekRate / g.seekRate) :=
    mul_nonneg (mul_nonneg ha.maxTravel.le hh.seekScaler.le) (div_nonneg hh.seekRate.le hg.le)
  have habs := h.abs_toward (a.maxTravel * h.seekScaler * (h.seekRate / g.seekRate))
  rw [abs_of_nonneg hlength] at habs
  have hiff : a.maxTravel ≤ |h.toward (a.maxTravel * h.seekScaler * (h.seekRate / g.seekRate))| ↔
      g.seekRate ≤ h.seekScaler * h.seekRate := by
    rw [habs, mul_assoc, le_mul_iff_one_le_right ha.maxTravel, ← mul_div_assoc, one_le_div hg]
  refine ⟨k, b, g, _, hlimiting, htarget, habs, hiff, fun hscaler hrates => hiff.2 ?_⟩
  exact hrates.trans (le_mul_of_one_le_left hh.seekRate.le hscaler)

/-- A short slow axis and a long fast one, whose travel is not stretched. -/
def unevenAxes : MachineSettings ℚ where
  logLevel := .info
  axes :=
    [{ name := "X", maxTravel := 100, stepsPerMm := 80,
       homing := some { HomingSettings.default with seekRate := 100, seekScaler := 1 },
       motors := [.default] },
     { name := "Y", maxTravel := 1000, stepsPerMm := 80,
       homing := some { HomingSettings.default with seekRate := 500, seekScaler := 1 },
       motors := [.default] }]

/-- The motors of both axes. -/
def unevenMotors : MotorSet := .ofList [⟨0, .primary⟩, ⟨1, .primary⟩]

theorem takesPart_uneven : ∃ a h, TakesPart unevenAxes unevenMotors 0 a h ∧ a.maxTravel = 100 :=
  ⟨_, _, ⟨rfl, rfl, by decide⟩, rfl⟩

theorem maxTravel_le_target_iff_uneven :
    unevenAxes.validate = .ok () ∧ ∃ a h, TakesPart unevenAxes unevenMotors 0 a h ∧
      ∃ k b g, LimitingAxis unevenAxes unevenMotors k b g ∧
        h.seekScaler * h.seekRate < g.seekRate := by
  have hm : unevenAxes.validate = .ok () :=
    MachineSettings.validate_eq_ok_iff.2 (by decide +kernel)
  have hshort : (planMove unevenAxes unevenMotors .fastApproach).target[0]? = some 20 := by
    decide +kernel
  obtain ⟨a, h, hp, htravel⟩ := takesPart_uneven
  obtain ⟨k, b, g, d, hlimiting, htarget, -, hiff, -⟩ := maxTravel_le_target_iff hm hp
  obtain rfl : 20 = d := Option.some.inj (hshort.symm.trans htarget)
  refine ⟨hm, a, h, hp, k, b, g, hlimiting, lt_of_not_ge fun hle => ?_⟩
  have hreach := hiff.2 hle
  rw [htravel] at hreach
  norm_num at hreach

/-- Beside the long axis the short one goes a fifth of its travel. -/
theorem not_maxTravel_le_target_uneven :
    unevenAxes.validate = .ok () ∧
      (∀ a ∈ unevenAxes.axes, ∀ h ∈ a.homing, 1 ≤ h.seekScaler) ∧
      ∃ a h d, TakesPart unevenAxes unevenMotors 0 a h ∧
        (planMove unevenAxes unevenMotors .fastApproach).target[0]? = some d ∧
        |d| < a.maxTravel := by
  obtain ⟨a, h, hp, htravel⟩ := takesPart_uneven
  refine ⟨MachineSettings.validate_eq_ok_iff.2 (by decide +kernel), by decide +kernel, a, h, 20, hp,
    by decide +kernel, ?_⟩
  rw [htravel]
  norm_num

end Homing
