import Homing.Proofs.Exact.Scalar
import Homing.Proofs.Plan.Shares
import Homing.Proofs.Settings.Sound

/-!
# How far the axes of a plan travel

The targets of a plan in exact arithmetic, measured along the homing direction of each
axis (`HomingSettings.toward`). An approach goes toward the switch and a pull-off away
from it. The last phase moves the motor with the longer pull-off by the difference
while the other one is blocked, and `pulloff_eq` says that this is what each motor
lacks to its own pull-off.
-/

namespace Homing

variable {K : Type u} [Field K] [LinearOrder K]

/-- A distance toward the switch of an axis, as a displacement along the axis. -/
def HomingSettings.toward (h : HomingSettings K) (distance : K) : K :=
  if h.positiveDirection then distance else -distance

theorem HomingSettings.abs_toward (h : HomingSettings K) (distance : K) :
    |h.toward distance| = |distance| := by
  unfold HomingSettings.toward
  split
  · rfl
  · exact abs_neg distance

variable {m : MachineSettings K} {motors : MotorSet} {phase : Phase} {n : Nat}
  {a : AxisSettings K} {h : HomingSettings K}

theorem HomingSettings.Sound.rate (hh : h.Sound) (phase : Phase) : 0 < h.rate phase := by
  unfold HomingSettings.rate
  split
  · exact hh.seekRate
  · exact hh.feedRate

theorem TakesPart.sound (hp : TakesPart m motors n a h) (hm : m.Sound) : a.Sound ∧ h.Sound := by
  have ha := hm.axis a (List.mem_of_getElem? hp.axis)
  exact ⟨ha, ha.homing h hp.homing⟩

variable [FloorRing K] [SquareRoot K]

namespace TakesPart

variable [IsStrictOrderedRing K]

/-- The rate along the line is positive where an axis takes part. -/
theorem feedRate_pos (hp : TakesPart m motors n a h) (hm : m.Sound) :
    0 < (planMove m motors phase).feedRate := by
  have hrate : ∀ s ∈ shares m motors phase, 0 < s.rate := by
    intro s hs
    obtain ⟨k, b, g, hq, rfl⟩ := mem_shares.1 hs
    exact (hq.sound hm).2.rate phase
  have key (ss : List (Share K)) (hss : ∀ s ∈ ss, 0 < s.rate) (c : K) (hc : 0 ≤ c) :
      0 ≤ ss.foldl (fun sum s => sum + s.rate * s.rate) c ∧
        (0 < c ∨ ss ≠ [] → 0 < ss.foldl (fun sum s => sum + s.rate * s.rate) c) := by
    induction ss generalizing c with
    | nil => exact ⟨hc, fun h => h.elim id fun hne => absurd rfl hne⟩
    | cons s ss ih =>
        have hpos := hss s List.mem_cons_self
        have hsum : 0 < c + s.rate * s.rate := add_pos_of_nonneg_of_pos hc (mul_pos hpos hpos)
        obtain ⟨hle, hlt⟩ := ih (fun t ht => hss t (List.mem_cons_of_mem s ht)) _ hsum.le
        exact ⟨hle, fun _ => hlt (.inl hsum)⟩
  have hne : shares m motors phase ≠ [] :=
    List.ne_nil_of_mem (mem_shares.2 ⟨n, a, h, hp, rfl⟩)
  have hsum := (key _ hrate 0.0 (by simp)).2 (.inr hne)
  exact SquareRoot.sqrt_pos hsum

omit [IsStrictOrderedRing K] in
/-- The slow approach goes beyond the pull-off. -/
theorem target_slowApproach (hp : TakesPart m motors n a h) :
    (planMove m motors .slowApproach).target[n]? =
      some (h.toward (a.commonPulloff * h.feedScaler)) := by
  rw [target_planMove hp]
  unfold Share.displacement Share.ofAxis HomingSettings.toward
  cases h.positiveDirection <;>
    simp [Share.travelOf, HomingSettings.scaler, Phase.isApproach, Phase.isSeek]

/-- A pull-off goes back by the distance that the motors of an axis share. -/
theorem target_pulloff (hp : TakesPart m motors n a h) (hphase : phase.isApproach = false)
    (hlast : phase ≠ .pulloff2) :
    (planMove m motors phase).target[n]? = some (h.toward (-a.commonPulloff)) := by
  rw [target_planMove hp]
  unfold Share.displacement Share.ofAxis HomingSettings.toward
  cases phase with
  | fastApproach => cases hphase
  | slowApproach => cases hphase
  | pulloff2 => exact absurd rfl hlast
  | prePulloff | pulloff0 | pulloff1 =>
      cases h.positiveDirection <;>
        simp [Share.travelOf, HomingSettings.scaler, Phase.isApproach, Phase.isSeek]

theorem target_pulloff2 (hp : TakesPart m motors n a h) :
    (planMove m motors .pulloff2).target[n]? = some (h.toward (-|a.extraPulloff|)) := by
  rw [target_planMove hp]
  unfold Share.displacement Share.ofAxis HomingSettings.toward
  cases h.positiveDirection <;>
    simp [Share.travelOf, HomingSettings.scaler, Phase.isApproach, Phase.isSeek]

/-- The fast approach goes somewhere along every axis. -/
theorem target_fastApproach (hp : TakesPart m motors n a h) (hm : m.Sound) :
    ∃ d ≠ 0, (planMove m motors .fastApproach).target[n]? = some d := by
  refine ⟨_, ?_, target_planMove hp⟩
  obtain ⟨ha, hh⟩ := hp.sound hm
  have hscaled : (if (Share.ofAxis .fastApproach n a h).ascending then
      (Share.ofAxis .fastApproach n a h).travel else -(Share.ofAxis .fastApproach n a h).travel) *
      (Share.ofAxis .fastApproach n a h).scaler ≠ 0 := by
    apply mul_ne_zero _ hh.seekScaler.ne'
    split
    · exact ha.maxTravel.ne'
    · exact neg_ne_zero.2 ha.maxTravel.ne'
  unfold Share.displacement
  generalize limitingRate (shares m motors .fastApproach) = limiting
  dsimp only
  by_cases hlimiting : 0 < limiting
  · rw [if_pos (by simpa [Phase.isSeek] using hlimiting)]
    exact mul_ne_zero hscaled (div_ne_zero hh.seekRate.ne' hlimiting.ne')
  · rw [if_neg (by simpa [Phase.isSeek] using hlimiting)]
    exact hscaled

omit [IsStrictOrderedRing K] in
/-- The fast approach stretches the travel of an axis by its rate over the limiting rate. -/
theorem target_fastApproach_eq (hp : TakesPart m motors n a h) {limiting : K}
    (hlimiting : limitingRate (shares m motors .fastApproach) = limiting) (hpos : 0 < limiting) :
    (planMove m motors .fastApproach).target[n]? =
      some (h.toward (a.maxTravel * h.seekScaler * (h.seekRate / limiting))) := by
  rw [target_planMove hp, hlimiting]
  unfold Share.displacement Share.ofAxis HomingSettings.toward
  cases h.positiveDirection <;>
    simp [Share.travelOf, HomingSettings.scaler, HomingSettings.rate, Phase.isApproach,
      Phase.isSeek, hpos]

end TakesPart

/-- An axis that takes no part has no displacement of its own. -/
theorem target_planMove_of_not_mem (hlt : n < maxAxes) (hn : n ∉ (planMove m motors phase).axes) :
    (planMove m motors phase).target[n]? = some 0 := by
  have hnone : ∀ a h, ¬ TakesPart m motors n a h :=
    fun a h hp => hn (mem_axes_planMove.2 ⟨a, h, hp⟩)
  rw [planMove, PlannedMove.ofShares, getElem?_perAxis _ _ hlt, find?_shares_eq_none hnone]
  exact congrArg some Scalar.zero_exact

/-! ## Pull-offs that differ -/

/-- The pull-offs of an axis differ when it has two motors, each with a pull-off of its own. -/
theorem AxisSettings.extraPulloff_ne_zero_iff : a.extraPulloff ≠ 0 ↔
    ∃ p q, a.motor? .primary = some p ∧ a.motor? .secondary = some q ∧ p.pulloff ≠ q.pulloff := by
  unfold AxisSettings.extraPulloff
  constructor
  · intro hextra
    split at hextra
    · rename_i p q hp hq
      exact ⟨p, q, hp, hq, fun heq => hextra (sub_eq_zero.2 heq.symm)⟩
    · exact absurd Scalar.zero_exact hextra
  · rintro ⟨p, q, hp, hq, hne⟩
    rw [hp, hq]
    exact sub_ne_zero.2 hne.symm

theorem AxisSettings.Sound.isSquared (ha : a.Sound) (hextra : a.extraPulloff ≠ 0) :
    a.isSquared = true := by
  obtain ⟨-, q, -, hq, -⟩ := AxisSettings.extraPulloff_ne_zero_iff.1 hextra
  have hlt : 1 < a.motors.length := (List.getElem?_eq_some_iff.1 hq).1
  have hle : a.motors.length ≤ 2 := ha.motorCount
  have hlength : a.motors.length = maxMotorsPerAxis := Nat.le_antisymm hle hlt
  rw [AxisSettings.isSquared, hlength]
  rfl

/-- There is a phase that squares when both motors of an axis with two pull-offs take part. -/
theorem needsSquaring_iff : needsSquaring m motors = true ↔ ∃ n a, n ∈ motors.squared ∧
    m.axes[n]? = some a ∧ a.isSquared = true ∧ a.extraPulloff ≠ 0 := by
  rw [needsSquaring, List.any_eq_true]
  constructor
  · rintro ⟨n, hn, hany⟩
    cases ha : m.axes[n]? with
    | none =>
        rw [ha] at hany
        cases hany
    | some a =>
        rw [ha] at hany
        have htests : a.isSquared = true ∧ a.extraPulloff ≠ 0 := by simpa using hany
        exact ⟨n, a, AxisSet.mem_toList.1 hn, ha, htests⟩
  · rintro ⟨n, a, hn, ha, hsquared, hextra⟩
    refine ⟨n, AxisSet.mem_toList.2 hn, ?_⟩
    simp [ha, hsquared, hextra]

/-- Without a phase that squares, the motors of an axis have one pull-off. -/
theorem AxisSettings.Sound.extraPulloff_eq_zero (hsound : a.Sound)
    (hnot : needsSquaring m motors = false) (ha : m.axes[n]? = some a)
    (hboth : ∀ side, (a.motor? side).isSome = true → ⟨n, side⟩ ∈ motors) :
    a.extraPulloff = 0 := by
  by_contra hextra
  obtain ⟨p, q, hp, hq, -⟩ := AxisSettings.extraPulloff_ne_zero_iff.1 hextra
  have hmem : n ∈ motors.squared :=
    MotorSet.mem_squared.2 ⟨hboth .primary (by rw [hp]; rfl), hboth .secondary (by rw [hq]; rfl)⟩
  have hneeds := needsSquaring_iff.2 ⟨n, a, hmem, ha, hsound.isSquared hextra, hextra⟩
  rw [hnot] at hneeds
  cases hneeds

variable [IsStrictOrderedRing K]

/-- The pull-off that motors share and the move of the last phase make the pull-off
of each motor. -/
theorem AxisSettings.Sound.pulloff_eq (ha : a.Sound) {side : Side} {mo : MotorSettings K}
    (hmo : a.motor? side = some mo) (n : Nat) :
    mo.pulloff = a.commonPulloff +
      if Share.blockedOf .pulloff2 n a = some ⟨n, side⟩ then 0 else |a.extraPulloff| := by
  obtain ⟨p, hone⟩ | ⟨p, q, htwo⟩ :
      (∃ p, a.motors = [p]) ∨ ∃ p q, a.motors = [p, q] := by
    have hcount : a.motors.length ≤ 2 := ha.motorCount
    match hmotors : a.motors with
    | [] => exact absurd hmotors ha.motors
    | [p] => exact .inl ⟨p, rfl⟩
    | [p, q] => exact .inr ⟨p, q, rfl⟩
    | p :: q :: r :: rest =>
        rw [hmotors] at hcount
        simp at hcount
  · have hextra : a.extraPulloff = 0 := by
      simp [AxisSettings.extraPulloff, AxisSettings.motor?, hone, Side.index]
    have hcommon : a.commonPulloff = p.pulloff := by simp [AxisSettings.commonPulloff, hone]
    cases side with
    | secondary => simp [AxisSettings.motor?, hone, Side.index] at hmo
    | primary =>
        obtain rfl : p = mo := by simpa [AxisSettings.motor?, hone, Side.index] using hmo
        simp [hcommon, hextra]
  · have hextra : a.extraPulloff = q.pulloff - p.pulloff := by
      simp [AxisSettings.extraPulloff, AxisSettings.motor?, htwo, Side.index]
    have hcommon : a.commonPulloff = min p.pulloff q.pulloff := by
      simp [AxisSettings.commonPulloff, htwo]
    have hblocked : Share.blockedOf .pulloff2 n a =
        if q.pulloff < p.pulloff then some ⟨n, .secondary⟩
        else if p.pulloff < q.pulloff then some ⟨n, .primary⟩ else none := by
      simp [Share.blockedOf, hextra]
    rw [hcommon, hblocked, hextra]
    rcases lt_trichotomy p.pulloff q.pulloff with hlt | heq | hgt
    · rw [if_neg hlt.not_gt, if_pos hlt, min_eq_left hlt.le, abs_of_pos (sub_pos.2 hlt)]
      cases side with
      | primary =>
          obtain rfl : p = mo := by simpa [AxisSettings.motor?, htwo, Side.index] using hmo
          simp
      | secondary =>
          obtain rfl : q = mo := by simpa [AxisSettings.motor?, htwo, Side.index] using hmo
          simp
    · rw [if_neg heq.ge.not_gt, if_neg heq.le.not_gt, heq, sub_self, abs_zero, min_self]
      cases side with
      | primary =>
          obtain rfl : p = mo := by simpa [AxisSettings.motor?, htwo, Side.index] using hmo
          simp [heq]
      | secondary =>
          obtain rfl : q = mo := by simpa [AxisSettings.motor?, htwo, Side.index] using hmo
          simp
    · rw [if_pos hgt, min_eq_right hgt.le, abs_of_neg (sub_neg.2 hgt)]
      cases side with
      | primary =>
          obtain rfl : p = mo := by simpa [AxisSettings.motor?, htwo, Side.index] using hmo
          simp
      | secondary =>
          obtain rfl : q = mo := by simpa [AxisSettings.motor?, htwo, Side.index] using hmo
          simp

end Homing
