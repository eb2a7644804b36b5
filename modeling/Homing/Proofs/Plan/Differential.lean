import Homing.Proofs.Plan.Travel

/-!
# The differential pull-off

The last phase of a cycle squares the axes whose motors have different pull-offs (`UnevenAxis`):
the axis goes back by the difference, and the motor with the shorter pull-off stands still. An
axis takes part in the phase as soon as one of its motors does, and the plan asks no more: an
uneven axis is squared also when it homes with one motor alone. The other motor, which has not
been homed, is then the one that moves if its pull-off is the longer one. `needsSquaring`, which
decides whether there is a last phase, counts only axes with both motors in the cycle, so this
happens when another axis needs the phase.
-/

namespace Homing

variable {K : Type u}

/-- The axis `n` homes, and its two motors `p` and `q` have different pull-offs. -/
structure UnevenAxis (m : MachineSettings K) (n : Nat) (a : AxisSettings K) (h : HomingSettings K)
    (p q : MotorSettings K) : Prop where
  axis : m.axes[n]? = some a
  homing : a.homing = some h
  primary : a.motor? .primary = some p
  secondary : a.motor? .secondary = some q
  differ : p.pulloff ≠ q.pulloff

namespace PlannedMove

variable [Zero K]

/-- The plan sends an axis somewhere else. -/
def Displaces (planned : PlannedMove K) (n : Nat) : Prop :=
  ∃ d, d ≠ 0 ∧ planned.target[n]? = some d

/-- The plan squares an axis: it displaces the axis or holds one of its motors. -/
def Squares (planned : PlannedMove K) (n : Nat) : Prop :=
  planned.Displaces n ∨ ∃ side, ⟨n, side⟩ ∈ planned.overrides.blocked

/-- The plan moves a motor of the machine: it displaces its axis and does not hold the motor. -/
structure Moves (planned : PlannedMove K) (m : MachineSettings K) (id : Motor) : Prop where
  exists_motor : ∃ a mo, m.axes[id.axis]? = some a ∧ a.motor? id.side = some mo
  displaces : planned.Displaces id.axis
  free : id ∉ planned.overrides.blocked

end PlannedMove

section

variable {m : MachineSettings K} {motors : MotorSet} {n : Nat} {a : AxisSettings K}
  {h : HomingSettings K} {p q : MotorSettings K}

theorem UnevenAxis.takesPart (hu : UnevenAxis m n a h p q) (hn : n ∈ motors.axes) :
    TakesPart m motors n a h := ⟨hu.axis, hu.homing, hn⟩

end

variable [Field K] [LinearOrder K] [FloorRing K] [SquareRoot K] {m : MachineSettings K}
  {motors : MotorSet} {phase : Phase} {n : Nat} {a : AxisSettings K} {h : HomingSettings K}
  {p q : MotorSettings K}

theorem UnevenAxis.extraPulloff_eq (hu : UnevenAxis m n a h p q) :
    a.extraPulloff = q.pulloff - p.pulloff := by
  rw [AxisSettings.extraPulloff, hu.primary, hu.secondary]

/-- No phase displaces an axis or holds a motor of it unless the axis takes part. -/
theorem takesPart_of_squares (hs : (planMove m motors phase).Squares n) :
    ∃ a h, TakesPart m motors n a h := by
  obtain ⟨d, hne, htarget⟩ | ⟨side, hheld⟩ := hs
  · have hn : n ∈ (planMove m motors phase).axes := by
      by_contra hn
      by_cases hlt : n < maxAxes
      · rw [target_planMove_of_not_mem hlt hn] at htarget
        exact hne (Option.some.inj htarget).symm
      · rw [Vector.getElem?_eq_none (Nat.le_of_not_lt hlt)] at htarget
        cases htarget
    exact mem_axes_planMove.1 hn
  · obtain ⟨-, k, b, g, hq, hb⟩ := mem_blocked_planMove.1 hheld
    obtain rfl : n = k := axis_of_blockedOf hb
    exact ⟨b, g, hq⟩

variable [IsStrictOrderedRing K]

/-- The motor with the shorter pull-off stands still. -/
theorem UnevenAxis.mem_blocked_iff (hu : UnevenAxis m n a h p q) (hn : n ∈ motors.axes) :
    (⟨n, .primary⟩ ∈ (planMove m motors .pulloff2).overrides.blocked ↔ p.pulloff < q.pulloff) ∧
      (⟨n, .secondary⟩ ∈ (planMove m motors .pulloff2).overrides.blocked ↔
        q.pulloff < p.pulloff) := by
  have hp := hu.takesPart hn
  rw [mem_blocked_pulloff2 hp, mem_blocked_pulloff2 hp, Share.blockedOf]
  simp only [hu.extraPulloff_eq, Scalar.lt_exact, Scalar.zero_exact, decide_eq_true_eq, sub_neg,
    sub_pos]
  rcases lt_or_gt_of_ne hu.differ with hlt | hgt
  · simp [hlt, hlt.not_gt]
  · simp [hgt, hgt.not_gt]

theorem TakesPart.displaces_pulloff2_iff (hp : TakesPart m motors n a h) :
    (planMove m motors .pulloff2).Displaces n ↔ a.extraPulloff ≠ 0 := by
  have hlength : h.toward (-|a.extraPulloff|) = 0 ↔ a.extraPulloff = 0 := by
    rw [← abs_eq_zero, h.abs_toward, abs_neg, abs_abs, abs_eq_zero]
  unfold PlannedMove.Displaces
  rw [hp.target_pulloff2]
  constructor
  · rintro ⟨d, hne, htarget⟩ hextra
    exact hne (by rw [← Option.some.inj htarget, hlength.2 hextra])
  · exact fun hextra => ⟨_, fun hzero => hextra (hlength.1 hzero), rfl⟩

/-- An axis that takes part is squared when its two pull-offs differ. -/
theorem TakesPart.squares_pulloff2_iff (hp : TakesPart m motors n a h) :
    (planMove m motors .pulloff2).Squares n ↔ a.extraPulloff ≠ 0 := by
  unfold PlannedMove.Squares
  rw [hp.displaces_pulloff2_iff]
  constructor
  · rintro (hextra | ⟨side, hheld⟩)
    · exact hextra
    · intro hzero
      rw [mem_blocked_pulloff2 hp] at hheld
      simp [Share.blockedOf, hzero] at hheld
  · exact .inl

/-- A plan squares an axis whose two pull-offs differ as soon as one of its motors takes part. -/
theorem squares_pulloff2_iff : (planMove m motors .pulloff2).Squares n ↔
    n ∈ motors.axes ∧ ∃ a h p q, UnevenAxis m n a h p q := by
  constructor
  · intro hs
    obtain ⟨a, h, hp⟩ := takesPart_of_squares hs
    obtain ⟨p, q, hprimary, hsecondary, hne⟩ :=
      AxisSettings.extraPulloff_ne_zero_iff.1 (hp.squares_pulloff2_iff.1 hs)
    exact ⟨hp.motor, a, h, p, q, hp.axis, hp.homing, hprimary, hsecondary, hne⟩
  · rintro ⟨hn, a, h, p, q, hu⟩
    refine (hu.takesPart hn).squares_pulloff2_iff.2 ?_
    rw [hu.extraPulloff_eq]
    exact sub_ne_zero.2 hu.differ.symm

/-- The plan moves a motor that lacks more than its axis has gone back already. -/
theorem moves_pulloff2_iff (hm : m.Sound) {id : Motor} :
    (planMove m motors .pulloff2).Moves m id ↔ ∃ a h mo, TakesPart m motors id.axis a h ∧
      a.motor? id.side = some mo ∧ a.commonPulloff < mo.pulloff := by
  constructor
  · rintro ⟨⟨b, mo, hb, hmo⟩, hdisplaces, hfree⟩
    obtain ⟨a, h, hp⟩ := takesPart_of_squares (.inl hdisplaces)
    obtain rfl : a = b := Option.some.inj (hp.axis.symm.trans hb)
    have hextra := hp.displaces_pulloff2_iff.1 hdisplaces
    refine ⟨a, h, mo, hp, hmo, ?_⟩
    rw [mem_blocked_pulloff2 hp] at hfree
    rw [(hp.sound hm).1.pulloff_eq hmo id.axis, if_neg hfree]
    exact lt_add_of_pos_right _ (abs_pos.2 hextra)
  · rintro ⟨a, h, mo, hp, hmo, hlt⟩
    rw [(hp.sound hm).1.pulloff_eq hmo id.axis, lt_add_iff_pos_right] at hlt
    by_cases hheld : Share.blockedOf .pulloff2 id.axis a = some id
    · rw [if_pos hheld] at hlt
      exact absurd hlt (lt_irrefl 0)
    · rw [if_neg hheld] at hlt
      exact ⟨⟨a, mo, hp.axis, hmo⟩, hp.displaces_pulloff2_iff.2 (abs_pos.1 hlt),
        fun hmem => hheld ((mem_blocked_pulloff2 hp id.side).1 hmem)⟩

/-- The last phase squares an uneven axis as soon as one of its motors takes part, so it squares
the axes with both motors in the cycle, and no others, exactly where no uneven axis takes part
with one motor alone. An axis that is squared goes away from its switch by the difference of its
pull-offs while the motor with the shorter one stands still, and a motor moves, in the cycle or
not, when its pull-off is the longer one. -/
theorem squares_of_validate (hm : m.validate = .ok ()) (motors : MotorSet) (n : Nat) :
    ((planMove m motors .pulloff2).Squares n ↔
      n ∈ motors.axes ∧ ∃ a h p q, UnevenAxis m n a h p q) ∧
    (((planMove m motors .pulloff2).Squares n ↔
        n ∈ motors.squared ∧ ∃ a h p q, UnevenAxis m n a h p q) ↔
      ∀ a h p q, UnevenAxis m n a h p q → n ∈ motors.axes → n ∈ motors.squared) ∧
    (∀ a h p q, UnevenAxis m n a h p q → n ∈ motors.axes →
      (planMove m motors .pulloff2).target[n]? = some (h.toward (-|q.pulloff - p.pulloff|)) ∧
      (⟨n, .primary⟩ ∈ (planMove m motors .pulloff2).overrides.blocked ↔
        p.pulloff < q.pulloff) ∧
      (⟨n, .secondary⟩ ∈ (planMove m motors .pulloff2).overrides.blocked ↔
        q.pulloff < p.pulloff)) ∧
    ∀ side, (planMove m motors .pulloff2).Moves m ⟨n, side⟩ ↔
      ∃ a h mo, TakesPart m motors n a h ∧ a.motor? side = some mo ∧
        a.commonPulloff < mo.pulloff := by
  refine ⟨squares_pulloff2_iff, ?_, fun a h p q hu hn => ⟨?_, hu.mem_blocked_iff hn⟩,
    fun side => moves_pulloff2_iff (MachineSettings.sound_of_validate hm)⟩
  · rw [squares_pulloff2_iff]
    constructor
    · intro hiff a h p q hu hn
      exact (hiff.1 ⟨hn, a, h, p, q, hu⟩).1
    · intro hboth
      constructor
      · rintro ⟨hn, a, h, p, q, hu⟩
        exact ⟨hboth a h p q hu hn, a, h, p, q, hu⟩
      · rintro ⟨hn, hu⟩
        exact ⟨MotorSet.mem_axes.2 (.inl (MotorSet.mem_squared.1 hn).1), hu⟩
  · rw [(hu.takesPart hn).target_pulloff2, hu.extraPulloff_eq]

/-- Two gantries, of which the first one homes with one motor alone. -/
def halfGantry : MachineSettings ℚ where
  logLevel := .info
  axes :=
    [{ name := "X", maxTravel := 100, stepsPerMm := 80, homing := some .default,
       motors := [⟨1, true⟩, ⟨5 / 2, false⟩] },
     { name := "Y", maxTravel := 100, stepsPerMm := 80, homing := some .default,
       motors := [⟨1, true⟩, ⟨2, true⟩] }]

/-- The motors of the gantries that home. -/
def halfGantryMotors : MotorSet := .ofList [⟨0, .primary⟩, ⟨1, .primary⟩, ⟨1, .secondary⟩]

theorem squares_of_validate_halfGantry :
    halfGantry.validate = .ok () ∧
      (planMove halfGantry halfGantryMotors .pulloff2).Squares 1 ∧
      ⟨1, .primary⟩ ∈ (planMove halfGantry halfGantryMotors .pulloff2).overrides.blocked ∧
      (planMove halfGantry halfGantryMotors .pulloff2).Moves halfGantry ⟨0, .secondary⟩ := by
  have hm : halfGantry.validate = .ok () :=
    MachineSettings.validate_eq_ok_iff.2 (by decide +kernel)
  have hu : UnevenAxis halfGantry 1 halfGantry.axes[1] .default ⟨1, true⟩ ⟨2, true⟩ :=
    ⟨rfl, rfl, rfl, rfl, by norm_num⟩
  have hn : 1 ∈ halfGantryMotors.axes := by decide
  obtain ⟨hsquares, -, hdetail, -⟩ := squares_of_validate hm halfGantryMotors 1
  obtain ⟨-, -, -, hmoves⟩ := squares_of_validate hm halfGantryMotors 0
  refine ⟨hm, hsquares.2 ⟨hn, _, _, _, _, hu⟩, ?_, ?_⟩
  · exact (hdetail _ _ _ _ hu hn).2.1.2 (by norm_num)
  · have hp : TakesPart halfGantry halfGantryMotors 0 halfGantry.axes[0] .default :=
      ⟨rfl, rfl, by decide⟩
    exact (hmoves .secondary).2 ⟨_, _, ⟨5 / 2, false⟩, hp, rfl, by decide +kernel⟩

/-- The gantry that homes with one motor is squared all the same, and the motor that moves is the
other one. -/
theorem not_squares_halfGantry :
    halfGantry.validate = .ok () ∧ needsSquaring halfGantry halfGantryMotors = true ∧
      (planMove halfGantry halfGantryMotors .pulloff2).Squares 0 ∧ 0 ∉ halfGantryMotors.squared ∧
      (planMove halfGantry halfGantryMotors .pulloff2).Moves halfGantry ⟨0, .secondary⟩ ∧
      ⟨0, .secondary⟩ ∉ halfGantryMotors := by
  have hdisplaces : (planMove halfGantry halfGantryMotors .pulloff2).Displaces 0 :=
    ⟨-3 / 2, by norm_num, by decide +kernel⟩
  have hmoves : (planMove halfGantry halfGantryMotors .pulloff2).Moves halfGantry
      ⟨0, .secondary⟩ := ⟨⟨_, _, rfl, rfl⟩, hdisplaces, by decide +kernel⟩
  exact ⟨MachineSettings.validate_eq_ok_iff.2 (by decide +kernel), by decide +kernel,
    .inl hdisplaces, by decide, hmoves, by decide⟩

end Homing
