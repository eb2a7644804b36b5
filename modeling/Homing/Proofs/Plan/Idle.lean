import Homing.Proofs.Plan.Shares

/-!
# Axes that take no part

Everything in a plan is put together from the shares of the axes that take part, and each
share from the settings of its own axis. So two plans are the same when the same axes take
part in them with the same settings (`planMove_congr`). Neither the settings of an axis
without a motor in the set show in a plan nor the motors of an axis that does not home
(`planMove_idle`): not in the choice of the limiting axis or in a sum, and not in what the
plan puts in the log.
-/

namespace Homing

variable {α : Type u} {m m' : MachineSettings α} {motors motors' : MotorSet} {phase : Phase}

/-- The same axes take part in two machines, with the same settings. -/
def SameParts (m : MachineSettings α) (motors : MotorSet) (m' : MachineSettings α)
    (motors' : MotorSet) : Prop :=
  ∀ n a h, TakesPart m motors n a h ↔ TakesPart m' motors' n a h

theorem sameParts_of_agree (hagree : ∀ n ∈ motors.axes, m.axes[n]? = m'.axes[n]?) :
    SameParts m motors m' motors := by
  intro n a h
  constructor
  · exact fun hp => ⟨hagree n hp.motor ▸ hp.axis, hp.homing, hp.motor⟩
  · exact fun hp => ⟨(hagree n hp.motor).symm ▸ hp.axis, hp.homing, hp.motor⟩

theorem sameParts_union {extra : MotorSet}
    (hextra : ∀ id ∈ extra, ∀ a, m.axes[id.axis]? = some a → a.homing = none) :
    SameParts m (motors ∪ extra) m motors := by
  intro n a h
  constructor
  · intro hp
    refine ⟨hp.axis, hp.homing, ?_⟩
    obtain ⟨side, hid⟩ := MotorSet.mem_axes_iff_exists.1 hp.motor
    rcases MotorSet.mem_union.1 hid with hid | hid
    · exact MotorSet.mem_axes_iff_exists.2 ⟨side, hid⟩
    · have hnone := hextra _ hid a hp.axis
      rw [hp.homing] at hnone
      cases hnone
  · intro hp
    obtain ⟨side, hid⟩ := MotorSet.mem_axes_iff_exists.1 hp.motor
    exact ⟨hp.axis, hp.homing,
      MotorSet.mem_axes_iff_exists.2 ⟨side, MotorSet.mem_union.2 (.inl hid)⟩⟩

variable [Scalar α]

/-- The shares of a phase are those of the axes that take part, whatever other axes there
are. -/
theorem shares_congr (h : SameParts m motors m' motors') :
    shares m motors phase = shares m' motors' phase := by
  refine eq_of_ascending (·.axis) (ascending_shares m motors phase)
    (ascending_shares m' motors' phase) fun s => ?_
  rw [mem_shares, mem_shares]
  constructor
  · rintro ⟨n, a, g, hp, rfl⟩
    exact ⟨n, a, g, (h n a g).1 hp, rfl⟩
  · rintro ⟨n, a, g, hp, rfl⟩
    exact ⟨n, a, g, (h n a g).2 hp, rfl⟩

theorem planMove_congr (h : SameParts m motors m' motors') :
    planMove m motors phase = planMove m' motors' phase ∧
      planNotes m motors phase = planNotes m' motors' phase := by
  unfold planMove planNotes
  rw [shares_congr h]
  exact ⟨rfl, rfl⟩

/-- A plan does not depend on the settings of the axes without a motor in the set, and
motors of axes that do not home add nothing to it. -/
theorem planMove_idle (motors : MotorSet) (phase : Phase) :
    (∀ m m' : MachineSettings α, (∀ n ∈ motors.axes, m.axes[n]? = m'.axes[n]?) →
      planMove m motors phase = planMove m' motors phase ∧
        planNotes m motors phase = planNotes m' motors phase) ∧
    ∀ (m : MachineSettings α) (idle : List Nat) (extra : MotorSet),
      (∀ n ∈ idle, ∀ a, m.axes[n]? = some a → a.homing = none) → (∀ id ∈ extra, id.axis ∈ idle) →
        planMove m (motors ∪ extra) phase = planMove m motors phase ∧
          planNotes m (motors ∪ extra) phase = planNotes m motors phase := by
  constructor
  · intro m m' hagree
    exact planMove_congr (sameParts_of_agree hagree)
  · intro m idle extra hidle hextra
    exact planMove_congr (sameParts_union fun id hid => hidle id.axis (hextra id hid))

/-- An axis that homes, with another one beside it. -/
def besideX (other : AxisSettings Float) : MachineSettings Float where
  logLevel := .info
  axes := [{ name := "X", maxTravel := 100.0, stepsPerMm := 80.0, homing := some .default,
             motors := [.default] }, other]

/-- An axis with two motors that waits long after each move. -/
def slowPair : AxisSettings Float where
  name := "Y"
  maxTravel := 900.0
  stepsPerMm := 40.0
  homing := some { HomingSettings.default with settle := 5000 }
  motors := [.default, .default]

/-- The same axis, which does not home. -/
def slowPairOff : AxisSettings Float := { slowPair with homing := none }

/-- A plan for the first axis does not tell whether the second one homes, and where it does
not its motors are no part of the plan. -/
theorem planMove_idle_slowPair :
    (∀ n ∈ (MotorSet.ofAxesBothSides (.single 0)).axes,
        (besideX slowPair).axes[n]? = (besideX slowPairOff).axes[n]?) ∧
      (∀ n ∈ [1], ∀ a, (besideX slowPairOff).axes[n]? = some a → a.homing = none) ∧
      (∀ id ∈ MotorSet.ofAxesBothSides (.single 1), id.axis ∈ [1]) ∧
      planMove (besideX slowPair) (.ofAxesBothSides (.single 0)) .fastApproach =
        planMove (besideX slowPairOff) (.ofAxesBothSides (.single 0)) .fastApproach ∧
      planMove (besideX slowPairOff)
          (.ofAxesBothSides (.single 0) ∪ .ofAxesBothSides (.single 1)) .fastApproach =
        planMove (besideX slowPairOff) (.ofAxesBothSides (.single 0)) .fastApproach := by
  have hagree : ∀ n ∈ (MotorSet.ofAxesBothSides (.single 0)).axes,
      (besideX slowPair).axes[n]? = (besideX slowPairOff).axes[n]? := by
    intro n hn
    obtain rfl : n = 0 := by simpa [MotorSet.ofAxesBothSides, maxAxes] using hn
    rfl
  have hidle : ∀ n ∈ [1], ∀ a, (besideX slowPairOff).axes[n]? = some a → a.homing = none := by
    intro n hn a ha
    obtain rfl := List.mem_singleton.1 hn
    obtain rfl := Option.some.inj ha
    rfl
  have hextra : ∀ id ∈ MotorSet.ofAxesBothSides (.single 1), id.axis ∈ [1] := by
    intro id hid
    have haxis : id.axis = 1 ∧ id.side = .primary ∨ id.axis = 1 ∧ id.side = .secondary := by
      simpa [MotorSet.ofAxesBothSides, maxAxes] using hid
    rcases haxis with ⟨haxis, -⟩ | ⟨haxis, -⟩ <;> exact List.mem_singleton.2 haxis
  obtain ⟨hagrees, hadds⟩ := planMove_idle (α := Float) (.ofAxesBothSides (.single 0)) .fastApproach
  exact ⟨hagree, hidle, hextra, (hagrees _ _ hagree).1, (hadds _ [1] _ hidle hextra).1⟩

end Homing
