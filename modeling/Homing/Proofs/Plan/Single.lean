import Homing.Proofs.Plan.Travel

/-!
# Plans for one axis

A cycle of one axis makes plans of a single share. The rate along the line is then the
rate of the axis and the length of the line its travel, which is all that is left of the
vector sums of a plan.
-/

namespace Homing

/-- A set of motors is made of all motors of one axis that homes. -/
structure Alone {α : Type u} (m : MachineSettings α) (motors : MotorSet) (n : Nat)
    (a : AxisSettings α) (h : HomingSettings α) : Prop where
  takes : TakesPart m motors n a h
  mem : ∀ id, id ∈ motors ↔ id.axis = n ∧ (a.motor? id.side).isSome = true

section

variable {α : Type u} [Scalar α] {m : MachineSettings α} {motors : MotorSet} {phase : Phase}
  {n : Nat} {a : AxisSettings α} {h : HomingSettings α}

omit [Scalar α] in
theorem Alone.axis_eq (halone : Alone m motors n a h) {k : Nat} (hk : k ∈ motors.axes) : k = n := by
  obtain ⟨side, hid⟩ := MotorSet.mem_axes_iff_exists.1 hk
  exact ((halone.mem _).1 hid).1

omit [Scalar α] in
theorem Alone.takes_of_mem (halone : Alone m motors n a h) {id : Motor} (hid : id ∈ motors) :
    id.axis = n ∧ TakesPart m motors id.axis a h ∧ ∃ mo, a.motor? id.side = some mo := by
  obtain ⟨haxis, hside⟩ := (halone.mem id).1 hid
  exact ⟨haxis, haxis ▸ halone.takes, Option.isSome_iff_exists.1 hside⟩

theorem Alone.shares_eq (halone : Alone m motors n a h) :
    shares m motors phase = [Share.ofAxis phase n a h] := by
  refine eq_of_ascending (·.axis) (ascending_shares m motors phase) (List.pairwise_singleton _ _)
    fun s => ?_
  rw [List.mem_singleton, mem_shares]
  constructor
  · rintro ⟨k, b, g, hq, rfl⟩
    obtain rfl := halone.axis_eq hq.motor
    obtain ⟨rfl, rfl⟩ := halone.takes.unique hq
    rfl
  · rintro rfl
    exact ⟨n, a, h, halone.takes, rfl⟩

omit [Scalar α] in
theorem Alone.settle_eq (halone : Alone m motors n a h) {ms : Nat}
    (hms : LongestSettle m motors ms) : ms = h.settle := by
  have hle := hms.le n a h halone.takes
  rcases hms.attained with hzero | ⟨k, b, g, hq, heq⟩
  · omega
  · obtain rfl := halone.axis_eq hq.motor
    obtain ⟨rfl, rfl⟩ := halone.takes.unique hq
    exact heq.symm

end

variable {K : Type u} [Field K] [LinearOrder K] [FloorRing K] [SquareRoot K]

section

variable {m : MachineSettings K} {motors : MotorSet} {n : Nat} {a : AxisSettings K}
  {h : HomingSettings K}

/-- An axis alone is squared when its two motors have pull-offs of their own. -/
theorem Alone.needsSquaring_iff (halone : Alone m motors n a h) (ha : a.Sound) :
    needsSquaring m motors = true ↔ a.extraPulloff ≠ 0 := by
  constructor
  · intro hneeds
    rw [needsSquaring, List.any_eq_true] at hneeds
    obtain ⟨k, hk, hany⟩ := hneeds
    have haxis : k ∈ motors.axes :=
      MotorSet.mem_axes.2 (.inl (MotorSet.mem_squared.1 (AxisSet.mem_toList.1 hk)).1)
    obtain rfl := halone.axis_eq haxis
    rw [halone.takes.axis] at hany
    simp only [Option.any_some, Bool.and_eq_true, Bool.not_eq_true', Scalar.eq_exact,
      Scalar.zero_exact, decide_eq_false_iff_not] at hany
    exact hany.2
  · intro hextra
    by_contra hneeds
    rw [Bool.not_eq_true] at hneeds
    exact hextra (ha.extraPulloff_eq_zero hneeds halone.takes.axis
      fun side hside => (halone.mem _).2 ⟨rfl, hside⟩)

variable [IsStrictOrderedRing K] {phase : Phase}

theorem Alone.feedRate_eq [ExactRoot K] (halone : Alone m motors n a h) (hh : h.Sound) :
    (planMove m motors phase).feedRate = h.rate phase := by
  rw [planMove, halone.shares_eq]
  simp only [PlannedMove.ofShares, List.foldl_cons, List.foldl_nil, Scalar.zero_exact, zero_add,
    Scalar.sqrt_exact, ExactRoot.sqrt_mul_self]
  exact abs_of_pos (hh.rate phase)

/-- Alone, an axis is its own limiting axis. -/
theorem Alone.target_fastApproach (halone : Alone m motors n a h) (ha : a.Sound) (hh : h.Sound) :
    (planMove m motors .fastApproach).target[n]? =
      some (h.toward (a.maxTravel * h.seekScaler)) := by
  have hlimiting : limitingRate (shares m motors .fastApproach) = h.seekRate := by
    have htime : 0 < a.maxTravel / h.seekRate := div_pos ha.maxTravel hh.seekRate
    rw [halone.shares_eq]
    simp [limitingRate, Share.ofAxis, Share.travelOf, HomingSettings.rate, Phase.isSeek, htime]
  rw [halone.takes.target_fastApproach_eq hlimiting hh.seekRate, div_self hh.seekRate.ne', mul_one]

end

end Homing
