import Homing.Proofs.Exact.Scalar
import Homing.Proofs.Plan.Shares

/-!
# Settings with homing directions reversed

`m.turned F` are the settings `m` with the homing direction of the axes of `F` reversed. The
direction of an axis decides one thing in a plan, the sign of its displacement. Everything
else of a plan, from its phases to the rate along the line, is the same for both settings in
any arithmetic; that the displacements of the axes of `F` are reversed takes exact arithmetic.
-/

namespace Homing

/-- A displacement, reversed where `flip` says so. -/
def signed {α : Type u} [Neg α] (flip : Bool) (d : α) : α := if flip then -d else d

section Signed

variable {K : Type v} [Field K] (flip : Bool) (c d : K)

theorem signed_zero : signed flip (0 : K) = 0 := by
  cases flip with
  | false => rfl
  | true => exact neg_zero

theorem signed_eq_zero : signed flip d = 0 ↔ d = 0 := by
  cases flip with
  | false => rfl
  | true => exact neg_eq_zero

theorem signed_add : signed flip (c + d) = signed flip c + signed flip d := by
  cases flip with
  | false => rfl
  | true => exact neg_add c d

theorem signed_mul : signed flip c * d = signed flip (c * d) := by
  cases flip with
  | false => rfl
  | true => exact neg_mul c d

theorem signed_mul_self : signed flip d * signed flip d = d * d := by
  cases flip with
  | false => rfl
  | true => exact neg_mul_neg d d

end Signed

variable {α : Type u}

/-- Homing parameters with the direction reversed where `flip` says so. -/
def HomingSettings.turned (flip : Bool) (h : HomingSettings α) : HomingSettings α :=
  { h with positiveDirection := h.positiveDirection ^^ flip }

/-- The axis with its homing direction reversed where `flip` says so. -/
def AxisSettings.turned (flip : Bool) (a : AxisSettings α) : AxisSettings α :=
  { a with homing := a.homing.map (·.turned flip) }

namespace MachineSettings

/-- The settings with the homing direction of some axes reversed. -/
def turned (F : AxisSet) (m : MachineSettings α) : MachineSettings α :=
  { m with axes := m.axes.mapIdx fun n a => a.turned (n ∈ F) }

variable {m : MachineSettings α} {F : AxisSet} {n : Nat}

theorem getElem?_turned (m : MachineSettings α) (F : AxisSet) (n : Nat) :
    (m.turned F).axes[n]? = (m.axes[n]?).map (·.turned (n ∈ F)) :=
  List.getElem?_mapIdx

/-- A test that does not look at the direction has the same axes. -/
theorem axesWhere_turned {test : AxisSettings α → Bool}
    (htest : ∀ flip a, test (a.turned flip) = test a) :
    (m.turned F).axesWhere test = m.axesWhere test := by
  ext n
  rw [mem_axesWhere, mem_axesWhere, getElem?_turned]
  refine and_congr_right fun _ => ⟨?_, ?_⟩
  · rintro ⟨b, hb, hbtest⟩
    obtain ⟨a, ha, rfl⟩ := Option.map_eq_some_iff.1 hb
    exact ⟨a, ha, (htest _ a).symm.trans hbtest⟩
  · rintro ⟨a, ha, hatest⟩
    exact ⟨_, Option.map_eq_some_iff.2 ⟨a, ha, rfl⟩, (htest _ a).trans hatest⟩

theorem homingAxes_turned (m : MachineSettings α) (F : AxisSet) :
    (m.turned F).homingAxes = m.homingAxes :=
  axesWhere_turned fun _ _ => Option.isSome_map

theorem axesInCycle_turned (m : MachineSettings α) (F : AxisSet) (k : Nat) :
    (m.turned F).axesInCycle k = m.axesInCycle k :=
  axesWhere_turned fun _ a => by cases hh : a.homing <;> simp [AxisSettings.turned, hh]; rfl

end MachineSettings

variable [Scalar α] {m : MachineSettings α} {F : AxisSet} {motors : MotorSet} {phase : Phase}

theorem phasePlan_turned (m : MachineSettings α) (F : AxisSet) (motors : MotorSet) :
    phasePlan (m.turned F) motors = phasePlan m motors := by
  have hsquaring : needsSquaring (m.turned F) motors = needsSquaring m motors := by
    unfold needsSquaring
    refine congrArg _ (funext fun n => ?_)
    rw [MachineSettings.getElem?_turned]
    cases m.axes[n]? <;> rfl
  unfold phasePlan
  rw [hsquaring]

/-- The share with its direction reversed where `flip` says so. -/
def Share.turned (flip : Bool) (s : Share α) : Share α :=
  { s with ascending := s.ascending ^^ flip }

theorem Share.ofAxis_turned (flip : Bool) (phase : Phase) (n : Nat) (a : AxisSettings α)
    (h : HomingSettings α) :
    ofAxis phase n (a.turned flip) (h.turned flip) = (ofAxis phase n a h).turned flip := by
  have hascending : ((h.positiveDirection ^^ flip) == phase.isApproach) =
      ((h.positiveDirection == phase.isApproach) ^^ flip) := by
    cases h.positiveDirection <;> cases flip <;> cases phase.isApproach <;> rfl
  unfold ofAxis turned
  rw [← hascending]
  cases phase <;> rfl

theorem shares_turned (m : MachineSettings α) (F : AxisSet) (motors : MotorSet) (phase : Phase) :
    shares (m.turned F) motors phase =
      (shares m motors phase).map fun s => s.turned (s.axis ∈ F) := by
  have hzip : (m.turned F).axes.zipIdx =
      m.axes.zipIdx.map fun e => (e.1.turned (e.2 ∈ F), e.2) := by
    refine List.ext_getElem? fun i => ?_
    rw [List.getElem?_zipIdx, MachineSettings.getElem?_turned, List.getElem?_map,
      List.getElem?_zipIdx, Option.map_map, Option.map_map]
    simp [Function.comp_def]
  unfold shares
  rw [hzip, ← List.map_take, List.filterMap_map, List.map_filterMap]
  refine List.filterMap_congr fun e _ => ?_
  obtain ⟨a, n⟩ := e
  dsimp only [Function.comp]
  split
  · cases hh : a.homing with
    | none => simp [AxisSettings.turned, hh]
    | some h =>
        have hshare := Share.ofAxis_turned (n ∈ F) phase n a h
        simpa [AxisSettings.turned, hh, Share.ofAxis] using hshare
  · rfl

theorem limitingRate_turned (F : AxisSet) (ss : List (Share α)) :
    limitingRate (ss.map fun s => s.turned (s.axis ∈ F)) = limitingRate ss := by
  unfold limitingRate
  rw [List.foldl_map]
  rfl

/-- Of a plan only the displacements depend on the directions. -/
theorem planMove_turned (m : MachineSettings α) (F : AxisSet) (motors : MotorSet) (phase : Phase) :
    planMove (m.turned F) motors phase =
      { planMove m motors phase with target := (planMove (m.turned F) motors phase).target } := by
  have hrates (ss : List (Share α)) :
      perAxis (ss.map fun s => s.turned (s.axis ∈ F)) (·.rate) = perAxis ss (·.rate) := by
    unfold perAxis
    refine congrArg _ (funext fun i => ?_)
    rw [List.find?_map]
    have hfind : (fun s : Share α => (s.turned (s.axis ∈ F)).axis == i.val) =
        (·.axis == i.val) := rfl
    rw [Function.comp_def, hfind]
    cases ss.find? (·.axis == i.val) <;> rfl
  unfold planMove PlannedMove.ofShares
  rw [shares_turned, hrates, limitingRate_turned, List.map_map, List.foldl_map, List.foldl_map,
    List.filterMap_map]
  rfl

section Exact

variable {K : Type v} [Field K] [LinearOrder K] [FloorRing K] [SquareRoot K]

theorem Share.displacement_turned (flip : Bool) (phase : Phase) (limiting : K) (s : Share K) :
    (s.turned flip).displacement phase limiting = signed flip (s.displacement phase limiting) := by
  have htravel : (if (s.ascending ^^ flip) = true then s.travel else -s.travel) =
      signed flip (if s.ascending = true then s.travel else -s.travel) := by
    cases flip <;> cases s.ascending <;> simp [signed]
  unfold displacement turned
  dsimp only
  rw [htravel, signed_mul]
  split
  · exact signed_mul flip _ _
  · rfl

variable {m : MachineSettings K} {n : Nat}

theorem target_turned (F : AxisSet) (hn : n ∈ (planMove m motors phase).axes) :
    (planMove (m.turned F) motors phase).target[n]? =
      ((planMove m motors phase).target[n]?).map (signed (n ∈ F)) := by
  obtain ⟨a, h, hp⟩ := mem_axes_planMove.1 hn
  have hp' : TakesPart (m.turned F) motors n (a.turned (n ∈ F)) (h.turned (n ∈ F)) := by
    refine ⟨?_, ?_, hp.motor⟩
    · rw [MachineSettings.getElem?_turned, hp.axis, Option.map_some]
    · rw [AxisSettings.turned, hp.homing, Option.map_some]
  rw [target_planMove hp', target_planMove hp, shares_turned, limitingRate_turned,
    Share.ofAxis_turned, Share.displacement_turned, Option.map_some]

end Exact

end Homing
