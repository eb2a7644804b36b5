import Homing.Proofs.Exact.Scalar
import Homing.Settings.Fault

/-!
# What accepted settings promise

`MachineSettings.validate` lets only settings through whose quantities compare with zero as
they should (`MachineSettings.accepted_of_validate`). In an arithmetic with values that are no
numbers a comparison that holds and one that does not fail say different things, so these
promises keep the form in which validation asks for them.

Read in exact arithmetic the quantities then have the right sign. The motion of a cycle rests on
these signs: rates and scalers are positive, so every approach goes somewhere, and no pull-off
is negative, so every pull-off goes away from the switch.
-/

namespace Homing

/-! ## Accepted settings in any arithmetic -/

section

variable {α : Type u} [Scalar α] {m : MachineSettings α}

theorem fault?_eq_none_of_axesFault? {axisCount : Nat} {seen : List String}
    {axes : List (AxisSettings α)} (hf : axesFault? axisCount seen axes = none)
    {a : AxisSettings α} (ha : a ∈ axes) : a.fault? axisCount = none := by
  induction axes generalizing seen with
  | nil => cases ha
  | cons b axes ih =>
      rw [axesFault?] at hf
      split at hf
      · cases hf
      cases hb : b.fault? axisCount with
      | some f => simp [hb] at hf
      | none =>
          rw [hb] at hf
          rcases List.mem_cons.1 ha with rfl | ha
          · exact hb
          · exact ih hf ha

theorem MachineSettings.length_le_of_validate (hm : m.validate = .ok ()) :
    m.axes.length ≤ maxAxes := by
  have hf := MachineSettings.validate_eq_ok_iff.1 hm
  unfold MachineSettings.fault? at hf
  split at hf
  · cases hf
  rename_i hcount
  exact Nat.le_of_not_lt fun hlt => hcount (.inr hlt)

theorem MachineSettings.fault?_eq_none_of_validate (hm : m.validate = .ok ()) {a : AxisSettings α}
    (ha : a ∈ m.axes) : a.fault? m.axes.length = none := by
  have hf := MachineSettings.validate_eq_ok_iff.1 hm
  unfold MachineSettings.fault? at hf
  split at hf
  · cases hf
  exact fault?_eq_none_of_axesFault? hf ha

/-- The number of a cycle is at most the number of axes. -/
theorem HomingSettings.cycle_le_of_fault? {axisCount k : Nat} {h : HomingSettings α}
    (hf : h.fault? axisCount = none) (hk : h.cycle = some k) : 1 ≤ k ∧ k ≤ axisCount := by
  unfold HomingSettings.fault? at hf
  simp only [hk] at hf
  split at hf
  · cases hf
  split at hf
  · cases hf
  split at hf
  · cases hf
  split at hf
  · cases hf
  omega

theorem AxisSettings.homing_fault?_of_fault? {axisCount : Nat} {a : AxisSettings α}
    {h : HomingSettings α} (hf : a.fault? axisCount = none) (hh : a.homing = some h) :
    h.fault? axisCount = none := by
  unfold AxisSettings.fault? at hf
  split at hf
  · cases hf
  split at hf
  · cases hf
  split at hf
  · cases hf
  split at hf
  · cases hf
  rwa [hh, Option.bind_some, Option.map_eq_none_iff] at hf

/-- The quantities of an axis that homes compare as they should: each is above zero, and so no
value that is not a number. -/
structure HomingSettings.Accepted (h : HomingSettings α) : Prop where
  seekRate : Scalar.lt 0.0 h.seekRate = true
  feedRate : Scalar.lt 0.0 h.feedRate = true
  seekScaler : Scalar.lt 0.0 h.seekScaler = true
  feedScaler : Scalar.lt 0.0 h.feedScaler = true

/-- The quantities of an axis compare as they should, and it has one motor or two. A pull-off only
is not below zero. -/
structure AxisSettings.Accepted (a : AxisSettings α) : Prop where
  maxTravel : Scalar.lt 0.0 a.maxTravel = true
  stepsPerMm : Scalar.lt 0.0 a.stepsPerMm = true
  motors : a.motors ≠ []
  motorCount : a.motors.length ≤ maxMotorsPerAxis
  pulloff : ∀ mo ∈ a.motors, Scalar.lt mo.pulloff 0.0 = false
  homing : ∀ h, a.homing = some h → h.Accepted

theorem HomingSettings.accepted_of_fault? {axisCount : Nat} {h : HomingSettings α}
    (hf : h.fault? axisCount = none) : h.Accepted := by
  unfold HomingSettings.fault? at hf
  split at hf
  · cases hf
  rename_i hseek
  split at hf
  · cases hf
  rename_i hfeed
  split at hf
  · cases hf
  rename_i hscalers
  rw [Bool.not_eq_true', Bool.not_eq_false] at hseek hfeed
  simp only [Bool.or_eq_true, Bool.not_eq_true', not_or, Bool.not_eq_false] at hscalers
  exact ⟨hseek, hfeed, hscalers.1, hscalers.2⟩

theorem AxisSettings.accepted_of_fault? {axisCount : Nat} {a : AxisSettings α}
    (hf : a.fault? axisCount = none) : a.Accepted := by
  have hnone := hf
  unfold AxisSettings.fault? at hf
  split at hf
  · cases hf
  rename_i htravel
  split at hf
  · cases hf
  rename_i hsteps
  split at hf
  · cases hf
  rename_i hcount
  rw [Bool.not_eq_true', Bool.not_eq_false] at htravel hsteps
  split at hf
  · cases hf
  rename_i hpulloff
  rw [List.find?_eq_none] at hpulloff
  refine ⟨htravel, hsteps, ?_, ?_, fun mo hmo => Bool.eq_false_iff.2 (hpulloff mo hmo), ?_⟩
  · exact fun he => hcount (.inl (by rw [he]; rfl))
  · exact Nat.le_of_not_lt fun hlt => hcount (.inr hlt)
  · intro h hh
    exact HomingSettings.accepted_of_fault? (AxisSettings.homing_fault?_of_fault? hnone hh)

/-- Each axis of settings that validation lets through is accepted. -/
theorem MachineSettings.accepted_of_validate (hm : m.validate = .ok ()) {a : AxisSettings α}
    (ha : a ∈ m.axes) : a.Accepted :=
  AxisSettings.accepted_of_fault? (fault?_eq_none_of_validate hm ha)

end

/-! ## Accepted settings in exact arithmetic -/

variable {K : Type u} [Field K] [LinearOrder K]

/-- The parameters of an axis that homes have the right signs. -/
structure HomingSettings.Sound (h : HomingSettings K) : Prop where
  seekRate : 0 < h.seekRate
  feedRate : 0 < h.feedRate
  seekScaler : 0 < h.seekScaler
  feedScaler : 0 < h.feedScaler

/-- The quantities of an axis have the right signs, and it has one motor or two. -/
structure AxisSettings.Sound (a : AxisSettings K) : Prop where
  maxTravel : 0 < a.maxTravel
  stepsPerMm : 0 < a.stepsPerMm
  motors : a.motors ≠ []
  motorCount : a.motors.length ≤ maxMotorsPerAxis
  pulloff : ∀ mo ∈ a.motors, 0 ≤ mo.pulloff
  homing : ∀ h, a.homing = some h → h.Sound

theorem AxisSettings.Sound.isSome_primary {a : AxisSettings K} (ha : a.Sound) :
    (a.motor? .primary).isSome = true := by
  cases hmotors : a.motors with
  | nil => exact absurd hmotors ha.motors
  | cons mo rest => simp [AxisSettings.motor?, hmotors, Side.index]

/-- There are no more axes than there can be, and each is sound. -/
structure MachineSettings.Sound (m : MachineSettings K) : Prop where
  length_le : m.axes.length ≤ maxAxes
  axis : ∀ a ∈ m.axes, a.Sound

variable [FloorRing K] [SquareRoot K]

theorem HomingSettings.Accepted.sound {h : HomingSettings K} (hh : h.Accepted) : h.Sound where
  seekRate := by simpa using hh.seekRate
  feedRate := by simpa using hh.feedRate
  seekScaler := by simpa using hh.seekScaler
  feedScaler := by simpa using hh.feedScaler

theorem AxisSettings.Accepted.sound {a : AxisSettings K} (ha : a.Accepted) : a.Sound where
  maxTravel := by simpa using ha.maxTravel
  stepsPerMm := by simpa using ha.stepsPerMm
  motors := ha.motors
  motorCount := ha.motorCount
  pulloff mo hmo := by simpa using ha.pulloff mo hmo
  homing h hh := (ha.homing h hh).sound

/-- Settings that are accepted are sound. -/
theorem MachineSettings.sound_of_validate {m : MachineSettings K} (hm : m.validate = .ok ()) :
    m.Sound :=
  ⟨length_le_of_validate hm, fun _ ha => (accepted_of_validate hm ha).sound⟩

end Homing
