import Homing.Proofs.Binary.Magnitude
import Homing.Proofs.Plan.ClosedForm
import Homing.Proofs.Settings.Sound

/-!
# When a plan can be carried out

In binary64 a plan is `Usable` if each of its components is finite. Validation bounds the quantities
of an axis from one side only, so accepted settings may hold an infinite travel, or a rate whose
square is infinite, and a plan need not be usable.

How much of this is the fault of the settings is said by `usable_planMove_iff`. As long as the
finite ones of the quantities that a phase reads are `Moderate`, no step of a plan overflows, and
the plan is usable exactly when all that the phase reads is finite. The bounds are far from any
machine and far from tight: they are such that the products and the sum of the squares, with one
bit lost in each step, stay below `2 ^ 1024`.
-/

namespace Homing

open Binary

/-- Every component of a plan is finite. -/
structure PlannedMove.Usable (planned : PlannedMove Float) : Prop where
  target : ∀ (n : Nat) (d : Float), planned.target[n]? = some d → d.isFinite = true
  rates : ∀ (n : Nat) (r : Float), planned.rates[n]? = some r → r.isFinite = true
  feedRate : planned.feedRate.isFinite = true

/-- What a phase reads of an axis is finite. -/
structure ReadsFinite (phase : Phase) (a : AxisSettings Float) (h : HomingSettings Float) :
    Prop where
  travel : (Share.travelOf phase a).isFinite = true
  scaler : (h.scaler phase).isFinite = true
  rate : (h.rate phase).isFinite = true

/-- What a phase reads of an axis, where it is finite, is of a moderate magnitude. -/
structure Moderate (phase : Phase) (a : AxisSettings Float) (h : HomingSettings Float) : Prop where
  travel : (Share.travelOf phase a).isFinite = true →
    Scalar.lt (Share.travelOf phase a) 1e75 = true
  scaler : (h.scaler phase).isFinite = true → Scalar.lt (h.scaler phase) 1e75 = true
  rate : (h.rate phase).isFinite = true →
    Scalar.lt 1e-75 (h.rate phase) = true ∧ Scalar.lt (h.rate phase) 1e75 = true

variable {m : MachineSettings Float} {motors : MotorSet} {phase : Phase} {n : Nat}
  {a : AxisSettings Float} {h : HomingSettings Float}

instance : Decidable (ReadsFinite phase a h) :=
  decidable_of_iff ((Share.travelOf phase a).isFinite = true ∧ (h.scaler phase).isFinite = true ∧
    (h.rate phase).isFinite = true)
    ⟨fun ⟨ht, hs, hr⟩ => ⟨ht, hs, hr⟩, fun ⟨ht, hs, hr⟩ => ⟨ht, hs, hr⟩⟩

instance : Decidable (Moderate phase a h) :=
  decidable_of_iff (((Share.travelOf phase a).isFinite = true →
      Scalar.lt (Share.travelOf phase a) 1e75 = true) ∧
    ((h.scaler phase).isFinite = true → Scalar.lt (h.scaler phase) 1e75 = true) ∧
    ((h.rate phase).isFinite = true →
      Scalar.lt 1e-75 (h.rate phase) = true ∧ Scalar.lt (h.rate phase) 1e75 = true))
    ⟨fun ⟨ht, hs, hr⟩ => ⟨ht, hs, hr⟩, fun ⟨ht, hs, hr⟩ => ⟨ht, hs, hr⟩⟩

theorem TakesPart.accepted (hp : TakesPart m motors n a h) (hm : m.validate = .ok ()) :
    a.Accepted ∧ h.Accepted := by
  have ha := MachineSettings.accepted_of_validate hm (List.mem_of_getElem? hp.axis)
  exact ⟨ha, ha.homing h hp.homing⟩

theorem target_planMove_eq (hp : TakesPart m motors n a h) :
    (planMove m motors phase).target[n]? =
      some (displaced phase (planMove m motors phase).limitingRate a h) := by
  rw [target_planMove hp, displacement_ofAxis]
  rfl

/-! ## A usable plan reads what is finite -/

/-- A displacement has its travel and its scaler as factors. -/
theorem isFinite_of_displaced {limiting : Float}
    (hd : (displaced phase limiting a h).isFinite = true) :
    (Share.travelOf phase a).isFinite = true ∧ (h.scaler phase).isFinite = true := by
  have key (hscaled : ((if h.positiveDirection = phase.isApproach then Share.travelOf phase a
      else -Share.travelOf phase a) * h.scaler phase).isFinite = true) :
      (Share.travelOf phase a).isFinite = true ∧ (h.scaler phase).isFinite = true := by
    obtain ⟨htravel, hscaler⟩ := isFinite_of_mul hscaled
    refine ⟨?_, hscaler⟩
    split at htravel
    · exact htravel
    · exact isFinite_of_neg htravel
  unfold displaced at hd
  dsimp only at hd
  split at hd
  · exact key (isFinite_of_mul hd).1
  · exact key hd

theorem readsFinite_of_usable (husable : (planMove m motors phase).Usable)
    (hp : TakesPart m motors n a h) : ReadsFinite phase a h := by
  obtain ⟨htravel, hscaler⟩ := isFinite_of_displaced (husable.target n _ (target_planMove_eq hp))
  exact ⟨htravel, hscaler, husable.rates n _ (rates_planMove hp)⟩

/-! ## A plan that reads what is finite is usable -/

section

variable {limiting : Float}

theorem isFinite_zero : (0.0 : Float).isFinite = true := by decide +kernel

theorem within_zero : Within 0 .positive (0.0 : Float) := by
  have hunpack : (0.0 : Float).toModel.unpack = .zero .positive := rfl
  exact ⟨by rw [hunpack]; trivial, by rw [hunpack]; rfl⟩

/-- No travel of an accepted axis is below zero. -/
theorem lt_zero_travelOf (ha : a.Accepted) (hfinite : (Share.travelOf phase a).isFinite = true) :
    Scalar.lt (Share.travelOf phase a) 0.0 = false := by
  have hpulloff : Scalar.lt a.commonPulloff 0.0 = false := by
    obtain ⟨mo, hmo, heq⟩ := List.mem_map.1 (AxisSettings.leastNumber_commonPulloff ha.motors).mem
    rw [← heq]
    exact ha.pulloff mo hmo
  cases phase with
  | fastApproach => exact LawfulComparisons.lt_asymm ha.maxTravel
  | prePulloff | pulloff0 | slowApproach | pulloff1 => exact hpulloff
  | pulloff2 =>
      obtain ⟨s, hextra⟩ := exists_within (isFinite_of_abs hfinite)
      exact lt_zero_of_within (hextra.abs le_rfl)

theorem lt_zero_scaler (hh : h.Accepted) : Scalar.lt (h.scaler phase) 0.0 = false := by
  cases phase with
  | fastApproach => exact LawfulComparisons.lt_asymm hh.seekScaler
  | slowApproach => exact LawfulComparisons.lt_asymm hh.feedScaler
  | prePulloff | pulloff0 | pulloff1 | pulloff2 =>
      show Scalar.lt (1.0 : Float) 0.0 = false
      decide +kernel

theorem lt_zero_rate (hh : h.Accepted) : Scalar.lt (h.rate phase) 0.0 = false := by
  unfold HomingSettings.rate
  split
  · exact LawfulComparisons.lt_asymm hh.seekRate
  · exact LawfulComparisons.lt_asymm hh.feedRate

/-- A rate is large enough to divide by and small enough to be squared. -/
theorem within_rate (hh : h.Accepted) (hmoderate : Moderate phase a h)
    (hreads : ReadsFinite phase a h) : Within 250 .positive (h.rate phase) ∧
      Above 249 (h.rate phase).toModel.unpack := by
  obtain ⟨hlower, hupper⟩ := hmoderate.rate hreads.rate
  obtain ⟨habove, hpositive⟩ := above_of_lt hlower hreads.rate
  obtain ⟨s, hwithin⟩ := within_of_lt (lt_zero_rate hh) hupper
  exact ⟨⟨hwithin.below, hpositive⟩, habove⟩

/-- A displacement is finite when it is made of finite quantities and the limiting rate is one of
the rates. -/
theorem isFinite_displaced (ha : a.Accepted) (hh : h.Accepted) (hmoderate : Moderate phase a h)
    (hreads : ReadsFinite phase a h) (hlimiting : Scalar.lt 0.0 limiting = true →
      Above 249 limiting.toModel.unpack ∧ Signed .positive limiting.toModel.unpack) :
    (displaced phase limiting a h).isFinite = true := by
  obtain ⟨s, htravel⟩ := within_of_lt (lt_zero_travelOf ha hreads.travel)
    (hmoderate.travel hreads.travel)
  obtain ⟨t, hscaler⟩ := within_of_lt (lt_zero_scaler hh) (hmoderate.scaler hreads.scaler)
  obtain ⟨hrate, -⟩ := within_rate hh hmoderate hreads
  obtain ⟨u, hsigned⟩ : ∃ u, Within 250 u (if h.positiveDirection = phase.isApproach then
      Share.travelOf phase a else -Share.travelOf phase a) := by
    split
    · exact ⟨s, htravel⟩
    · exact ⟨-s, htravel.neg (by omega)⟩
  have hscaled := hsigned.mul hscaler (by omega)
  unfold displaced
  dsimp only
  split
  · rename_i hseek
    obtain ⟨habove, hpositive⟩ := hlimiting hseek.2
    exact (hscaled.mul (hrate.div habove hpositive (by omega)) (by omega)).isFinite
  · exact hscaled.isFinite

/-- Each square that is added up costs at most two bits. -/
theorem isFinite_sqrt_sum (ss : List (Share Float)) (hlength : ss.length ≤ maxAxes)
    (hrates : ∀ s ∈ ss, Within 250 .positive s.rate) :
    (Scalar.sqrt (ss.foldl (fun sum s => sum + s.rate * s.rate) (0.0 : Float))).isFinite =
      true := by
  have key (ss : List (Share Float)) (hrates : ∀ s ∈ ss, Within 250 .positive s.rate) (k : ℕ)
      (sum : Float) (hk : 501 ≤ k) (htop : k + 2 * ss.length ≤ 1024)
      (hsum : Within k .positive sum) : Within (k + 2 * ss.length) .positive
        (ss.foldl (fun sum s => sum + s.rate * s.rate) sum) := by
    induction ss generalizing k sum with
    | nil => exact hsum
    | cons s ss ih =>
        rw [List.length_cons] at htop
        have hrate := hrates s List.mem_cons_self
        have hsquare : Within 501 .positive (s.rate * s.rate) := hrate.mul hrate (by omega)
        have hnext := ih (fun t ht => hrates t (List.mem_cons_of_mem s ht)) (k + 2) _ (by omega)
          (by omega) (hsum.add (hsquare.mono hk) (by omega))
        rw [List.foldl_cons, List.length_cons]
        exact hnext.mono (by omega)
  have hlength' : ss.length ≤ 6 := hlength
  have hsum := key ss hrates 501 0.0 le_rfl (by omega) (within_zero.mono (Nat.zero_le 501))
  exact (hsum.sqrt (by omega)).isFinite

end

/-- The limiting rate, when it is above zero, is the rate of an axis that takes part. -/
theorem exists_limitingRate
    (hlimiting : Scalar.lt 0.0 (limitingRate (shares m motors phase)) = true) :
    ∃ n a h, TakesPart m motors n a h ∧ limitingRate (shares m motors phase) = h.rate phase := by
  have key (ss : List (Share Float)) (best : Float × Float) :
      (ss.foldl Share.limit best).2 = best.2 ∨
        ∃ s ∈ ss, (ss.foldl Share.limit best).2 = s.rate := by
    induction ss generalizing best with
    | nil => exact .inl rfl
    | cons s ss ih =>
        rw [List.foldl_cons]
        obtain heq | ⟨t, ht, heq⟩ := ih (Share.limit best s)
        · rw [heq, Share.limit]
          split
          · exact .inr ⟨s, List.mem_cons_self, rfl⟩
          · exact .inl rfl
        · exact .inr ⟨t, List.mem_cons_of_mem s ht, heq⟩
  rw [limitingRate_eq] at hlimiting ⊢
  obtain heq | ⟨s, hs, heq⟩ := key (shares m motors phase) (0.0, 0.0)
  · rw [heq, LawfulComparisons.lt_irrefl] at hlimiting
    cases hlimiting
  · obtain ⟨n, a, h, hp, rfl⟩ := mem_shares.1 hs
    exact ⟨n, a, h, hp, heq⟩

theorem length_shares_le : (shares m motors phase).length ≤ maxAxes := by
  unfold shares
  exact (List.length_filterMap_le _ _).trans (List.length_take_le _ _)

theorem usable_of_readsFinite (hm : m.validate = .ok ())
    (hmoderate : ∀ n a h, TakesPart m motors n a h → Moderate phase a h)
    (hreads : ∀ n a h, TakesPart m motors n a h → ReadsFinite phase a h) :
    (planMove m motors phase).Usable := by
  have hrate {n : Nat} {a : AxisSettings Float} {h : HomingSettings Float}
      (hp : TakesPart m motors n a h) : Within 250 .positive (h.rate phase) ∧
        Above 249 (h.rate phase).toModel.unpack :=
    within_rate (hp.accepted hm).2 (hmoderate n a h hp) (hreads n a h hp)
  -- Each component of a vector is that of an axis that takes part, or zero.
  have hcomponent (value : Share Float → Float)
      (hvalue : ∀ n a h, TakesPart m motors n a h →
        (value (Share.ofAxis phase n a h)).isFinite = true) (n : Nat) (x : Float)
      (hx : (perAxis (shares m motors phase) value)[n]? = some x) : x.isFinite = true := by
    have hn : n < maxAxes := by
      by_contra hge
      rw [Vector.getElem?_eq_none (Nat.le_of_not_lt hge)] at hx
      cases hx
    by_cases hp : ∃ a h, TakesPart m motors n a h
    · obtain ⟨a, h, hp⟩ := hp
      rw [getElem?_perAxis _ _ hn, find?_shares hp] at hx
      rw [← Option.some.inj hx]
      exact hvalue n a h hp
    · rw [perAxis_of_not_mem value hn fun hmem => hp (mem_axes_planMove.1 hmem)] at hx
      rw [← Option.some.inj hx]
      exact isFinite_zero
  refine ⟨hcomponent _ fun n a h hp => ?_, hcomponent _ fun n a h hp => (hreads n a h hp).rate, ?_⟩
  · rw [displacement_ofAxis]
    refine isFinite_displaced (hp.accepted hm).1 (hp.accepted hm).2 (hmoderate n a h hp)
      (hreads n a h hp) fun hpos => ?_
    obtain ⟨k, b, g, hq, heq⟩ := exists_limitingRate hpos
    rw [heq]
    exact ⟨(hrate hq).2, (hrate hq).1.signed⟩
  · refine isFinite_sqrt_sum _ length_shares_le fun s hs => ?_
    obtain ⟨n, a, h, hp, rfl⟩ := mem_shares.1 hs
    exact (hrate hp).1

/-- With accepted settings, of which the phase reads nothing finite that is immoderate, a plan is
usable exactly when all that it reads of the axes that take part is finite. -/
theorem usable_planMove_iff (hm : m.validate = .ok ())
    (hmoderate : ∀ n a h, TakesPart m motors n a h → Moderate phase a h) :
    (planMove m motors phase).Usable ↔
      ∀ n a h, TakesPart m motors n a h → ReadsFinite phase a h :=
  ⟨fun husable _ _ _ hp => readsFinite_of_usable husable hp, usable_of_readsFinite hm hmoderate⟩

/-- Two axes, the second of which has no end. -/
def boundlessAxes : MachineSettings Float where
  logLevel := .info
  axes :=
    [{ name := "X", maxTravel := 100, stepsPerMm := 80,
       homing := some HomingSettings.default, motors := [.default] },
     { name := "Y", maxTravel := 1.0 / 0.0, stepsPerMm := 80,
       homing := some HomingSettings.default, motors := [.default] }]

/-- The first axis can home by itself, and the second one cannot. -/
theorem usable_planMove_iff_boundless :
    boundlessAxes.validate = .ok () ∧
      (∀ a ∈ boundlessAxes.axes, ∀ h ∈ a.homing, Moderate .fastApproach a h) ∧
      (planMove boundlessAxes (.single ⟨0, .primary⟩) .fastApproach).Usable ∧
      ¬ (planMove boundlessAxes (.single ⟨1, .primary⟩) .fastApproach).Usable := by
  have hm : boundlessAxes.validate = .ok () :=
    MachineSettings.validate_eq_ok_iff.2 (by decide +kernel)
  have hmoderate : ∀ a ∈ boundlessAxes.axes, ∀ h ∈ a.homing, Moderate .fastApproach a h := by
    decide +kernel
  have hiff (motors : MotorSet) : (planMove boundlessAxes motors .fastApproach).Usable ↔
      ∀ n a h, TakesPart boundlessAxes motors n a h → ReadsFinite .fastApproach a h :=
    usable_planMove_iff hm fun n a h hp =>
      hmoderate a (List.mem_of_getElem? hp.axis) h hp.homing
  refine ⟨hm, hmoderate, (hiff _).2 fun n a h hp => ?_, fun husable => ?_⟩
  · have hfirst : ∀ n < maxAxes, n ∈ (MotorSet.single ⟨0, .primary⟩).axes → n = 0 := by decide
    obtain rfl := hfirst n hp.lt hp.motor
    obtain rfl := Option.some.inj hp.axis
    obtain rfl := Option.some.inj hp.homing
    decide +kernel
  · have hinfinite := ((hiff _).1 husable 1 _ _ ⟨rfl, rfl, by decide⟩).travel
    revert hinfinite
    decide +kernel

/-- One axis whose rates are too large to be squared. -/
def rushedAxis : MachineSettings Float where
  logLevel := .info
  axes :=
    [{ name := "X", maxTravel := 100, stepsPerMm := 80,
       homing := some { HomingSettings.default with seekRate := 1e200 }, motors := [.default] }]

/-- Accepted settings with an infinite travel have an infinite target, and with nothing infinite in
them they can still have an infinite rate along the line. -/
theorem exists_not_usable :
    (boundlessAxes.validate = .ok () ∧
      ¬ (planMove boundlessAxes (.single ⟨1, .primary⟩) .fastApproach).Usable) ∧
    rushedAxis.validate = .ok () ∧
      (∀ a ∈ rushedAxis.axes, ∀ h ∈ a.homing, ReadsFinite .fastApproach a h) ∧
      ¬ (planMove rushedAxis (.single ⟨0, .primary⟩) .fastApproach).Usable := by
  refine ⟨⟨MachineSettings.validate_eq_ok_iff.2 (by decide +kernel), fun husable => ?_⟩,
    MachineSettings.validate_eq_ok_iff.2 (by decide +kernel), by decide +kernel, fun husable => ?_⟩
  · have htarget := husable.target 1 _ rfl
    revert htarget
    decide +kernel
  · have hfeed := husable.feedRate
    revert hfeed
    decide +kernel

end Homing
