import Homing.Proofs.Exact.Scalar
import Homing.Proofs.Simulator.Phases

/-!
# The motors of an axis after a cycle

In the slow approach every motor stops on its own switch, and at most one tick of its
axis past it. The pull-offs that follow take each motor back by its own pull-off, so
this tick is all that the motors of an axis can be out of square in the end.

The slow approach runs along the line of its plan only if no axis beside it moves.
These axes are brought onto a step by the pull-off before, and an axis on a step is not
touched any more (`axes_of_phases`).
-/

namespace Homing

variable {K : Type u} [Field K] [LinearOrder K] [FloorRing K] [SquareRoot K]

/-- The travel of an axis in one tick of the slow approach of some motors. -/
def tickTravel (m : MachineSettings K) (motors : MotorSet) (tickMs : K) (n : Nat) : K :=
  |((planMove m motors .slowApproach).target[n]?).getD 0| *
    (Simulator.stride tickMs (planMove m motors .slowApproach).feedRate /
      lengthOf (planMove m motors .slowApproach).target)

theorem AxisSettings.Sound.commonPulloff_nonneg [IsStrictOrderedRing K] {a : AxisSettings K}
    (ha : a.Sound) : 0 ≤ a.commonPulloff := by
  have key (ps : List K) (hps : ∀ p ∈ ps, 0 ≤ p) (c : K) (hc : 0 ≤ c) :
      0 ≤ ps.foldl Scalar.min c := by
    induction ps generalizing c with
    | nil => exact hc
    | cons p ps ih =>
        refine ih (fun q hq => hps q (List.mem_cons_of_mem p hq)) _ ?_
        rw [Scalar.min_exact]
        exact le_min hc (hps p List.mem_cons_self)
  have hall : ∀ p ∈ a.motors.map (·.pulloff), 0 ≤ p := by
    intro p hp
    obtain ⟨mo, hmo, rfl⟩ := List.mem_map.1 hp
    exact ha.pulloff mo hmo
  unfold AxisSettings.commonPulloff
  split
  · simp
  · rename_i p ps hmotors
    rw [hmotors] at hall
    exact key ps (fun q hq => hall q (List.mem_cons_of_mem p hq)) p (hall p List.mem_cons_self)

namespace Simulator

variable {m : MachineSettings K} {motors : MotorSet} {phase : Phase} {plan : List Phase}
  {x z : Simulator K} {r : Except Failure Unit} {cs loop : List (Call K)} {tk : ActiveMove K}

/-- A motor is off its switch by more than `low` and at most `high`. -/
def OffSwitch (s : Simulator K) (id : Motor) (low high : K) : Prop :=
  ∃ d, s.distanceToSwitch? id = some d ∧ low < d ∧ d ≤ high

theorem offSwitch_congr {s t : Simulator K} {id : Motor} (h : t.motor? id = s.motor? id)
    {low high : K} (hs : OffSwitch s id low high) : OffSwitch t id low high := by
  unfold OffSwitch distanceToSwitch?
  rw [h]
  exact hs

/-- A simulator on which a phase can begin: it is built from the settings, it is at
rest, and no motor is wired wrong. -/
structure Ready (m : MachineSettings K) (x : Simulator K) : Prop where
  built : BuiltFrom m x
  rests : Rests x
  wired : x.miswired = ∅

/-! ## Axes beside a cycle, phase after phase -/

variable [IsStrictOrderedRing K]

theorem ready_of_phase (hm : m.Sound) (hhomes : Homes m motors) (hx : Ready m x)
    (h : PhaseRun m motors phase x (.ok ()) cs) : Ready m (Machine.after cs x) := by
  obtain ⟨rfl, -, -⟩ | ⟨z, tk, loop, hmoved⟩ := moved_of_phase hx.built hm hhomes h
  · exact hx
  · exact ⟨hx.built.after cs, hmoved.rests hx.rests, (fixed_after cs x).2.2.trans hx.wired⟩

theorem ready_of_phases (hm : m.Sound) (hhomes : Homes m motors) (hx : Ready m x)
    (h : PhasesRun m motors plan x (.ok ()) cs) : Ready m (Machine.after cs x) := by
  generalize hr : Except.ok () = r at h
  induction h with
  | nil => exact hx
  | cons hphase _ ih =>
      rw [Machine.after_append]
      exact ih (ready_of_phase hm hhomes hx hphase) hr
  | fail _ => cases hr

omit [IsStrictOrderedRing K] in
theorem drift_congr {s t : Simulator K} {n : Nat} (h : t.axes[n]? = s.axes[n]?) :
    t.drift n = s.drift n := by
  unfold drift
  rw [h]

/-! ## The slow approach -/

omit [IsStrictOrderedRing K] in
/-- With every axis beside the plan on a step, the move goes along the plan. -/
theorem Moved.delta_eq (h : Moved m motors phase x r cs z tk loop) (hx : BuiltFrom m x)
    (haligned : ∀ n < maxAxes, n ∉ (planMove m motors phase).axes → x.drift n = 0) :
    tk.delta = (planMove m motors phase).target := by
  ext i hi
  have hdelta : tk.deltaOn i = tk.delta[i] := by
    unfold ActiveMove.deltaOn
    rw [Vector.getElem?_eq_getElem hi, Option.getD_some]
  rw [← hdelta]
  by_cases hmem : i ∈ (planMove m motors phase).axes
  · obtain ⟨a, g, hp⟩ := mem_axes_planMove.1 hmem
    exact h.deltaOn hx hp (Vector.getElem?_eq_getElem hi)
  · have hzero := target_planMove_of_not_mem hi hmem
    rw [Vector.getElem?_eq_getElem hi] at hzero
    rw [h.launch.drifts i hi hmem, haligned i hi hmem]
    exact (Option.some.inj hzero).symm

/-- Where an axis that takes part goes in the slow approach, and how far in one tick. -/
theorem Moved.slowApproach_eq (h : Moved m motors .slowApproach x r cs z tk loop) (hm : m.Sound)
    (hx : BuiltFrom m x)
    (haligned : ∀ n < maxAxes, n ∉ (planMove m motors .slowApproach).axes → x.drift n = 0) {n : Nat}
    {a : AxisSettings K} {g : HomingSettings K} (hp : TakesPart m motors n a g) :
    ∃ w, 0 ≤ w ∧ tk.deltaOn n = g.toward w ∧
      tickTravel m motors x.tickMs n = w * (stride z.tickMs tk.feedRate / tk.length) := by
  obtain ⟨ha, hg⟩ := hp.sound hm
  have hw : 0 ≤ a.commonPulloff * g.feedScaler :=
    mul_nonneg ha.commonPulloff_nonneg hg.feedScaler.le
  have habs : |g.toward (a.commonPulloff * g.feedScaler)| = a.commonPulloff * g.feedScaler := by
    unfold HomingSettings.toward
    split
    · exact abs_of_nonneg hw
    · rw [abs_neg, abs_of_nonneg hw]
  refine ⟨_, hw, h.deltaOn hx hp hp.target_slowApproach, ?_⟩
  unfold tickTravel
  rw [hp.target_slowApproach, Option.getD_some, habs, h.launch.fixed.1, h.launch.feedRate,
    h.launch.length, h.delta_eq hx haligned]

/-- An approach leaves a motor on its switch, less than one tick of its axis past it. -/
theorem Moved.offSwitch_of_approach (h : Moved m motors phase x (.ok ()) cs z tk loop)
    (happroach : phase.isApproach = true) (hx : Ready m x) {id : Motor} (hid : id ∈ motors)
    {a : AxisSettings K} {g : HomingSettings K} {mo : MotorSettings K}
    (hp : TakesPart m motors id.axis a g) (hmo : a.motor? id.side = some mo)
    (hoff : id ∉ (Machine.limits x).active) {w : K} (hw : 0 ≤ w)
    (hdelta : tk.deltaOn id.axis = g.toward w) :
    OffSwitch (Machine.after cs x) id (-(w * (stride z.tickMs tk.feedRate / tk.length))) 0 := by
  obtain ⟨p, hmotor, hpositive⟩ := hx.built.motor_of_homes hp hmo
  have hbefore : p.limitActive = false := by
    by_contra hon
    exact hoff (Simulator.mem_active.2 (.inl ⟨hp.lt, p, hmotor, by simpa using hon⟩))
  have htoward : g.toward w = p.towardSwitch w := by
    unfold HomingSettings.toward SimMotor.towardSwitch
    rw [hpositive]
  obtain ⟨q, hq, hnear⟩ := near_after h.inMove h.launch.active
    (h.launch.approach.trans happroach) h.launch.sound.length
    ((h.launch.motor id).trans hmotor) hbefore hw (hdelta.trans htoward)
  rw [← h.motor?] at hq
  have hon : q.limitActive = true := by
    rcases Simulator.mem_active.1 (h.active_of_approach happroach hid) with
      ⟨-, q', hq', hon⟩ | hmiswired
    · obtain rfl : q = q' := Option.some.inj (hq.symm.trans hq')
      exact hon
    · rw [(fixed_after cs x).2.2, hx.wired] at hmiswired
      exact absurd hmiswired (MotorSet.not_mem_empty id)
  have hle : q.distanceToSwitch ≤ 0 := by
    obtain hstuck | ⟨-, hle⟩ := (limitActive_iff q).1 hon
    · rw [hnear.stuck] at hstuck
      cases hstuck
    · exact hle
  exact ⟨q.distanceToSwitch, by rw [distanceToSwitch?, hq]; rfl, hnear.past hon, hle⟩

theorem Moved.offSwitch_of_slowApproach (h : Moved m motors .slowApproach x (.ok ()) cs z tk loop)
    (hm : m.Sound) (hx : Ready m x)
    (haligned : ∀ n < maxAxes, n ∉ (planMove m motors .slowApproach).axes → x.drift n = 0)
    {id : Motor} (hid : id ∈ motors) {a : AxisSettings K} {g : HomingSettings K}
    {mo : MotorSettings K} (hp : TakesPart m motors id.axis a g) (hmo : a.motor? id.side = some mo)
    (hoff : id ∉ (Machine.limits x).active) :
    OffSwitch (Machine.after cs x) id (-tickTravel m motors x.tickMs id.axis) 0 := by
  obtain ⟨w, hw, hdelta, htravel⟩ := h.slowApproach_eq hm hx.built haligned hp
  rw [htravel]
  exact h.offSwitch_of_approach rfl hx hid hp hmo hoff hw hdelta

/-! ## The pull-offs -/

omit [IsStrictOrderedRing K] in
/-- The way of a motor in a pull-off, along its own homing direction. -/
theorem Moved.travel_eq (h : Moved m motors phase x r cs z tk loop) (hx : BuiltFrom m x)
    {id : Motor} {a : AxisSettings K} {g : HomingSettings K} {mo : MotorSettings K}
    (hp : TakesPart m motors id.axis a g) (hmo : a.motor? id.side = some mo) {d : K}
    (htarget : (planMove m motors phase).target[id.axis]? = some (g.toward (-d))) {p : SimMotor K}
    (hmotor : x.motor? id = some p) :
    (if id ∈ (planMove m motors phase).overrides.blocked then 0 else tk.deltaOn id.axis) =
      p.towardSwitch (-if id ∈ (planMove m motors phase).overrides.blocked then 0 else d) := by
  obtain ⟨q, hq, hpositive⟩ := hx.motor_of_homes hp hmo
  obtain rfl : p = q := Option.some.inj (hmotor.symm.trans hq)
  rw [h.deltaOn hx hp htarget]
  unfold HomingSettings.toward SimMotor.towardSwitch
  rw [hpositive]
  split
  · simp
  · rfl

/-- A pull-off takes a motor that is not blocked further off its switch. -/
theorem Moved.offSwitch_of_pulloff (h : Moved m motors phase x (.ok ()) cs z tk loop)
    (hx : Ready m x) (hpull : phase.isApproach = false) {id : Motor} (hid : id ∈ motors)
    {a : AxisSettings K} {g : HomingSettings K} {mo : MotorSettings K}
    (hp : TakesPart m motors id.axis a g) (hmo : a.motor? id.side = some mo) {d : K}
    (htarget : (planMove m motors phase).target[id.axis]? = some (g.toward (-d))) {low high : K}
    (hoff : OffSwitch x id low high) : OffSwitch (Machine.after cs x) id
      (low + if id ∈ (planMove m motors phase).overrides.blocked then 0 else d)
      (high + if id ∈ (planMove m motors phase).overrides.blocked then 0 else d) := by
  have hne : motors ≠ ∅ := by
    rintro rfl
    exact MotorSet.not_mem_empty id hid
  obtain ⟨p, hmotor, -⟩ := hx.built.motor_of_homes hp hmo
  obtain ⟨e, he, hlow, hhigh⟩ := hoff
  obtain rfl : p.distanceToSwitch = e := by
    rw [distanceToSwitch?, hmotor, Option.map_some] at he
    exact Option.some.inj he
  refine ⟨p.distanceToSwitch +
    if id ∈ (planMove m motors phase).overrides.blocked then 0 else d, ?_, ?_, ?_⟩
  · rw [distanceToSwitch?, h.motor?_of_pulloff hx.built hx.rests hpull hne, hmotor, Option.map_some,
      Option.map_some, h.travel_eq hx.built hp hmo htarget hmotor, distanceToSwitch_advance,
      sub_neg_eq_add]
  · exact add_lt_add_left hlow _
  · exact add_le_add_left hhigh _

/-! ## A whole cycle -/

/-- Once `pulloff1` has ended well, each motor is off its switch by the pull-off that the
motors of its axis share. -/
theorem offSwitch_of_pulloff1 (hm : m.Sound) (hhomes : Homes m motors) (hx : Ready m x)
    (h : PhasesRun m motors
      (.prePulloff :: .fastApproach :: .pulloff0 :: .slowApproach :: .pulloff1 :: plan) x (.ok ())
      cs)
    {id : Motor} (hid : id ∈ motors) {a : AxisSettings K} {g : HomingSettings K}
    {mo : MotorSettings K} (hp : TakesPart m motors id.axis a g)
    (hmo : a.motor? id.side = some mo) :
    ∃ y last, Ready m y ∧ PhasesRun m motors plan y (.ok ()) last ∧
      Machine.after cs x = Machine.after last y ∧
      OffSwitch y id (a.commonPulloff - tickTravel m motors x.tickMs id.axis) a.commonPulloff := by
  have hne : motors ≠ ∅ := by
    rintro rfl
    exact MotorSet.not_mem_empty _ hid
  cases h with
  | @cons _ _ _ _ pre _ hpre h =>
  cases h with
  | @cons _ _ _ _ fast _ hfast h =>
  cases h with
  | @cons _ _ _ _ off _ hoff h =>
  cases h with
  | @cons _ _ _ _ slow _ hslow h =>
  cases h with
  | @cons _ _ _ _ back last hback h =>
  have hx₁ := ready_of_phase hm hhomes hx hpre
  have hx₂ := ready_of_phase hm hhomes hx₁ hfast
  have hx₃ := ready_of_phase hm hhomes hx₂ hoff
  have hx₄ := ready_of_phase hm hhomes hx₃ hslow
  obtain ⟨_, _, _, hmoved₃⟩ := exists_moved hx₂.built hm hhomes hoff hid (by simp)
  obtain ⟨_, _, _, hmoved₄⟩ := exists_moved hx₃.built hm hhomes hslow hid (by simp)
  obtain ⟨_, _, _, hmoved₅⟩ := exists_moved hx₄.built hm hhomes hback hid (by simp)
  -- Only after a pull-off is it certain that no axis beside the plan moves.
  have haligned : ∀ k < maxAxes, k ∉ (planMove m motors .slowApproach).axes →
      (Machine.after off (Machine.after fast (Machine.after pre x))).drift k = 0 := by
    intro k hlt hk
    refine hmoved₃.drift_of_pulloff hm hx₂.built hx₂.rests rfl hne hlt fun hmem => ?_
    exact hk (mem_planMove_axes hhomes hmem)
  have hclear := hmoved₃.not_active_of_pulloff rfl hid
  have hon := hmoved₄.offSwitch_of_slowApproach hm hx₃ haligned hid hp hmo hclear
  rw [(fixed_after off _).1, (fixed_after fast _).1, (fixed_after pre _).1] at hon
  have hoff₅ :=
    hmoved₅.offSwitch_of_pulloff hx₄ rfl hid hp hmo (hp.target_pulloff rfl (by simp)) hon
  rw [blocked_planMove (by simp), if_neg (MotorSet.not_mem_empty _), zero_add,
    ← sub_eq_neg_add] at hoff₅
  refine ⟨_, last, ready_of_phase hm hhomes hx₄ hback, h, ?_, hoff₅⟩
  simp only [Machine.after_append]

theorem offSwitch_of_phases (hm : m.Sound) (hhomes : Homes m motors) (hx : Ready m x)
    (h : PhasesRun m motors (phasePlan m motors) x (.ok ()) cs) {n : Nat} {a : AxisSettings K}
    {g : HomingSettings K} (hp : TakesPart m motors n a g)
    (hall : ∀ side, (a.motor? side).isSome = true → ⟨n, side⟩ ∈ motors) {side : Side}
    {mo : MotorSettings K} (hmo : a.motor? side = some mo) :
    OffSwitch (Machine.after cs x) ⟨n, side⟩ (mo.pulloff - tickTravel m motors x.tickMs n)
      mo.pulloff := by
  have hid : ⟨n, side⟩ ∈ motors := hall side (by rw [hmo]; rfl)
  rw [phasePlan_eq] at h
  obtain ⟨y, last, hy, hlast, hafter, hoff⟩ := offSwitch_of_pulloff1 hm hhomes hx h hid hp hmo
  rw [hafter]
  obtain ⟨ha, -⟩ := hp.sound hm
  have hpulloff := ha.pulloff_eq hmo n
  cases hneeds : needsSquaring m motors with
  | false =>
      rw [hneeds] at hlast
      cases hlast with
      | nil =>
          rw [ha.extraPulloff_eq_zero hneeds hp.axis hall, abs_zero, ite_self, add_zero] at hpulloff
          rw [hpulloff]
          exact hoff
  | true =>
      rw [hneeds] at hlast
      cases hlast with
      | @cons _ _ _ _ extra _ hextra hrest =>
          cases hrest with
          | nil =>
              obtain ⟨_, _, _, hmoved⟩ := exists_moved hy.built hm hhomes hextra hid (by simp)
              have hoff' := hmoved.offSwitch_of_pulloff hy rfl hid hp hmo hp.target_pulloff2 hoff
              simp only [mem_blocked_pulloff2 hp] at hoff'
              rw [← hpulloff, sub_add_eq_add_sub, ← hpulloff] at hoff'
              rw [List.append_nil]
              exact hoff'

end Simulator

end Homing
