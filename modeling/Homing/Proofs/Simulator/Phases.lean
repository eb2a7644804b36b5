import Homing.Proofs.Exact.Scalar
import Homing.Proofs.Simulator.Beside
import Homing.Proofs.Simulator.Launch

/-!
# What a phase does to a simulator

Each theorem here is about one phase that has run on a simulator: an approach that
ends well leaves every motor on its switch, a pull-off that ends well has carried every
motor by its displacement and leaves none on its switch, and no phase touches an axis
beside its plan that stands on a step.
-/

namespace Homing

variable {K : Type u} [Field K] [LinearOrder K] [FloorRing K] [SquareRoot K]

/-- Each motor of a set belongs to an axis that takes part with the set. -/
def Homes (m : MachineSettings K) (motors : MotorSet) : Prop :=
  ∀ id ∈ motors, ∃ a h mo, TakesPart m motors id.axis a h ∧ a.motor? id.side = some mo

namespace Simulator

variable {m : MachineSettings K} {motors : MotorSet} {phase : Phase} {x : Simulator K}
  {cs : List (Call K)}

theorem homes_homeable (hx : BuiltFrom m x) {axes : AxisSet}
    (haxes : ∀ n ∈ axes, n ∈ m.homingAxes) : Homes m (x.homeable axes) := by
  intro id hid
  obtain ⟨haxis, p, hp, -⟩ := mem_homeable.1 hid
  obtain ⟨a, h, ha, hh⟩ := MachineSettings.exists_of_mem_homingAxes (haxes _ haxis)
  have hmotor := hx.motor (AxisSet.lt_of_mem haxis) ha hh id.side
  rw [hp, Option.map_some, eq_comm, Option.map_eq_some_iff] at hmotor
  obtain ⟨mo, hmo, -⟩ := hmotor
  exact ⟨a, h, mo, ⟨ha, hh, MotorSet.mem_axes_iff_exists.2 ⟨id.side, hid⟩⟩, hmo⟩

theorem BuiltFrom.motor_of_homes (hx : BuiltFrom m x) {id : Motor} {a : AxisSettings K}
    {h : HomingSettings K} {mo : MotorSettings K} (hp : TakesPart m motors id.axis a h)
    (hmo : a.motor? id.side = some mo) :
    ∃ p, x.motor? id = some p ∧ p.positive = h.positiveDirection := by
  have hmotor := hx.motor hp.lt hp.axis hp.homing id.side
  rw [hmo, Option.map_some, Option.map_eq_some_iff] at hmotor
  obtain ⟨p, hp, heq⟩ := hmotor
  exact ⟨p, hp, congrArg Prod.fst heq⟩

/-- A phase that moves: the move is launched as `tk` on `z`, the calls `loop` follow,
and the phase ends with `r`. -/
structure Moved (m : MachineSettings K) (motors : MotorSet) (phase : Phase) (x : Simulator K)
    (r : Except Failure Unit) (cs : List (Call K)) (z : Simulator K) (tk : ActiveMove K)
    (loop : List (Call K)) : Prop where
  launch : Launch (planMove m motors phase) x z tk
  run : LoopRun phase.isApproach motors (Machine.after launching z) r loop
  after : Machine.after cs x = Machine.after (settling (planMove m motors phase).settle r)
    (Machine.after (launching ++ loop) z)

/-- A phase makes no call where there is no motor, or nothing to pull off. -/
theorem moved_of_phase [IsStrictOrderedRing K] (hx : BuiltFrom m x) (hm : m.Sound)
    (hhomes : Homes m motors) {r : Except Failure Unit} (h : PhaseRun m motors phase x r cs) :
    (cs = [] ∧ r = .ok () ∧ (motors = ∅ ∨ phase = .prePulloff)) ∨
      ∃ z tk loop, Moved m motors phase x r cs z tk loop := by
  cases h with
  | idle hempty => exact .inl ⟨rfl, rfl, .inl hempty⟩
  | skipped _ hphase => exact .inl ⟨rfl, rfl, .inr hphase⟩
  | @moved mv _ loop hne _ hcarries hloop =>
      obtain ⟨id, hid⟩ := MotorSet.exists_mem_of_ne_empty hne
      obtain ⟨a, h, mo, hp, -⟩ := hhomes id hid
      obtain ⟨z, tk, hlaunch, hafter⟩ := exists_launch hx (hp.feedRate_pos hm) hcarries
      have hstart := hafter []
      rw [List.append_nil] at hstart
      rw [hstart] at hloop
      refine .inr ⟨z, tk, loop, hlaunch, hloop, ?_⟩
      rw [Machine.after_append, hafter]

theorem exists_moved [IsStrictOrderedRing K] (hx : BuiltFrom m x) (hm : m.Sound)
    (hhomes : Homes m motors) {r : Except Failure Unit} (h : PhaseRun m motors phase x r cs)
    {id : Motor} (hid : id ∈ motors) (hphase : phase ≠ .prePulloff) :
    ∃ z tk loop, Moved m motors phase x r cs z tk loop := by
  obtain ⟨-, -, rfl | hpre⟩ | hmoved := moved_of_phase hx hm hhomes h
  · exact absurd hid (MotorSet.not_mem_empty id)
  · exact absurd hpre hphase
  · exact hmoved

/-- The calls that settle a phase change no motor, no axis and no signal. -/
theorem after_settling (ms : Nat) (r : Except Failure Unit) (y : Simulator K) :
    (Machine.after (settling ms r) y).axes = y.axes ∧
      (Machine.after (settling ms r) y).pending = y.pending ∧
      (Machine.after (settling ms r) y).miswired = y.miswired := by
  cases r with
  | error f => exact ⟨rfl, rfl, rfl⟩
  | ok v => exact ⟨rfl, rfl, rfl⟩

variable {r : Except Failure Unit} {z : Simulator K} {tk : ActiveMove K} {loop : List (Call K)}

theorem Moved.inMove (h : Moved m motors phase x r cs z tk loop) :
    ∀ c ∈ launching ++ loop, c.InMove :=
  inMove_of_loop (inLoop_of_loopRun h.run)

theorem Moved.axes (h : Moved m motors phase x r cs z tk loop) :
    (Machine.after cs x).axes = (Machine.after (launching ++ loop) z).axes := by
  rw [h.after]
  exact (after_settling _ _ _).1

theorem Moved.motor? (h : Moved m motors phase x r cs z tk loop) (id : Motor) :
    (Machine.after cs x).motor? id = (Machine.after (launching ++ loop) z).motor? id := by
  unfold Simulator.motor?
  rw [h.axes]

theorem Moved.mem_active (h : Moved m motors phase x r cs z tk loop) {id : Motor} :
    id ∈ (Machine.limits (Machine.after cs x)).active ↔
      id ∈ (Machine.limits (Machine.after (launching ++ loop) z)).active := by
  rw [Simulator.mem_active, Simulator.mem_active, h.motor?, (fixed_after _ _).2.2,
    (fixed_after _ _).2.2, h.launch.fixed.2.2]

/-- An axis that takes part goes where the plan says. -/
theorem Moved.deltaOn (h : Moved m motors phase x r cs z tk loop) (hx : BuiltFrom m x) {n : Nat}
    {a : AxisSettings K} {g : HomingSettings K} (hp : TakesPart m motors n a g) {d : K}
    (htarget : (planMove m motors phase).target[n]? = some d) : tk.deltaOn n = d := by
  obtain ⟨b, hb, -⟩ := hx.axis_of_settings hp.lt hp.axis
  have halong := h.launch.along n (mem_axes_planMove.2 ⟨a, g, hp⟩) (by rw [hb]; rfl)
  rw [htarget] at halong
  exact (Option.some.inj halong).symm

/-- A motor of an axis that goes nowhere stays where it is. -/
theorem Moved.motor?_of_still (h : Moved m motors phase x r cs z tk loop) {id : Motor}
    (hdelta : tk.deltaOn id.axis = 0) : (Machine.after cs x).motor? id = x.motor? id := by
  have hstill : ∀ mv, z.active = some mv → Scalar.eq (mv.deltaOn id.axis) 0.0 = true := by
    intro mv hmv
    rw [h.launch.active] at hmv
    obtain rfl := Option.some.inj hmv
    simpa using hdelta
  have haxis := axes_inMove h.inMove hstill
  rw [h.motor?, ← h.launch.motor]
  unfold Simulator.motor?
  rw [haxis]

/-! ## Approaches -/

theorem Moved.approaches (h : Moved m motors phase x r cs z tk loop)
    (happroach : phase.isApproach = true) : Approaches z := by
  intro mv hmv
  rw [h.launch.active] at hmv
  obtain rfl := Option.some.inj hmv
  exact h.launch.approach.trans happroach

/-- After an approach that ended well every motor is at a limit. -/
theorem Moved.active_of_approach (h : Moved m motors phase x (.ok ()) cs z tk loop)
    (happroach : phase.isApproach = true) {id : Motor} (hid : id ∈ motors) :
    id ∈ (Machine.limits (Machine.after cs x)).active := by
  have hrun := h.run
  rw [happroach] at hrun
  have hy : Approaches (Machine.after launching z) :=
    (h.approaches happroach).after fun c hc => h.inMove c (List.mem_append_left loop hc)
  rw [h.mem_active, Machine.after_append]
  exact mem_active_of_loopRun hy hrun hid

/-! ## Pull-offs -/

/-- After a pull-off that ended well no motor is at a limit. -/
theorem Moved.not_active_of_pulloff (h : Moved m motors phase x (.ok ()) cs z tk loop)
    (hpull : phase.isApproach = false) {id : Motor} (hid : id ∈ motors) :
    id ∉ (Machine.limits (Machine.after cs x)).active := by
  have hrun := h.run
  rw [hpull] at hrun
  rw [h.mem_active, Machine.after_append]
  exact not_mem_active_of_loopRun hrun hid

/-- Nothing moves, no cycle-stop signal waits, and none is scheduled. -/
structure Rests (x : Simulator K) : Prop where
  active : x.active = none
  scheduled : ∀ e ∈ x.scheduled, e.2.cycleStop = false
  cycleStop : x.pending.cycleStop = false

theorem active_none_after {y : Simulator K} (hy : y.active = none) (hcs : ∀ c ∈ cs, c.InMove) :
    (Machine.after cs y).active = none := by
  refine after_inMove (P := fun s => s.active = none) hcs hy ?_ ?_
  · intro s mv hs hactive
    rw [hs] at hactive
    cases hactive
  · intro s t hs hkeep
    rw [hkeep.active, hs]

theorem Moved.calm (h : Moved m motors phase x r cs z tk loop) (hx : Rests x) : Calm z := by
  refine ⟨by rw [h.launch.fixed.2.1]; exact hx.scheduled, fun hstop => ?_⟩
  rw [h.launch.pending, hx.cycleStop] at hstop
  cases hstop

/-- Once the end of its motion is seen, the move of a phase is done. -/
theorem Moved.carried_of_stop [IsStrictOrderedRing K] (h : Moved m motors phase x r cs z tk loop)
    (hbuilt : BuiltFrom m x) (hx : Rests x) {pre rest : List (Call K)}
    (hcs : ∀ c ∈ launching ++ (pre ++ .refill :: rest), c.InMove)
    (hstop : (seen (Machine.after (launching ++ pre) z)).cycleStop = true) :
    Carried tk z (Machine.after (launching ++ (pre ++ .refill :: rest)) z) 1 := by
  have htick : 0 < z.tickMs := by
    rw [h.launch.fixed.1]
    simpa using hbuilt.tick
  obtain ⟨l, hcarried⟩ := carried_after hcs h.launch.active h.launch.travelled h.launch.sound htick
  have hsplit : launching ++ (pre ++ Call.refill :: rest) =
      (launching ++ pre ++ [.refill]) ++ rest := by
    simp only [List.append_assoc, List.singleton_append]
  have hnone : (Machine.after (launching ++ (pre ++ .refill :: rest)) z).active = none := by
    rw [hsplit] at hcs ⊢
    rw [Machine.after_append]
    have hcalm := (h.calm hx).after fun c hc => hcs c (List.mem_append_left _ hc)
    refine active_none_after (hcalm.stopped ?_) fun c hc => hcs c (List.mem_append_right _ hc)
    rw [Machine.after_append]
    exact hstop
  obtain ⟨-, rfl⟩ | ⟨k, hsome⟩ := hcarried.goes
  · exact hcarried
  · rw [hnone] at hsome
    cases hsome

/-- The move of a pull-off that ended well is done. -/
theorem Moved.carried_of_pulloff [IsStrictOrderedRing K]
    (h : Moved m motors phase x (.ok ()) cs z tk loop) (hbuilt : BuiltFrom m x) (hx : Rests x)
    (hpull : phase.isApproach = false) (hne : motors ≠ ∅) :
    Carried tk z (Machine.after (launching ++ loop) z) 1 := by
  have hinMove := h.inMove
  have hrun := h.run
  rw [hpull] at hrun
  obtain ⟨pre, status, rfl, hstop, -⟩ := hrun.exists_cleared hne
  obtain ⟨rest, hrest⟩ := service_eq_cons (α := K) status
  rw [hrest, List.cons_append, List.cons_append] at hinMove ⊢
  rw [← Machine.after_append] at hstop
  exact h.carried_of_stop hbuilt hx hinMove hstop

theorem Moved.motor?_of_pulloff [IsStrictOrderedRing K]
    (h : Moved m motors phase x (.ok ()) cs z tk loop) (hbuilt : BuiltFrom m x) (hx : Rests x)
    (hpull : phase.isApproach = false) (hne : motors ≠ ∅) (id : Motor) :
    (Machine.after cs x).motor? id = (x.motor? id).map (·.advance
      (if id ∈ (planMove m motors phase).overrides.blocked then 0 else tk.deltaOn id.axis)) := by
  have hcarried := h.carried_of_pulloff hbuilt hx hpull hne
  rw [h.motor?, hcarried.motor (h.launch.approach.trans hpull), h.launch.motor, h.launch.overrides,
    mul_one]

/-! ## Signals -/

theorem cycleStop_service (status : Bool) (y : Simulator K) :
    (Machine.after (service status) y).pending.cycleStop = (seen y).cycleStop := by
  cases status with
  | false => rfl
  | true =>
      have hpending : (Machine.after (service true) y).pending = seen y \ .status := rfl
      rw [hpending, Signals.sdiff_def]
      simp [Signals.diff, Signals.status]

theorem cycleStop_acknowledged (y : Simulator K) :
    (Machine.after ([Call.acknowledge .stop] ++ [Call.poll] : List (Call K)) y).pending.cycleStop =
      false := by
  have hpending :
      (Machine.after ([Call.acknowledge .stop] ++ [Call.poll] : List (Call K)) y).pending =
        y.pending \ .stop := rfl
  rw [hpending, Signals.sdiff_def]
  simp [Signals.diff, Signals.stop]

/-- A loop that ends well leaves no cycle-stop signal behind. -/
theorem cycleStop_of_loopRun {approach : Bool} {y : Simulator K}
    (h : LoopRun approach motors y (.ok ()) loop) :
    (Machine.after loop y).pending.cycleStop = false := by
  generalize hr : Except.ok () = r at h
  induction h with
  | @last remaining y r cs hends =>
      cases hends with
      | reset => cases hr
      | door => cases hr
      | missed => cases hr
      | held => cases hr
      | cleared =>
          rw [List.append_assoc, Machine.after_append]
          exact cycleStop_acknowledged _
      | found hquiet =>
          rw [Machine.after_append]
          exact (cycleStop_service _ y).trans hquiet.2.2
  | again _ _ ih =>
      rw [Machine.after_append]
      exact ih hr

/-- A phase that ends well leaves the simulator at rest. -/
theorem Moved.rests (h : Moved m motors phase x (.ok ()) cs z tk loop) (hx : Rests x) :
    Rests (Machine.after cs x) := by
  refine ⟨by rw [h.after]; rfl, by rw [(fixed_after cs x).2.1]; exact hx.scheduled, ?_⟩
  have hquiet := cycleStop_of_loopRun h.run
  rw [h.after, (after_settling _ _ _).2.1]
  exact hquiet

/-! ## Axes beside the plan -/

/-- An axis stands on a step when it does not drift. -/
theorem onStep_iff_drift {n : Nat} : x.OnStep n ↔ x.drift n = 0 := by
  unfold OnStep drift SimAxis.OnStep
  cases x.axes[n]? with
  | none => simp
  | some b => simp [SimAxis.rest]

theorem not_mem_planMove_axes {n : Nat} (hn : n ∉ motors.axes) :
    n ∉ (planMove m motors phase).axes := by
  intro hmem
  obtain ⟨a, h, hp⟩ := mem_axes_planMove.1 hmem
  exact hn hp.motor

theorem mem_planMove_axes (hhomes : Homes m motors) {n : Nat} (hn : n ∈ motors.axes) :
    n ∈ (planMove m motors phase).axes := by
  obtain ⟨side, hid⟩ := MotorSet.mem_axes_iff_exists.1 hn
  obtain ⟨a, h, mo, hp, -⟩ := hhomes _ hid
  exact mem_axes_planMove.2 ⟨a, h, hp⟩

/-- The step count of the position of a step is the step. -/
theorem steps_of_position [IsStrictOrderedRing K] {a : SimAxis K} (hspm : a.stepsPerMm ≠ 0) (v : K)
    (hposition : a.position = Scalar.ofInt (Scalar.round v) / a.stepsPerMm) :
    a.steps = Scalar.round v := by
  have hback : a.position * a.stepsPerMm = Scalar.ofInt (Scalar.round v) := by
    rw [hposition]
    exact div_mul_cancel₀ _ hspm
  rw [SimAxis.steps, hback, Scalar.round_ofInt_round]

theorem rest_of_position [IsStrictOrderedRing K] {a : SimAxis K} (hspm : a.stepsPerMm ≠ 0) (v : K)
    (hposition : a.position = Scalar.ofInt (Scalar.round v) / a.stepsPerMm) :
    a.rest = a.position := by
  unfold SimAxis.rest
  rw [steps_of_position hspm v hposition, hposition]

/-- The steps for a millimetre of an axis are those of its settings. -/
theorem BuiltFrom.stepsPerMm_ne (hx : BuiltFrom m x) (hm : m.Sound) {n : Nat} (hlt : n < maxAxes)
    {b : SimAxis K} (hb : x.axes[n]? = some b) : b.stepsPerMm ≠ 0 := by
  cases ha : m.axes[n]? with
  | none =>
      rw [hx.axis_none ha] at hb
      cases hb
  | some a =>
      obtain ⟨c, hc, hbuild⟩ := hx.axis_of_settings hlt ha
      obtain rfl : b = c := Option.some.inj (hb.symm.trans hc)
      have hspm : b.stepsPerMm = a.stepsPerMm := congrArg Prod.fst hbuild
      rw [hspm]
      exact (hm.axis a (List.mem_of_getElem? ha)).stepsPerMm.ne'

/-- A pull-off that ended well brings every axis beside the plan onto a step. -/
theorem Moved.drift_of_pulloff [IsStrictOrderedRing K]
    (h : Moved m motors phase x (.ok ()) cs z tk loop) (hm : m.Sound) (hbuilt : BuiltFrom m x)
    (hx : Rests x) (hpull : phase.isApproach = false) (hne : motors ≠ ∅) {n : Nat}
    (hlt : n < maxAxes) (hn : n ∉ motors.axes) : (Machine.after cs x).drift n = 0 := by
  have hplan : n ∉ (planMove m motors phase).axes := not_mem_planMove_axes hn
  have hposition := (h.carried_of_pulloff hbuilt hx hpull hne).position n
  have hend := hbuilt.after cs
  cases hb : (Machine.after cs x).axes[n]? with
  | none => rw [drift, hb]
  | some b =>
      have hbuild : (x.axes[n]?).map SimAxis.build = some b.build := by
        rw [hbuilt.axis n, ← hend.axis n, hb, Option.map_some]
      obtain ⟨c, hc, hcb⟩ := Option.map_eq_some_iff.1 hbuild
      have hspm : c.stepsPerMm = b.stepsPerMm := congrArg Prod.fst hcb
      have hrest : b.position = c.rest := by
        unfold axisPosition? at hposition
        rw [← h.axes, hb, h.launch.beside n hplan, hc, h.launch.drifts n hlt hplan, drift,
          hc] at hposition
        have hsum : b.position = c.position + (c.rest - c.position) * 1 := by simpa using hposition
        rw [hsum]
        ring
      rw [drift, hb]
      refine sub_eq_zero.2 (rest_of_position (hend.stepsPerMm_ne hm hlt hb)
        (c.position * c.stepsPerMm) ?_)
      rw [hrest, ← hspm]
      rfl

end Simulator

end Homing
