import Homing.Proofs.Exact.Scalar
import Homing.Proofs.Engine.Blocks
import Homing.Proofs.Plan.Single
import Homing.Proofs.Simulator.Reach
import Homing.Proofs.Simulator.Requests

/-!
# The phases of a cycle of one axis

Between two phases of a cycle of one axis it is enough to know how far its motors are off
their switches (`Posed`). A phase takes these bounds to new ones, and ends well where they
leave it no other way: an approach needs the switches in reach, a pull-off a way that is
longer than the overshoot. Read along the plan of a cycle, the bounds come down to four
inequalities between settings (`Bounded`).
-/

namespace Homing

variable {K : Type u} [Field K] [LinearOrder K] [FloorRing K] [SquareRoot K]

/-! ## The moves of a cycle -/

/-- A call that hands over a move or waits. -/
def Call.isMoveOrDwell : Call K → Bool
  | .submit _ | .dwell _ => true
  | _ => false

/-- The calls that make moves and wait for the settle time after each. -/
def settledMoves (settle : Nat) (moves : List (Move K)) : List (Call K) :=
  moves.flatMap fun mv => [.submit mv, .dwell settle]

section

variable {m : MachineSettings K} {motors : MotorSet} {phase : Phase} {n : Nat} {a : AxisSettings K}
  {g : HomingSettings K} {cs : List (Call K)}

theorem filter_of_moveCalls (halone : Alone m motors n a g)
    (h : MoveCalls m motors phase (.ok ()) cs) :
    ∃ mv, cs.filter Call.isMoveOrDwell = settledMoves g.settle [mv] := by
  cases h with
  | @intro mv loop ms _ _ _ _ _ _ hloop hsettle =>
      have hzero : (zeroing (planMove m motors phase).axes maxAxes).filter Call.isMoveOrDwell =
          ([] : List (Call K)) := by
        refine List.filter_eq_nil_iff.2 fun c hc => ?_
        obtain ⟨k, -, rfl⟩ := List.mem_map.1 hc
        exact Bool.false_ne_true
      have hnone : loop.filter Call.isMoveOrDwell = [] := by
        refine List.filter_eq_nil_iff.2 fun c hc => ?_
        cases hloop c hc <;> exact Bool.false_ne_true
      refine ⟨mv, ?_⟩
      rw [starting, List.filter_append, List.filter_append, List.filter_append, hzero, hnone,
        halone.settle_eq hsettle]
      rfl

/-- A cycle of one axis makes a move for each of its phases. -/
theorem filter_of_movesCalls {plan : List Phase} (halone : Alone m motors n a g)
    (h : MovesCalls m motors plan (.ok ()) cs) :
    ∃ moves : List (Move K), moves.length = plan.length ∧
      cs.filter Call.isMoveOrDwell = settledMoves g.settle moves := by
  generalize hr : Except.ok () = r at h
  induction h with
  | nil => exact ⟨[], rfl, rfl⟩
  | cons hfirst _ ih =>
      obtain ⟨mv, hmv⟩ := filter_of_moveCalls halone hfirst
      obtain ⟨moves, hlength, hmoves⟩ := ih hr
      refine ⟨mv :: moves, congrArg (· + 1) hlength, ?_⟩
      rw [List.filter_append, hmv, hmoves]
      rfl
  | fail => cases hr

theorem filter_closing (axes : AxisSet) :
    (closing m axes (.ok ())).filter Call.isMoveOrDwell = [] := by
  refine List.filter_eq_nil_iff.2 fun c hc => ?_
  rcases List.mem_append.1 hc with hc | hc
  · obtain ⟨_, _, _, -, -, -, rfl⟩ := mem_committing.1 hc
    exact Bool.false_ne_true
  · obtain rfl := List.mem_singleton.1 hc
    exact Bool.false_ne_true

theorem Alone.length_movingPhases (halone : Alone m motors n a g) (ha : a.Sound) :
    (movingPhases m motors false).length = if a.extraPulloff = 0 then 4 else 5 := by
  unfold movingPhases
  by_cases hextra : a.extraPulloff = 0
  · have hneeds : needsSquaring m motors = false := by
      rw [← Bool.not_eq_true, halone.needsSquaring_iff ha, not_not]
      exact hextra
    rw [if_pos hextra, hneeds]
    rfl
  · rw [if_neg hextra, (halone.needsSquaring_iff ha).2 hextra]
    rfl

end

namespace Simulator

/-- A simulator of ticks of `ms` milliseconds between two phases of a cycle of axis `n`. Each
motor of the axis has a working switch and is off it by more than `low` and at most `high`,
and every other axis stands on a step. -/
structure Posed (m : MachineSettings K) (n : Nat) (a : AxisSettings K) (ms low high : K)
    (x : Simulator K) : Prop where
  ready : Ready m x
  undisturbed : Undisturbed x
  tickMs : x.tickMs = ms
  aligned : ∀ k < maxAxes, k ≠ n → x.drift k = 0
  motor : ∀ side, (a.motor? side).isSome = true → ∃ p, x.motor? ⟨n, side⟩ = some p ∧
    p.hasSwitch = true ∧ p.stuck = false ∧ low < p.distanceToSwitch ∧ p.distanceToSwitch ≤ high

variable {m : MachineSettings K} {motors : MotorSet} {phase : Phase} {n : Nat}
  {a : AxisSettings K} {g : HomingSettings K} {x z : Simulator K} {r : Except Failure Unit}
  {cs loop : List (Call K)} {tk : ActiveMove K} {ms low high : K}

omit [Field K] [LinearOrder K] [FloorRing K] [SquareRoot K] in
theorem homes_of_alone (halone : Alone m motors n a g) : Homes m motors := by
  intro id hid
  obtain ⟨-, hp, mo, hmo⟩ := halone.takes_of_mem hid
  exact ⟨a, g, mo, hp, hmo⟩

theorem Posed.setState (hx : Posed m n a ms low high x) (state : MachineState) :
    Posed m n a ms low high (Machine.after [.setState state] x) where
  ready := ⟨hx.ready.built.after _,
    ⟨hx.ready.rests.active, hx.ready.rests.scheduled, hx.ready.rests.cycleStop⟩, hx.ready.wired⟩
  undisturbed := hx.undisturbed.after _
  tickMs := hx.tickMs
  aligned := hx.aligned
  motor := hx.motor

theorem Posed.enterHoming (hx : Posed m n a ms low high x) (axes : AxisSet) :
    Posed m n a ms low high (Machine.after [.enterHoming axes] x) where
  ready := ready_enterHoming hx.ready axes
  undisturbed := hx.undisturbed.after _
  tickMs := hx.tickMs
  aligned := hx.aligned
  motor := hx.motor

theorem Posed.exists_motor (hx : Posed m n a ms low high x) (halone : Alone m motors n a g)
    {id : Motor} (hid : id ∈ motors) : ∃ p, x.motor? id = some p ∧ p.hasSwitch = true ∧
      p.stuck = false ∧ low < p.distanceToSwitch ∧ p.distanceToSwitch ≤ high := by
  obtain ⟨rfl, hside⟩ := (halone.mem id).1 hid
  exact hx.motor id.side hside

theorem Posed.offSwitch (hx : Posed m n a ms low high x) (halone : Alone m motors n a g)
    {id : Motor} (hid : id ∈ motors) : OffSwitch x id low high := by
  obtain ⟨p, hp, -, -, hlow, hhigh⟩ := hx.exists_motor halone hid
  exact ⟨p.distanceToSwitch, by rw [distanceToSwitch?, hp]; rfl, hlow, hhigh⟩

variable [IsStrictOrderedRing K]

/-- Motors that are off their switches are at no limit. -/
theorem Posed.not_active (hx : Posed m n a ms low high x) (halone : Alone m motors n a g)
    (hlow : 0 ≤ low) {id : Motor} (hid : id ∈ motors) : id ∉ (Machine.limits x).active := by
  obtain ⟨p, hp, -, hstuck, hoff, -⟩ := hx.exists_motor halone hid
  intro hactive
  rcases Simulator.mem_active.1 hactive with ⟨-, q, hq, hon⟩ | hmiswired
  · obtain rfl : p = q := Option.some.inj (hp.symm.trans hq)
    obtain hstuck' | ⟨-, hle⟩ := (limitActive_iff p).1 hon
    · rw [hstuck] at hstuck'
      cases hstuck'
    · exact absurd hoff (not_lt.2 (hle.trans hlow))
  · rw [hx.ready.wired] at hmiswired
    exact MotorSet.not_mem_empty id hmiswired

/-- A phase that ends well keeps everything but the distances. -/
theorem Posed.after_phase (hx : Posed m n a ms low high x) (hm : m.Sound)
    (halone : Alone m motors n a g) (h : PhaseRun m motors phase x (.ok ()) cs) {low' high' : K}
    (hoff : ∀ id ∈ motors, OffSwitch (Machine.after cs x) id low' high') :
    Posed m n a ms low' high' (Machine.after cs x) := by
  have hhomes := homes_of_alone halone
  refine ⟨ready_of_phase hm hhomes hx.ready h, hx.undisturbed.after cs,
    (fixed_after cs x).1.trans hx.tickMs, fun k hlt hk => ?_, fun side hside => ?_⟩
  · have hbeside := axes_of_phase hx.ready.built h (fun hmem => hk (halone.axis_eq hmem))
      (onStep_iff_drift.2 (hx.aligned k hlt hk))
    exact (drift_congr hbeside).trans (hx.aligned k hlt hk)
  · obtain ⟨p, hp, hswitch, hstuck, -, -⟩ := hx.motor side hside
    obtain ⟨v, hv⟩ := exists_position_after cs hp
    obtain ⟨d, hd, hlow, hhigh⟩ := hoff ⟨n, side⟩ ((halone.mem _).2 ⟨rfl, hside⟩)
    rw [distanceToSwitch?, hv, Option.map_some] at hd
    obtain rfl := Option.some.inj hd
    exact ⟨_, hv, hswitch, hstuck, hlow, hhigh⟩

/-! ## Approaches -/

omit [IsStrictOrderedRing K] in
/-- The move of a phase of one axis goes along that axis alone. -/
theorem Posed.along (hx : Posed m n a ms low high x) (halone : Alone m motors n a g)
    (h : Moved m motors phase x r cs z tk loop) {d : K}
    (htarget : (planMove m motors phase).target[n]? = some d) :
    tk.deltaOn n = d ∧ ∀ k ≠ n, tk.deltaOn k = 0 := by
  refine ⟨h.deltaOn hx.ready.built halone.takes htarget, fun k hk => ?_⟩
  by_cases hlt : k < maxAxes
  · have hplan : k ∉ (planMove m motors phase).axes :=
      not_mem_planMove_axes fun hmem => hk (halone.axis_eq hmem)
    rw [h.launch.drifts k hlt hplan, hx.aligned k hlt hk]
  · unfold ActiveMove.deltaOn
    rw [Vector.getElem?_eq_none (Nat.le_of_not_lt hlt), Option.getD_none, Scalar.zero_exact]

theorem Posed.length_eq [ExactRoot K] (hx : Posed m n a ms low high x)
    (halone : Alone m motors n a g) (h : Moved m motors phase x r cs z tk loop) {w : K} (hw : 0 ≤ w)
    (htarget : (planMove m motors phase).target[n]? = some (g.toward w)) : tk.length = w := by
  obtain ⟨hdelta, hstill⟩ := hx.along halone h htarget
  have hget {k : Nat} {e : K} (he : tk.delta[k]? = some e) : e = tk.deltaOn k := by
    rw [ActiveMove.deltaOn, he, Option.getD_some]
  obtain ⟨d, hd⟩ : ∃ d, tk.delta[n]? = some d :=
    ⟨_, Vector.getElem?_eq_getElem halone.takes.lt⟩
  rw [h.launch.length, lengthOf_eq_abs hd fun k e he hk => (hget he).trans (hstill k hk), hget hd,
    hdelta]
  unfold HomingSettings.toward
  split
  · exact abs_of_nonneg hw
  · rw [abs_neg, abs_of_nonneg hw]

/-- The motors of an axis that is approached have their switches in reach. -/
theorem Posed.seeking (hx : Posed m n a ms low high x) (halone : Alone m motors n a g)
    (h : Moved m motors phase x r cs z tk loop) {w : K} (hdelta : tk.deltaOn n = g.toward w)
    (hlength : tk.length = w) (hreach : high + stride ms tk.feedRate ≤ w) : Seeking tk n z := by
  refine ⟨(h.undisturbed hx.undisturbed).scheduled, ?_, fun mv' hactive => ?_,
    fun side q hq => .inr ?_⟩
  · rw [h.launch.pending]
    exact hx.ready.rests.cycleStop
  · rw [h.launch.active] at hactive
    exact ⟨_, _, (Option.some.inj hactive).symm⟩
  · rw [h.launch.motor] at hq
    have hmotor := hx.ready.built.motor halone.takes.lt halone.takes.axis halone.takes.homing side
    rw [hq, Option.map_some, eq_comm, Option.map_eq_some_iff] at hmotor
    obtain ⟨mo, hmo, hend⟩ := hmotor
    obtain ⟨p, hp, hswitch, -, -, hle⟩ := hx.motor side (by rw [hmo]; rfl)
    obtain rfl : p = q := Option.some.inj (hp.symm.trans hq)
    have hpositive : g.positiveDirection = p.positive := congrArg Prod.fst hend
    refine ⟨hswitch, ?_, tk, h.launch.active, ?_⟩
    · rw [hdelta, hlength, HomingSettings.toward, SimMotor.towardSwitch, hpositive]
    · rw [h.launch.travelled, h.launch.fixed.1, hx.tickMs, hlength]
      linarith

/-- An approach whose way is longer than that of each motor, by a tick at least, finds the
switches and ends less than a tick past them. -/
theorem Posed.approach [ExactRoot K] (hx : Posed m n a ms low high x) (hm : m.Sound)
    (halone : Alone m motors n a g) (hlow : 0 ≤ low) (happroach : phase.isApproach = true) {w : K}
    (htarget : (planMove m motors phase).target[n]? = some (g.toward w))
    (hreach : high + stride ms (g.rate phase) ≤ w) (h : PhaseRun m motors phase x r cs) :
    r = .ok () ∧ Posed m n a ms (-stride ms (g.rate phase)) 0 (Machine.after cs x) := by
  have hhomes := homes_of_alone halone
  have hg := (halone.takes.sound hm).2
  obtain ⟨side, hside⟩ := MotorSet.mem_axes_iff_exists.1 halone.takes.motor
  obtain ⟨z, tk, loop, hmoved⟩ := exists_moved hx.ready.built hm hhomes h hside
    (by rintro rfl; cases happroach)
  have hw : 0 < w := by
    obtain ⟨p, -, -, -, hoff, hle⟩ := hx.exists_motor halone hside
    have hms : 0 < ms := hx.tickMs ▸ by simpa using hx.ready.built.tick
    linarith [stride_pos hms (hg.rate phase)]
  have hrate : tk.feedRate = g.rate phase := hmoved.launch.feedRate.trans (halone.feedRate_eq hg)
  have hlength : tk.length = w := hx.length_eq halone hmoved hw.le htarget
  obtain ⟨hdelta, hstill⟩ := hx.along halone hmoved htarget
  have hmv : ApproachOn tk n := by
    refine ⟨hmoved.launch.approach.trans happroach, ?_, hstill, hlength ▸ hw⟩
    rw [hmoved.launch.overrides, blocked_planMove (by rintro rfl; cases happroach)]
  have hseeking := hx.seeking halone hmoved hdelta hlength (hrate ▸ hreach)
  obtain rfl := hmoved.ok_of_seeking (hmoved.undisturbed hx.undisturbed) hmv hseeking
  refine ⟨rfl, hx.after_phase hm halone h fun id hid => ?_⟩
  obtain ⟨rfl, hp, mo, hmo⟩ := halone.takes_of_mem hid
  have hoff := hmoved.offSwitch_of_approach happroach hx.ready hid hp hmo
    (hx.not_active halone hlow hid) hw.le hdelta
  rw [hmoved.launch.fixed.1, hx.tickMs, hrate, hlength, mul_div_cancel₀ _ hw.ne'] at hoff
  exact hoff

/-! ## Pull-offs -/

/-- A pull-off that is longer than the overshoot of each motor takes them off their
switches. -/
theorem Posed.pulloff (hx : Posed m n a ms low high x) (hm : m.Sound)
    (halone : Alone m motors n a g) (hpull : phase.isApproach = false)
    (hphase : phase ≠ .prePulloff) {d low' : K} (hd : 0 ≤ d)
    (htarget : (planMove m motors phase).target[n]? = some (g.toward (-d))) (hlow' : 0 ≤ low')
    (hclear : ∀ id ∈ motors,
      low' ≤ low + if id ∈ (planMove m motors phase).overrides.blocked then 0 else d)
    (h : PhaseRun m motors phase x r cs) :
    r = .ok () ∧ Posed m n a ms low' (high + d) (Machine.after cs x) := by
  have hhomes := homes_of_alone halone
  obtain ⟨side, hside⟩ := MotorSet.mem_axes_iff_exists.1 halone.takes.motor
  obtain ⟨z, tk, loop, hmoved⟩ := exists_moved hx.ready.built hm hhomes h hside hphase
  have hok : r = .ok () := by
    have hz := hmoved.undisturbed hx.undisturbed
    refine hmoved.ok_of_clear hx.ready hz hpull fun id hid p hp => ?_
    obtain ⟨rfl, hq, mo, hmo⟩ := halone.takes_of_mem hid
    obtain ⟨p', hp', -, hstuck, hoff, -⟩ := hx.exists_motor halone hid
    obtain rfl : p = p' := Option.some.inj (hp.symm.trans hp')
    rw [hmoved.launch.overrides, hmoved.travel_eq hx.ready.built hq hmo htarget hp,
      ← Bool.not_eq_true, limitActive_iff, distanceToSwitch_advance]
    rintro (hon | ⟨-, hle⟩)
    · rw [SimMotor.advance, hstuck] at hon
      cases hon
    · linarith [hclear id hid]
  subst hok
  refine ⟨rfl, hx.after_phase hm halone h fun id hid => ?_⟩
  obtain ⟨rfl, hq, mo, hmo⟩ := halone.takes_of_mem hid
  obtain ⟨e, he, hlow, hhigh⟩ := hmoved.offSwitch_of_pulloff hx.ready hpull hid hq hmo htarget
    (hx.offSwitch halone hid)
  refine ⟨e, he, (hclear id hid).trans_lt hlow, hhigh.trans (add_le_add_right ?_ high)⟩
  split
  · exact hd
  · exact le_rfl

/-! ## All phases -/

/-- The inequalities under which the phases of a cycle of an axis alone end well, where
each of its motors is at most `reach` off its switch: both approaches reach the switches,
and both pull-offs go further than a tick at the rate before them. -/
structure Bounded (a : AxisSettings K) (g : HomingSettings K) (ms reach : K) : Prop where
  fastApproach : reach + stride ms g.seekRate ≤ a.maxTravel * g.seekScaler
  pulloff0 : stride ms g.seekRate ≤ a.commonPulloff
  slowApproach : a.commonPulloff + stride ms g.feedRate ≤ a.commonPulloff * g.feedScaler
  pulloff1 : stride ms g.feedRate ≤ a.commonPulloff

omit [IsStrictOrderedRing K] in
theorem bounded_iff {reach : K} : Bounded a g ms reach ↔
    reach + stride ms g.seekRate ≤ a.maxTravel * g.seekScaler ∧
      stride ms g.seekRate ≤ a.commonPulloff ∧
      a.commonPulloff + stride ms g.feedRate ≤ a.commonPulloff * g.feedScaler ∧
      stride ms g.feedRate ≤ a.commonPulloff :=
  ⟨fun h => ⟨h.fastApproach, h.pulloff0, h.slowApproach, h.pulloff1⟩,
    fun h => ⟨h.1, h.2.1, h.2.2.1, h.2.2.2⟩⟩

instance {reach : K} : Decidable (Bounded a g ms reach) := decidable_of_iff' _ bounded_iff

/-- A cycle of one axis that starts off its switches cannot fail. -/
theorem Posed.ok_of_phases [ExactRoot K] (hx : Posed m n a ms 0 high x) (hm : m.Sound)
    (halone : Alone m motors n a g) (hbounded : Bounded a g ms high)
    (h : PhasesRun m motors (movingPhases m motors false) x r cs) : r = .ok () := by
  obtain ⟨ha, hg⟩ := halone.takes.sound hm
  have hpull {phase : Phase} (hphase : phase.isApproach = false) (hlast : phase ≠ .pulloff2) :=
    halone.takes.target_pulloff hphase hlast
  -- A motor that no plan blocks goes the whole way.
  have hgoes {phase : Phase} (hphase : phase ≠ .pulloff2) {t : K} (id : Motor) (_ : id ∈ motors) :
      a.commonPulloff - t ≤ -t +
        if id ∈ (planMove m motors phase).overrides.blocked then 0 else a.commonPulloff := by
    rw [blocked_planMove hphase, if_neg (MotorSet.not_mem_empty id)]
    linarith
  obtain ⟨x₁, _, hx₁, h⟩ := h.exists_rest fun _ _ => hx.approach hm halone le_rfl rfl
    (halone.target_fastApproach ha hg) hbounded.fastApproach
  obtain ⟨x₂, _, hx₂, h⟩ := h.exists_rest fun _ _ => hx₁.pulloff hm halone rfl (by simp)
    ha.commonPulloff_nonneg (hpull rfl (by simp)) (sub_nonneg.2 hbounded.pulloff0)
    (hgoes (by simp))
  rw [zero_add] at hx₂
  obtain ⟨x₃, _, hx₃, h⟩ := h.exists_rest fun _ _ => hx₂.approach hm halone
    (sub_nonneg.2 hbounded.pulloff0) rfl halone.takes.target_slowApproach hbounded.slowApproach
  obtain ⟨x₄, _, hx₄, h⟩ := h.exists_rest fun _ _ => hx₃.pulloff hm halone rfl (by simp)
    ha.commonPulloff_nonneg (hpull rfl (by simp)) (sub_nonneg.2 hbounded.pulloff1)
    (hgoes (by simp))
  cases hneeds : needsSquaring m motors with
  | false =>
      rw [hneeds] at h
      cases h with
      | nil => rfl
  | true =>
      rw [hneeds] at h
      -- The motor that is blocked now stays clear, and the other one goes further off.
      obtain ⟨x₅, _, -, h⟩ := h.exists_rest fun _ _ => hx₄.pulloff hm halone rfl (by simp)
        (abs_nonneg a.extraPulloff) halone.takes.target_pulloff2 (sub_nonneg.2 hbounded.pulloff1)
        fun id _ => le_add_of_nonneg_right (by split; exacts [le_rfl, abs_nonneg _])
      cases h with
      | nil => rfl

/-! ## A whole cycle -/

omit [IsStrictOrderedRing K] in
/-- A cycle of one axis whose motors all have switches takes all its motors. -/
theorem alone_homeable (hx : BuiltFrom m x) (hlt : n < maxAxes) (ha : m.axes[n]? = some a)
    (hg : a.homing = some g) (hsound : a.Sound)
    (hall : ∀ mo ∈ a.motors, mo.limitSwitch = true) : Alone m (x.homeable (.single n)) n a g := by
  have hn : n ∈ AxisSet.single n := AxisSet.mem_single.2 ⟨rfl, hlt⟩
  have hmem (id : Motor) : id ∈ x.homeable (.single n) ↔
      id.axis = n ∧ (a.motor? id.side).isSome = true := by
    constructor
    · intro hid
      obtain ⟨haxis, p, hp, -⟩ := mem_homeable.1 hid
      obtain ⟨rfl, -⟩ := AxisSet.mem_single.1 haxis
      have hmotor := hx.motor hlt ha hg id.side
      rw [hp, Option.map_some] at hmotor
      refine ⟨rfl, ?_⟩
      rw [← Option.isSome_map, ← hmotor]
      rfl
    · rintro ⟨rfl, hside⟩
      exact hx.mem_homeable_of_switch hn ha hg hall hside
  exact ⟨⟨ha, hg, MotorSet.mem_axes_iff_exists.2
    ⟨.primary, (hmem _).2 ⟨rfl, hsound.isSome_primary⟩⟩⟩, hmem⟩

omit [Field K] [LinearOrder K] [FloorRing K] [SquareRoot K] [IsStrictOrderedRing K] in
theorem mem_homingAxes_of_single (hn : n ∈ m.homingAxes) {k : Nat} (hk : k ∈ AxisSet.single n) :
    k ∈ m.homingAxes := by
  rw [(AxisSet.mem_single.1 hk).1]
  exact hn

/-- The end of a cycle gives the axis the step count of its reference position. -/
theorem steps_after_closing (hm : m.Sound) (hx : BuiltFrom m x)
    (hn : n ∈ m.homingAxes) (ha : m.axes[n]? = some a) (hg : a.homing = some g) :
    Machine.steps (Machine.after (closing m (.single n) (.ok ())) x) n = a.stepsAt g.reference := by
  have hlt := AxisSet.lt_of_mem hn
  obtain ⟨b, hb, hspm, hposition⟩ := exists_axis_closing hx (AxisSet.mem_single.2 ⟨rfl, hlt⟩) ha hg
  show Simulator.steps _ n = _
  rw [Simulator.steps, hb]
  refine steps_of_position ?_ (g.reference * a.stepsPerMm) ?_
  · exact (hx.after _).stepsPerMm_ne hm hlt hb
  · rw [hposition, AxisSettings.positionAt, hspm]
    rfl

omit [IsStrictOrderedRing K] in
/-- A cycle of one axis touches no other axis. -/
theorem Posed.axes_beside (hx : Posed m n a ms low high x) (hm : m.Sound)
    (h : CycleRun m (.single n) x (.ok ()) cs) {k : Nat} (hk : k ≠ n) :
    (Machine.after cs x).axes[k]? = x.axes[k]? := by
  by_cases hlt : k < maxAxes
  · exact axes_of_cycle hx.ready.built h (fun hmem => hk (AxisSet.mem_single.1 hmem).1)
      (onStep_iff_drift.2 (hx.aligned k hlt hk))
  · have hnone : m.axes[k]? = none :=
      List.getElem?_eq_none (hm.length_le.trans (Nat.le_of_not_lt hlt))
    rw [hx.ready.built.axis_none hnone, (hx.ready.built.after cs).axis_none hnone]

/-- A cycle of one axis that starts off its switches ends well, makes its moves with a wait
after each, and leaves the axis at its reference position. -/
theorem Posed.cycle [ExactRoot K] (hx : Posed m n a ms 0 high x) (hm : m.Sound)
    (hn : n ∈ m.homingAxes) (ha : m.axes[n]? = some a) (hg : a.homing = some g)
    (hall : ∀ mo ∈ a.motors, mo.limitSwitch = true) (hbounded : Bounded a g ms high)
    (h : CycleRun m (.single n) x r cs) :
    r = .ok () ∧ Machine.steps (Machine.after cs x) n = a.stepsAt g.reference ∧
      ∃ moves : List (Move K), moves.length = (if a.extraPulloff = 0 then 4 else 5) ∧
        cs.filter Call.isMoveOrDwell = settledMoves g.settle moves := by
  have hsound := hm.axis a (List.mem_of_getElem? ha)
  have halone := alone_homeable hx.ready.built (AxisSet.lt_of_mem hn) ha hg hsound hall
  have hposed := hx.enterHoming (.single n)
  cases h with
  | @intro phases hphases =>
      have hhomeable : Machine.homeable x (.single n) = x.homeable (.single n) := rfl
      rw [hhomeable] at hphases
      have hmotors : x.homeable (.single n) ≠ ∅ := by
        intro hempty
        obtain ⟨side, hid⟩ := MotorSet.mem_axes_iff_exists.1 halone.takes.motor
        rw [hempty] at hid
        exact MotorSet.not_mem_empty _ hid
      have hoff : (Machine.limits (Machine.after [.enterHoming (.single n)] x)).active ∩
          x.homeable (.single n) = ∅ := by
        ext id
        refine ⟨fun hid => ?_, fun hid => absurd hid (MotorSet.not_mem_empty id)⟩
        obtain ⟨hactive, hid⟩ := MotorSet.mem_inter.1 hid
        exact absurd hactive (hposed.not_active halone le_rfl hid)
      have hmoving := phasesRun_of_off hmotors hoff hphases
      obtain rfl := hposed.ok_of_phases hm halone hbounded hmoving
      obtain ⟨moves, hlength, hfilter⟩ :=
        filter_of_movesCalls halone (movesCalls_of_movingPhases hmotors hmoving)
      refine ⟨rfl, ?_, moves, hlength.trans (halone.length_movingPhases hsound), ?_⟩
      · rw [Machine.after_append]
        exact steps_after_closing hm (hx.ready.built.after _) hn ha hg
      · rw [List.filter_append, List.filter_append, hfilter, filter_closing, List.append_nil]
        rfl

end Simulator

end Homing
