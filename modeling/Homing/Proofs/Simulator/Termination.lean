import Homing.Proofs.Exact.Scalar
import Homing.Proofs.Engine.CycleRun
import Homing.Proofs.Simulator.Phases
import Mathlib.Algebra.Order.Floor.Semiring

/-!
# A cycle on a simulator comes to an end

The number of ticks that are left of a move falls in every turn of the loop, so a phase
can only go on for ever once its move has ended. A move that ends raises the cycle-stop
signal, which ends the phase, except for an approach in whose last tick no motor
stepped. Then every motor that is waited for must be on its switch, or its axis had
nowhere to go. The second case is what `exists_runPhases` rules out: an axis without a
pull-off does not move in `Pulloff0`, so its motors are still on their switches after
it, that phase fails, and the slow approach is never reached.
-/

namespace Homing

variable {K : Type u} [Field K] [LinearOrder K] [FloorRing K] [SquareRoot K]

namespace Simulator

/-- The number of ticks until the move in progress ends. -/
def ticksLeft (s : Simulator K) : Nat :=
  match s.active with
  | some mv => ⌈(mv.length - mv.travelled) / stride s.tickMs mv.feedRate⌉₊ + 1
  | none => 0

/-- A motor that an approach waits for and that its move can bring to its switch. -/
structure Awaits (s : Simulator K) (mv : ActiveMove K) (id : Motor) : Prop where
  lt : id.axis < maxAxes
  motor : (s.motor? id).isSome = true
  delta : mv.deltaOn id.axis ≠ 0
  blocked : id ∉ mv.overrides.blocked

/-- A simulator on which the loop of a phase, waiting for `remaining`, comes to an end:
its move is in progress, or the loop ends in its next turn. -/
inductive Working (approach : Bool) (remaining : MotorSet) (s : Simulator K) : Prop
  | moving {mv : ActiveMove K} (hactive : s.active = some mv) (hrunning : s.running = true)
      (htick : 0 < s.tickMs) (hrate : 0 < mv.feedRate) (happroach : mv.approach = approach)
      (hawaits : approach = true → ∀ id ∈ remaining, Awaits s mv id)
  | stopped (hstop : s.pending.cycleStop = true)
  | found (happroach : approach = true) (hon : ∀ id ∈ remaining, id ∈ (Machine.limits s).active)

variable {approach : Bool} {remaining rest : MotorSet} {s : Simulator K} {cs : List (Call K)}

theorem ceil_sub_lt [IsStrictOrderedRing K] {left d : K} (hd : 0 < d) (hlt : d < left) :
    ⌈(left - d) / d⌉₊ < ⌈left / d⌉₊ := by
  have hone : (left - d) / d = left / d - 1 := by
    field_simp
  have hpos : 0 < ⌈left / d⌉₊ := Nat.ceil_pos.2 (div_pos (hd.trans hlt) hd)
  rw [hone, Nat.ceil_sub_one]
  omega

/-- A waiting cycle-stop signal still waits after a refill. -/
theorem cycleStop_refill (hstop : s.pending.cycleStop = true) :
    (s.refill.1).pending.cycleStop = true := by
  rcases refill_cases s with h | ⟨mv, -, -, h⟩
  · rw [h, hstop]
  · rw [h]
    exact cycleStop_tick_of_pending mv hstop

/-- The calls of a turn after its refill touch no motion. -/
theorem after_turn (status : Bool) (s : Simulator K) :
    (Machine.after (service status ++ [Call.poll]) s).axes = s.refill.1.axes ∧
      (Machine.after (service status ++ [Call.poll]) s).active = s.refill.1.active ∧
      (Machine.after (service status ++ [Call.poll]) s).running = s.refill.1.running ∧
      (Machine.after (service status ++ [Call.poll]) s).tickMs = s.refill.1.tickMs := by
  cases status with
  | false => exact ⟨rfl, rfl, rfl, rfl⟩
  | true => exact ⟨rfl, rfl, rfl, rfl⟩

/-- A tick in which no motor stepped found each motor that is waited for on its
switch. -/
theorem limitActive_of_still [IsStrictOrderedRing K] {mv : ActiveMove K} {id : Motor}
    (hawaits : Awaits s mv id) (hstill : ∀ (n : Nat) a, s.axes[n]? = some a →
      (a.step mv.overrides mv.approach (mv.deltaOn n) (s.fraction mv) n).2 = false) :
    ∃ p, s.motor? id = some p ∧ p.limitActive = true := by
  obtain ⟨p, hp⟩ := Option.isSome_iff_exists.1 hawaits.motor
  obtain ⟨a, ha, hside⟩ := Option.bind_eq_some_iff.1 hp
  have hnone := SimAxis.motorTravel_of_step hside
    (by simpa using hawaits.delta) (hstill id.axis a ha)
  rw [motorTravel_exact] at hnone
  split at hnone
  · rename_i hstop
    rcases hstop with hblocked | ⟨-, hon⟩
    · exact absurd hblocked hawaits.blocked
    · exact ⟨p, hp, hon⟩
  · cases hnone

theorem Awaits.tick [IsStrictOrderedRing K] {mv : ActiveMove K} {id : Motor} (h : Awaits s mv id)
    {t : Simulator K} (ht : t.axes = (s.tick mv).1.axes) (travelled : K) (ticks : Nat) :
    Awaits t { mv with travelled := travelled, ticks := ticks } id := by
  refine ⟨h.lt, ?_, h.delta, h.blocked⟩
  have hmotor : t.motor? id = (s.tick mv).1.motor? id := by
    unfold Simulator.motor?
    rw [ht]
  rw [hmotor, motor?_tick, Option.isSome_map]
  exact h.motor

/-- One turn that goes on keeps the loop working and takes a tick of its move. -/
theorem Working.turn [IsStrictOrderedRing K] (h : Working approach remaining s)
    (hgoes : TurnGoes approach remaining s rest cs) :
    Working approach rest (Machine.after cs s) ∧ ticksLeft (Machine.after cs s) < ticksLeft s := by
  have hquiet : (s.refill.1).pending.cycleStop = false := hgoes.quiet.2.2
  cases h with
  | stopped hstop =>
      rw [cycleStop_refill hstop] at hquiet
      cases hquiet
  | found happroach hon =>
      refine absurd ?_ hgoes.rest_ne
      ext id
      rw [hgoes.rest_eq, awaited, if_pos happroach, MotorSet.mem_sdiff]
      exact ⟨fun hid => absurd (hon id hid.1) hid.2,
        fun hid => absurd hid (MotorSet.not_mem_empty id)⟩
  | @moving mv hactive hrunning htick hrate happroach hawaits =>
      have hrefill : s.refill = s.tick mv := by
        unfold refill
        rw [hrunning, hactive]
      rw [hgoes.calls_eq]
      obtain ⟨haxes', hactive', hrunning', htick'⟩ := after_turn (seen s).statusReport s
      rw [hrefill] at haxes' hactive' hrunning' htick' hquiet
      rcases tick_cases (s := s) mv with ⟨hend, -, -⟩ | ⟨hend, hruns, hsome⟩
      · -- The move has ended without a signal, so no motor can be left to wait for.
        rcases cycleStop_tick hend with hstop | ⟨hmv, hstill⟩
        · rw [hquiet] at hstop
          cases hstop
        · refine absurd ?_ hgoes.rest_ne
          have happroach' : approach = true := happroach.symm.trans hmv
          ext id
          rw [hgoes.rest_eq, awaited, if_pos happroach', MotorSet.mem_sdiff]
          refine ⟨fun hid => absurd ?_ hid.2, fun hid => absurd hid (MotorSet.not_mem_empty id)⟩
          have hid' := hawaits happroach' id hid.1
          exact mem_active.2 (.inl ⟨hid'.lt, limitActive_of_still hid' hstill⟩)
      · rw [tickLength_exact, decide_eq_false_iff_not] at hend
        rw [tickLength_exact] at hsome
        dsimp only at hend hsome
        rw [min_eq_right (not_le.1 hend).le] at hsome
        rw [hsome] at hactive'
        rw [hruns, hrunning] at hrunning'
        rw [(fixed_tick s mv).1] at htick'
        refine ⟨.moving hactive' hrunning' (htick' ▸ htick) hrate happroach fun ha id hid => ?_, ?_⟩
        · rw [hgoes.rest_eq, awaited, if_pos ha, MotorSet.mem_sdiff] at hid
          exact (hawaits ha id hid.1).tick haxes' _ _
        · have hlt := ceil_sub_lt (stride_pos htick hrate) (not_le.1 hend)
          have hleft : mv.length - (mv.travelled + stride s.tickMs mv.feedRate) =
              mv.length - mv.travelled - stride s.tickMs mv.feedRate := by ring
          unfold ticksLeft
          rw [hactive', hactive, htick']
          dsimp only
          rw [hleft]
          omega

/-- A simulator that starts a move works. -/
theorem working_start [IsStrictOrderedRing K] {mv : ActiveMove K} (hactive : s.active = some mv)
    (htick : 0 < s.tickMs) (hrate : 0 < mv.feedRate) (happroach : mv.approach = approach)
    (hawaits : approach = true → ∀ id ∈ remaining, Awaits s mv id) :
    Working approach remaining (Machine.after launching s) := by
  have hstart : Machine.after launching s =
      { s.refill.1 with running := s.refill.1.active.isSome } := rfl
  rw [hstart]
  rcases refill_cases s with h | ⟨mv', hactive', -, h⟩
  · rw [h, hactive]
    refine .moving hactive rfl htick hrate happroach fun ha id hid => ?_
    obtain ⟨hlt, hmotor, hdelta, hblocked⟩ := hawaits ha id hid
    exact ⟨hlt, hmotor, hdelta, hblocked⟩
  · -- The step generator runs already, so the move may be over before its loop begins.
    obtain rfl : mv = mv' := Option.some.inj (hactive.symm.trans hactive')
    rw [h]
    rcases tick_cases (s := s) mv with ⟨hend, -, -⟩ | ⟨-, -, hsome⟩
    · rcases cycleStop_tick hend with hstop | ⟨hmv, hstill⟩
      · exact .stopped hstop
      · refine .found (happroach.symm.trans hmv) fun id hid => ?_
        have hid' := hawaits (happroach.symm.trans hmv) id hid
        obtain ⟨p, hp, hon⟩ := limitActive_of_still hid' hstill
        refine mem_active.2 (.inl ⟨hid'.lt, p, ?_, hon⟩)
        have hmotor : (s.tick mv).1.motor? id = some p := by
          rw [motor?_tick, hp, Option.map_some, if_pos (.inr ⟨hmv, hon⟩)]
        exact hmotor
    · rw [hsome]
      refine .moving hsome rfl ?_ hrate happroach fun ha id hid => ?_
      · rw [← (fixed_tick s mv).1] at htick
        exact htick
      · refine (hawaits ha id hid).tick ?_ _ _
        rfl

end Simulator

open Simulator

variable {m : MachineSettings K} {motors : MotorSet} {phase : Phase}
  {s : Session (Simulator K) K} {x : Simulator K} {cs : List (Call K)}

/-- A phase ends, if each axis that takes part in an approach has somewhere to go. -/
theorem exists_runPhase [IsStrictOrderedRing K] (hm : m.Sound) (hhomes : Homes m motors)
    (hs : BuiltFrom m s.machine)
    (haway : phase.isApproach = true → ∀ n a h, TakesPart m motors n a h →
      ∃ d ≠ 0, (planMove m motors phase).target[n]? = some d) :
    ∃ n, (runPhase n m motors phase s).isSome = true := by
  unfold runPhase
  by_cases hempty : motors.isEmpty = true
  · exact ⟨0, by rw [if_pos hempty]; rfl⟩
  simp only [hempty, Bool.false_eq_true, if_false]
  by_cases hskip : phase = .prePulloff ∧
      ((Machine.limits s.machine).active ∩ motors).isEmpty = true
  · exact ⟨0, by rw [if_pos hskip]; rfl⟩
  simp only [hskip, if_false, Option.isSome_map]
  obtain ⟨mv, hcarries, hmakes, happ⟩ :=
    startPhase_spec m motors phase (s.setApproaching phase.isApproach)
  obtain ⟨id, hid⟩ := MotorSet.exists_mem_of_ne_empty fun he => hempty (MotorSet.isEmpty_iff.2 he)
  obtain ⟨a, h, mo, hp, -⟩ := hhomes id hid
  obtain ⟨z, tk, hlaunch, hafter⟩ := exists_launch hs (hp.feedRate_pos hm) hcarries
  have htick : 0 < z.tickMs := by
    rw [hlaunch.fixed.1]
    simpa using hs.tick
  have hrate : 0 < tk.feedRate := by
    rw [hlaunch.feedRate]
    exact hp.feedRate_pos hm
  refine exists_turns_of_measure (Working phase.isApproach) ticksLeft
    (fun _ _ _ _ hworks hgoes => hworks.turn hgoes) happ ?_
  have hmachine := hafter []
  rw [List.append_nil, List.append_nil] at hmachine
  rw [hmakes.machine]
  refine hmachine ▸ working_start hlaunch.active htick hrate hlaunch.approach
    fun happroach k hk => ?_
  obtain ⟨b, g, mo, hq, hmo⟩ := hhomes k hk
  obtain ⟨p, hp, -⟩ := hs.motor_of_homes hq hmo
  obtain ⟨d, hd, htarget⟩ := haway happroach k.axis b g hq
  refine ⟨hq.lt, by rw [hlaunch.motor, hp]; rfl, ?_, ?_⟩
  · obtain ⟨c, hc, -⟩ := hs.axis_of_settings hq.lt hq.axis
    have halong := hlaunch.along k.axis (mem_axes_planMove.2 ⟨b, g, hq⟩) (by rw [hc]; rfl)
    rw [htarget] at halong
    exact Option.some.inj halong ▸ hd
  · rw [hlaunch.overrides, blocked_planMove (by rintro rfl; cases happroach)]
    exact MotorSet.not_mem_empty k

/-- Phases that pull off end. -/
theorem exists_runPhases_of_pulloffs [IsStrictOrderedRing K] (hm : m.Sound)
    (hhomes : Homes m motors) {plan : List Phase} (hplan : ∀ phase ∈ plan, phase.isApproach = false)
    (hs : BuiltFrom m s.machine) : ∃ n, (runPhases n m motors plan s).isSome = true := by
  induction plan generalizing s with
  | nil => exact ⟨0, rfl⟩
  | cons phase plan ih =>
      refine exists_runPhases_cons (exists_runPhase hm hhomes hs fun happroach => ?_)
        fun cs t _ hmakes => ?_
      · rw [hplan phase List.mem_cons_self] at happroach
        cases happroach
      · refine ih (fun p hp => hplan p (List.mem_cons_of_mem _ hp)) ?_
        rw [hmakes.machine]
        exact hs.after cs

/-- An axis whose motors left their switches in a pull-off has a pull-off. -/
theorem PhaseRun.commonPulloff_ne_zero [IsStrictOrderedRing K] (hm : m.Sound)
    (hhomes : Homes m motors) (hx : BuiltFrom m x)
    (h : PhaseRun m motors .pulloff0 x (.ok ()) cs)
    (hon : ∀ id ∈ motors, id ∈ (Machine.limits x).active) {n : Nat} {a : AxisSettings K}
    {g : HomingSettings K} (hp : TakesPart m motors n a g) : a.commonPulloff ≠ 0 := by
  obtain ⟨side, hid⟩ := MotorSet.mem_axes_iff_exists.1 hp.motor
  obtain ⟨z, tk, loop, hmoved⟩ := exists_moved hx hm hhomes h hid (by simp)
  intro hzero
  have hdelta : tk.deltaOn n = 0 := by
    rw [hmoved.deltaOn hx hp (hp.target_pulloff rfl (by simp)), hzero, neg_zero]
    unfold HomingSettings.toward
    simp
  refine hmoved.not_active_of_pulloff rfl hid ?_
  refine Simulator.mem_active.2 ?_
  rw [hmoved.motor?_of_still hdelta, (fixed_after cs x).2.2]
  exact Simulator.mem_active.1 (hon _ hid)

/-- The phases of a cycle end. -/
theorem exists_runPhases [IsStrictOrderedRing K] (hm : m.Sound) (hhomes : Homes m motors)
    (hs : BuiltFrom m s.machine) :
    ∃ n, (runPhases n m motors (phasePlan m motors) s).isSome = true := by
  have hpulls : ∀ phase ∈ Phase.pulloff1 :: if needsSquaring m motors then [.pulloff2] else [],
      phase.isApproach = false := by
    split <;> decide
  have hpull {phase : Phase} (hphase : phase.isApproach = false) {u : Session (Simulator K) K}
      (hu : BuiltFrom m u.machine) : ∃ n, (runPhase n m motors phase u).isSome = true := by
    refine exists_runPhase hm hhomes hu fun happroach => ?_
    rw [hphase] at happroach
    cases happroach
  have hbuilt {cs : List (Call K)} {u t : Session (Simulator K) K} (hu : BuiltFrom m u.machine)
      (hmakes : u.Makes cs t) : BuiltFrom m t.machine := by
    rw [hmakes.machine]
    exact hu.after cs
  rw [phasePlan_eq]
  refine exists_runPhases_cons (hpull rfl hs) fun cs₁ t₁ _ hmakes₁ => ?_
  have hs₁ := hbuilt hs hmakes₁
  refine exists_runPhases_cons (exists_runPhase hm hhomes hs₁ fun _ n a h hp =>
    hp.target_fastApproach hm) fun cs₂ t₂ hfast hmakes₂ => ?_
  have hs₂ := hbuilt hs₁ hmakes₂
  refine exists_runPhases_cons (hpull rfl hs₂) fun cs₃ t₃ hoff hmakes₃ => ?_
  have hs₃ := hbuilt hs₂ hmakes₃
  refine exists_runPhases_cons (exists_runPhase hm hhomes hs₃ fun _ n a h hp =>
    ⟨_, ?_, hp.target_slowApproach⟩) fun cs₄ t₄ _ hmakes₄ =>
      exists_runPhases_of_pulloffs hm hhomes hpulls (hbuilt hs₃ hmakes₄)
  -- An axis without a pull-off would still stand on its switches after `pulloff0`.
  have hon : ∀ id ∈ motors, id ∈ (Machine.limits t₂.machine).active := by
    intro id hid
    rw [hmakes₂.machine]
    exact (hfast.mem_active_iff hid).2 rfl
  have hpulloff := hoff.commonPulloff_ne_zero hm hhomes hs₂ hon hp
  have hscaled := mul_ne_zero hpulloff (hp.sound hm).2.feedScaler.ne'
  unfold HomingSettings.toward
  split
  · exact hscaled
  · exact neg_ne_zero.2 hscaled

/-- A cycle comes to an end on every simulator of a machine whose settings are
accepted, and with it the loop of each of its phases. -/
theorem exists_runCycle [IsStrictOrderedRing K] (hm : m.validate = .ok ())
    (hs : BuiltFrom m s.machine) (axes : AxisSet) :
    ∃ budget r t, runCycle budget m axes s = some (r, t) ∧
      (axes ∩ m.homingAxes ≠ ∅ →
        ∃ cs, CycleRun m (axes ∩ m.homingAxes) s.machine r cs ∧ s.Makes cs t) := by
  have hends : ∃ budget, (runCycle budget m axes s).isSome = true := by
    unfold runCycle
    dsimp only
    by_cases hempty : (axes ∩ m.homingAxes).isEmpty = true
    · exact ⟨0, by rw [if_pos hempty]; rfl⟩
    simp only [hempty, Bool.false_eq_true, if_false, Option.isSome_map]
    refine exists_runPhases (MachineSettings.sound_of_validate hm)
      (homes_homeable hs fun n hn => (AxisSet.mem_inter.1 hn).2) ?_
    rw [(enter_makes m _ _ s).machine]
    exact hs.after _
  obtain ⟨budget, hsome⟩ := hends
  obtain ⟨⟨r, t⟩, h⟩ := Option.isSome_iff_exists.1 hsome
  refine ⟨budget, r, t, h, fun hne => ?_⟩
  obtain ⟨hnone, -, -⟩ | ⟨-, cs, hrun, hmakes⟩ := cycleRun_of_runCycle h
  · exact absurd hnone hne
  · exact ⟨cs, hrun, hmakes⟩

/-- A machine whose axis stays on its switch when it is homed. -/
def flushAxis : MachineSettings ℚ where
  logLevel := .info
  axes := [{ name := "X", maxTravel := 8, stepsPerMm := 10, homing := some .default,
             motors := [⟨0, true⟩] }]

theorem exists_runCycle_flushAxis :
    flushAxis.validate = .ok () ∧
      BuiltFrom flushAxis ((ofSettings flushAxis).withStuckLimit ⟨0, .primary⟩) ∧
      ∃ budget r t, runCycle budget flushAxis (.first 1)
        (Session.begin ((ofSettings flushAxis).withStuckLimit ⟨0, .primary⟩)) = some (r, t) := by
  have hm : flushAxis.validate = .ok () := MachineSettings.validate_eq_ok_iff.2 (by decide +kernel)
  have hsetUp : SetUp flushAxis ((ofSettings flushAxis).withStuckLimit ⟨0, .primary⟩) :=
    .stuckLimit _ .settings
  have hbuilt := builtFrom_of_setUp (by decide +kernel) hsetUp
  obtain ⟨budget, r, t, h, -⟩ := exists_runCycle (s := Session.begin _) hm hbuilt (.first 1)
  exact ⟨hm, hbuilt, budget, r, t, h⟩

end Homing
