import Homing.Proofs.Simulator.SingleAxis
import Homing.Proofs.Simulator.Termination

/-!
# Homing one axis of a fresh machine

On a fresh simulator all positions are zero, and each motor is half the travel of its axis
off its switch, the second one further by the skew that was put in (`reach`). Where this
and the travel of a tick are `Bounded`, a request for the axis alone succeeds. Nothing
need be known of the number of ticks: a cycle comes to an end by itself, and no phase of
this one has a way to fail.
-/

namespace Homing

variable {K : Type u} [Field K] [LinearOrder K] [FloorRing K] [SquareRoot K]

/-- How far a motor of a fresh machine is off its switch. -/
def AxisSettings.reach (a : AxisSettings K) (skew : K) : Side → K
  | .primary => a.maxTravel / 2.0
  | .secondary => a.maxTravel / 2.0 + skew

namespace Simulator

variable {m : MachineSettings K} {n : Nat} {a : AxisSettings K} {g : HomingSettings K}
  {x : Simulator K} {ms skew high : K}

/-! ## A fresh machine -/

/-- A fresh machine with ticks of `ms` milliseconds, on which the switches of an axis are
out of line. -/
def fresh (m : MachineSettings K) (ms : K) (n : Nat) (skew : K) : Simulator K :=
  ((ofSettings m).withTickMs ms).withSkew n skew

theorem axes_fresh (m : MachineSettings K) (ms : K) (n : Nat) (skew : K) (k : Nat) :
    (fresh m ms n skew).axes[k]? = ((ofSettings m).axes[k]?).map fun b =>
      if n = k then
        b.modifyMotor .secondary fun p => { p with switchAt := p.switchAt + p.towardSwitch skew }
      else b := by
  have haxes : ((ofSettings m).withTickMs ms).axes = (ofSettings m).axes := by
    unfold withTickMs
    split <;> rfl
  have hmodify : (fresh m ms n skew).axes = ((ofSettings m).withTickMs ms).axes.modify n
      (·.modifyMotor .secondary fun p => { p with switchAt := p.switchAt + p.towardSwitch skew }) :=
    rfl
  rw [hmodify, haxes, List.getElem?_modify]
  rfl

theorem position_fresh {k : Nat} {b : SimAxis K} (hb : (fresh m ms n skew).axes[k]? = some b) :
    b.position = 0 := by
  rw [axes_fresh, Option.map_eq_some_iff] at hb
  obtain ⟨c, hc, rfl⟩ := hb
  have hposition : c.position = 0 := by
    unfold ofSettings at hc
    rw [List.getElem?_map, Option.map_eq_some_iff] at hc
    obtain ⟨a, -, rfl⟩ := hc
    exact Scalar.zero_exact
  split
  · exact hposition
  · exact hposition

theorem drift_fresh [IsStrictOrderedRing K] (m : MachineSettings K) (ms : K) (n : Nat) (skew : K)
    (k : Nat) : (fresh m ms n skew).drift k = 0 := by
  unfold drift
  cases hb : (fresh m ms n skew).axes[k]? with
  | none => rfl
  | some b =>
      have hposition := position_fresh hb
      have hsteps : b.steps = 0 := by
        unfold SimAxis.steps
        rw [hposition, zero_mul]
        exact (congrArg Scalar.round Int.cast_zero.symm).trans (Scalar.round_ofInt rfl)
      dsimp only
      rw [SimAxis.rest, hsteps, hposition, Scalar.ofInt_exact, Int.cast_zero, zero_div, sub_zero]

/-- The motors of a fresh machine are off their switches by their reach. -/
theorem exists_motor_fresh [IsStrictOrderedRing K] (hlt : n < maxAxes) (ha : m.axes[n]? = some a)
    (hg : a.homing = some g) (ms skew : K) {side : Side} {mo : MotorSettings K}
    (hmo : a.motor? side = some mo) :
    ∃ p, (fresh m ms n skew).motor? ⟨n, side⟩ = some p ∧ p.hasSwitch = mo.limitSwitch ∧
      p.stuck = false ∧ p.distanceToSwitch = a.reach skew side := by
  have haxis : (ofSettings m).axes[n]? = some (.ofSettings a) := by
    unfold ofSettings
    rw [List.getElem?_map, List.getElem?_take_of_lt hlt, ha]
    rfl
  have hmotor := SimAxis.motor?_ofSettings hg hmo
  have hfresh : (fresh m ms n skew).motor? ⟨n, side⟩ = _ :=
    congrArg (fun b => b.bind (·.motor? side)) (axes_fresh m ms n skew n)
  rw [hfresh, haxis, Option.map_some, if_pos rfl, Option.bind_some]
  unfold SimAxis.motor? SimAxis.modifyMotor at *
  cases side with
  | primary =>
      rw [List.getElem?_modify_ne _ _ (by decide)]
      refine ⟨_, hmotor, rfl, rfl, ?_⟩
      cases hpositive : g.positiveDirection <;>
        simp [SimMotor.distanceToSwitch, AxisSettings.reach]
  | secondary =>
      rw [List.getElem?_modify_eq, hmotor]
      refine ⟨_, rfl, rfl, rfl, ?_⟩
      cases hpositive : g.positiveDirection <;>
        simp [SimMotor.distanceToSwitch, SimMotor.towardSwitch, AxisSettings.reach, add_comm]

theorem builtFrom_fresh [IsStrictOrderedRing K] (m : MachineSettings K) (ms : K) (n : Nat)
    (skew : K) : BuiltFrom m (fresh m ms n skew) :=
  builtFrom_of_setUp (by simp [defaultTickMs]) (.skew n skew (.tickMs ms .settings))

/-- On a fresh machine a cycle of one axis can begin. -/
theorem posed_fresh [IsStrictOrderedRing K] (hlt : n < maxAxes) (ha : m.axes[n]? = some a)
    (hg : a.homing = some g) (hall : ∀ mo ∈ a.motors, mo.limitSwitch = true) (hms : 0 < ms)
    (hreach : ∀ side, (a.motor? side).isSome = true →
      0 < a.reach skew side ∧ a.reach skew side ≤ high) :
    Posed m n a ms 0 high (fresh m ms n skew) := by
  obtain ⟨hactive, hscheduled, hpending, hwired, hticks⟩ :
      (fresh m ms n skew).active = none ∧ (fresh m ms n skew).scheduled = [] ∧
        (fresh m ms n skew).pending = ∅ ∧ (fresh m ms n skew).miswired = ∅ ∧
        (fresh m ms n skew).tickMs = ms := by
    unfold fresh withTickMs
    rw [if_pos (by simpa using hms)]
    exact ⟨rfl, rfl, rfl, rfl, rfl⟩
  have hnone : ∀ e ∈ (fresh m ms n skew).scheduled, e.2.cycleStop = false := by
    rw [hscheduled]
    exact fun e he => absurd he List.not_mem_nil
  refine
    { ready := ⟨builtFrom_fresh m ms n skew, ⟨hactive, hnone, by rw [hpending]; rfl⟩, hwired⟩
      undisturbed := ⟨hscheduled, by rw [hpending]; rfl, by rw [hpending]; rfl⟩
      tickMs := hticks
      aligned := fun k _ _ => drift_fresh m ms n skew k
      motor := fun side hside => ?_ }
  obtain ⟨mo, hmo⟩ := Option.isSome_iff_exists.1 hside
  obtain ⟨p, hp, hswitch, hstuck, hdistance⟩ := exists_motor_fresh hlt ha hg ms skew hmo
  obtain ⟨hpos, hle⟩ := hreach side hside
  exact ⟨p, hp, hswitch.trans (hall mo (List.mem_of_getElem? hmo)), hstuck, hdistance ▸ hpos,
    hdistance ▸ hle⟩

/-! ## The whole request -/

/-- Homing one axis of a fresh machine succeeds where its switches and the travel of a tick
are within the bounds of the settings, whatever the other axes are. -/
theorem home_of_fresh [IsStrictOrderedRing K] [ExactRoot K] (hm : m.validate = .ok ())
    (ha : m.axes[n]? = some a) (hg : a.homing = some g)
    (hall : ∀ mo ∈ a.motors, mo.limitSwitch = true) (hms : 0 < ms)
    (hreach : ∀ side, (a.motor? side).isSome = true →
      0 < a.reach skew side ∧ Bounded a g ms (a.reach skew side)) :
    ∃ budget t, home budget m (.axes (.single n)) (fresh m ms n skew) = some (.ok (), t) ∧
      Machine.state t.machine = .idle ∧
      Machine.steps t.machine n = a.stepsAt g.reference ∧
      (∃ moves : List (Move K), moves.length = (if a.extraPulloff = 0 then 4 else 5) ∧
        t.calls.filter Call.isMoveOrDwell = settledMoves g.settle moves) ∧
      ∀ id, id.axis ≠ n → t.machine.motor? id = (fresh m ms n skew).motor? id := by
  have hlt : n < maxAxes :=
    (List.getElem?_eq_some_iff.1 ha).1.trans_le (MachineSettings.length_le_of_validate hm)
  have hn : n ∈ m.homingAxes := MachineSettings.mem_axesWhere.2 ⟨hlt, a, ha, by rw [hg]; rfl⟩
  have haxes : AxisSet.single n ∩ m.homingAxes = .single n := by
    ext k
    rw [AxisSet.mem_inter, and_iff_left_iff_imp]
    exact mem_homingAxes_of_single hn
  have hsound := MachineSettings.sound_of_validate hm
  have hprimary := (hsound.axis a (List.mem_of_getElem? ha)).isSome_primary
  -- The longest way that the fast approach can make with a tick to spare.
  have hposed : Posed m n a ms 0 (a.maxTravel * g.seekScaler - stride ms g.seekRate)
      (fresh m ms n skew) := by
    refine posed_fresh hlt ha hg hall hms fun side hside => ⟨(hreach side hside).1, ?_⟩
    exact le_sub_iff_add_le.2 (hreach side hside).2.fastApproach
  have hbounded : Bounded a g ms (a.maxTravel * g.seekScaler - stride ms g.seekRate) :=
    { (hreach .primary hprimary).2 with fastApproach := (sub_add_cancel _ _).le }
  have hbegin := Session.Makes.call (.setState .homing) (Session.begin (fresh m ms n skew))
  have hstart : Posed m n a ms 0 (a.maxTravel * g.seekScaler - stride ms g.seekRate)
      ((Session.begin (fresh m ms n skew)).call (.setState .homing)).machine := by
    rw [hbegin.machine]
    exact hposed.setState .homing
  obtain ⟨budget, r, u, hrun, hcycle⟩ := exists_runCycle hm hstart.ready.built (.single n)
  rw [haxes] at hcycle
  obtain ⟨cs, hcycle, hmakes⟩ := hcycle (AxisSet.ne_empty_of_mem (AxisSet.mem_single.2 ⟨rfl, hlt⟩))
  obtain ⟨rfl, hsteps, moves, hlength, hfilter⟩ :=
    hstart.cycle hsound hn ha hg hall hbounded hcycle
  have hend := (hmakes.snoc (.setState .idle)).snoc_note .homingComplete
  refine ⟨budget, _, home_of_runCycle ?_ hrun, ?_, ?_, ⟨moves, hlength, ?_⟩, fun id hid => ?_⟩
  · exact ambiguous_of_miswired (hposed.setState .homing).ready.wired
  · rw [hend.machine, Machine.after_append]
    rfl
  · rw [hend.machine, Machine.after_append]
    exact hsteps
  · rw [(hbegin.trans hend).calls, List.filter_append, List.filter_append, List.filter_append,
      hfilter]
    exact List.append_nil _
  · have hbeside := hstart.axes_beside hsound hcycle hid
    rw [hend.machine, Machine.after_append]
    unfold Simulator.motor?
    exact congrArg (·.bind (·.motor? id.side)) hbeside

/-- A gantry whose second switch is half a millimetre further out than the first one, with
ticks as long as its slow approach allows. It moves five times, as its pull-offs differ. -/
theorem home_of_fresh_gantry :
    gantry.validate = .ok () ∧ ∃ budget t,
      home budget gantry (.axes (.single 0)) (fresh gantry 200 0 (1 / 2)) = some (.ok (), t) ∧
        Machine.state t.machine = .idle ∧ Machine.steps t.machine 0 = 0 ∧
        (∃ moves, moves.length = 5 ∧ t.calls.filter Call.isMoveOrDwell = settledMoves 250 moves) ∧
        ∀ id, id.axis ≠ 0 → t.machine.motor? id = (fresh gantry 200 0 (1 / 2)).motor? id := by
  have hm : gantry.validate = .ok () := MachineSettings.validate_eq_ok_iff.2 (by decide +kernel)
  have hall : ∀ mo ∈ gantry.axes[0].motors, mo.limitSwitch = true := by decide +kernel
  have hms : (0 : ℚ) < 200 := by norm_num
  have hreach : ∀ side, (gantry.axes[0].motor? side).isSome = true →
      0 < gantry.axes[0].reach (1 / 2) side ∧
        Bounded gantry.axes[0] (gantry.axes[0].homing.get rfl) 200
          (gantry.axes[0].reach (1 / 2) side) := by
    rintro (_ | _) - <;> decide +kernel
  obtain ⟨budget, t, h, hidle, hsteps, ⟨moves, hlength, hmoves⟩, hbeside⟩ :=
    home_of_fresh (n := 0) hm rfl rfl hall hms hreach
  refine ⟨hm, budget, t, h, hidle, hsteps.trans (by decide +kernel), ⟨moves, ?_, hmoves⟩, hbeside⟩
  exact hlength.trans (if_neg (by decide +kernel))

end Simulator

end Homing
