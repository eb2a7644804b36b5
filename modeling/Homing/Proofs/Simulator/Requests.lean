import Homing.Proofs.Exact.Scalar
import Homing.Proofs.Engine.CycleRun
import Homing.Proofs.Simulator.Squaring

/-!
# The motors of a machine after a request

A cycle that ends well squares its axes, and the reference positions that it gives
them put them onto a step (`drift_of_cycle`). Later cycles do not touch an axis on a
step, so at the end of a request every axis of every cycle still stands where its own
cycle left it.
-/

namespace Homing

variable {K : Type u} [Field K] [LinearOrder K] [FloorRing K] [SquareRoot K]

/-- The axes of the cycles that a request is for. -/
def Request.cycles (m : MachineSettings K) : Request → List AxisSet
  | .all => cycleNumbers.map m.axesInCycle
  | .axes set => [set ∩ m.homingAxes]

namespace Simulator

variable {m : MachineSettings K} {axes : AxisSet} {x y : Simulator K} {cs : List (Call K)}

/-- What the end of a cycle that went well does to a simulator. -/
theorem after_closing (haxes : ∀ n ∈ axes, n ∈ m.homingAxes) (y : Simulator K) :
    ∃ (l : List (SimAxis K)) (steps : Nat → Int), Machine.after (closing m axes (.ok ())) y =
        { y with axes := l }.exitHoming axes true ∧
      (∀ n : Nat, l[n]? =
        (y.axes[n]?).map fun b => if n ∈ axes then b.setSteps (steps n) else b) ∧
      ∀ n ∈ axes, ∃ a h, m.axes[n]? = some a ∧ a.homing = some h ∧
        steps n = a.stepsAt h.reference := by
  obtain ⟨steps, hsteps⟩ : ∃ steps : Nat → Int, ∀ n ∈ axes, ∃ a h, m.axes[n]? = some a ∧
      a.homing = some h ∧ steps n = a.stepsAt h.reference := by
    refine ⟨fun n => (((m.axes[n]?).bind fun a =>
      a.homing.map fun h => a.stepsAt h.reference).getD 0), fun n hn => ?_⟩
    obtain ⟨a, h, ha, hh⟩ := MachineSettings.exists_of_mem_homingAxes (haxes n hn)
    exact ⟨a, h, ha, hh, by simp [ha, hh]⟩
  have hcommit : committing m axes = axes.toList.map fun n => .setSteps n (steps n) := by
    refine List.filterMap_eq_map_iff_forall_eq_some.2 fun n hn => ?_
    obtain ⟨a, h, ha, hh, hs⟩ := hsteps n (AxisSet.mem_toList.1 hn)
    simp [ha, hh, hs]
  obtain ⟨l, hafter, hl⟩ := after_setSteps axes.toList steps y
  refine ⟨l, steps, ?_, fun n => ?_, hsteps⟩
  · rw [closing, hcommit, Machine.after_append, hafter]
    rfl
  · rw [hl]
    simp only [AxisSet.mem_toList]

variable [IsStrictOrderedRing K]

theorem drift_closing (hm : m.Sound) (hy : BuiltFrom m y)
    (haxes : ∀ n ∈ axes, n ∈ m.homingAxes) {n : Nat} (hn : n ∈ axes) :
    (Machine.after (closing m axes (.ok ())) y).drift n = 0 := by
  obtain ⟨a, h, ha, hh⟩ := MachineSettings.exists_of_mem_homingAxes (haxes n hn)
  obtain ⟨b, hb, hspm, hposition⟩ := exists_axis_closing hy hn ha hh
  rw [drift, hb]
  refine sub_eq_zero.2 (rest_of_position ?_ (h.reference * a.stepsPerMm) ?_)
  · exact (hy.after _).stepsPerMm_ne hm (AxisSet.lt_of_mem hn) hb
  · rw [hposition, AxisSettings.positionAt, hspm]
    rfl

/-! ## One cycle -/

omit [IsStrictOrderedRing K] in
theorem ready_enterHoming (hx : Ready m x) (axes : AxisSet) :
    Ready m (Machine.after [.enterHoming axes] x) := by
  refine ⟨hx.built.after _, ⟨?_, hx.rests.scheduled, hx.rests.cycleStop⟩, hx.wired⟩
  have hactive : (Machine.after [.enterHoming axes] x).active =
      x.active.map fun mv => { mv with overrides := ⟨∅⟩ } := rfl
  rw [hactive, hx.rests.active]
  rfl

/-- A cycle that ends well leaves the simulator ready for the next one. -/
theorem ready_of_cycle (hm : m.Sound) (hx : Ready m x) (haxes : ∀ n ∈ axes, n ∈ m.homingAxes)
    (h : CycleRun m axes x (.ok ()) cs) : Ready m (Machine.after cs x) := by
  cases h with
  | @intro phases hphases =>
      have hend := ready_of_phases hm (homes_homeable hx.built haxes) (ready_enterHoming hx axes)
        hphases
      rw [Machine.after_append, Machine.after_append]
      obtain ⟨l, steps, hafter, -, -⟩ := after_closing haxes
        (Machine.after phases (Machine.after [.enterHoming axes] x))
      have hbuilt := hend.built.after (closing m axes (.ok ()))
      rw [hafter] at hbuilt ⊢
      exact ⟨hbuilt, ⟨hend.rests.active, hend.rests.scheduled, hend.rests.cycleStop⟩, hend.wired⟩

/-- The axes of a cycle that ended well stand on a step. -/
theorem drift_of_cycle (hm : m.Sound) (hx : BuiltFrom m x) (haxes : ∀ n ∈ axes, n ∈ m.homingAxes)
    (h : CycleRun m axes x (.ok ()) cs) {n : Nat} (hn : n ∈ axes) :
    (Machine.after cs x).drift n = 0 := by
  cases h with
  | intro hphases =>
      rw [Machine.after_append]
      exact drift_closing hm (hx.after _) haxes hn

/-- After a cycle that ended well, each motor of a squared axis is off its switch by its
own pull-off, less at most one tick. -/
theorem offSwitch_of_cycle (hm : m.Sound) (hx : Ready m x) (haxes : ∀ n ∈ axes, n ∈ m.homingAxes)
    (h : CycleRun m axes x (.ok ()) cs) {n : Nat} (hn : n ∈ axes) {a : AxisSettings K}
    (ha : m.axes[n]? = some a) (hall : ∀ mo ∈ a.motors, mo.limitSwitch = true) {side : Side}
    {mo : MotorSettings K} (hmo : a.motor? side = some mo) :
    OffSwitch (Machine.after cs x) ⟨n, side⟩
      (mo.pulloff - tickTravel m (x.homeable axes) x.tickMs n) mo.pulloff := by
  obtain ⟨a', g, ha', hg⟩ := MachineSettings.exists_of_mem_homingAxes (haxes n hn)
  obtain rfl : a = a' := Option.some.inj (ha.symm.trans ha')
  have hmem : ∀ side, (a.motor? side).isSome = true → ⟨n, side⟩ ∈ x.homeable axes :=
    fun side => hx.built.mem_homeable_of_switch hn ha hg hall
  have hp : TakesPart m (x.homeable axes) n a g :=
    ⟨ha, hg, MotorSet.mem_axes_iff_exists.2 ⟨side, hmem side (by rw [hmo]; rfl)⟩⟩
  cases h with
  | @intro phases hphases =>
      rw [Machine.after_append, Machine.after_append]
      refine offSwitch_congr (motor?_after refill_not_mem_closing _ _) ?_
      exact offSwitch_of_phases hm (homes_homeable hx.built haxes) (ready_enterHoming hx axes)
        hphases hp hmem hmo

/-! ## Numbered cycles -/

theorem offSwitch_of_cycles (hm : m.Sound) {ks : List Nat} (hks : ks.Nodup) (hx : Ready m x)
    (h : NumberedRun m ks x (.ok ()) cs) {k n : Nat} (hk : k ∈ ks) (hn : n ∈ m.axesInCycle k)
    {a : AxisSettings K} (ha : m.axes[n]? = some a) (hall : ∀ mo ∈ a.motors, mo.limitSwitch = true)
    {side : Side} {mo : MotorSettings K} (hmo : a.motor? side = some mo) :
    OffSwitch (Machine.after cs x) ⟨n, side⟩
      (mo.pulloff - tickTravel m (x.homeable (m.axesInCycle k)) x.tickMs n) mo.pulloff := by
  generalize hr : Except.ok () = r at h
  induction h with
  | nil => cases hk
  | @cons j js x r cs ds _ hcycle hrest ih =>
      subst hr
      have haxes : ∀ i ∈ m.axesInCycle j, i ∈ m.homingAxes := fun _ => mem_homingAxes_of_cycle
      have hx' := ready_of_cycle hm hx haxes hcycle
      rw [List.nodup_cons] at hks
      rw [Machine.after_append]
      rcases List.mem_cons.1 hk with rfl | hk
      · have hoff := offSwitch_of_cycle hm hx haxes hcycle hn ha hall hmo
        have hstill := axes_of_cycles hx'.built hrest
          (fun i hi hni => hks.1 (cycle_unique hn hni ▸ hi))
          (onStep_iff_drift.2 (drift_of_cycle hm hx.built haxes hcycle hn))
        refine offSwitch_congr ?_ hoff
        unfold Simulator.motor?
        rw [hstill]
      · have hoff := ih hks.2 hx' hk rfl
        rw [(fixed_after cs x).1, hx'.built.homeable_eq hx.built] at hoff
        exact hoff
  | fail _ _ => cases hr

/-! ## Requests -/

theorem offSwitch_of_request (hm : m.Sound) (hx : BuiltFrom m x) (hrests : Rests x)
    {request : Request} (h : RequestRun m request x (.ok ()) cs) {S : AxisSet}
    (hS : S ∈ request.cycles m) {n : Nat} (hn : n ∈ S) {a : AxisSettings K}
    (ha : m.axes[n]? = some a) (hall : ∀ mo ∈ a.motors, mo.limitSwitch = true) {side : Side}
    {mo : MotorSettings K} (hmo : a.motor? side = some mo) :
    OffSwitch (Machine.after cs x) ⟨n, side⟩
      (mo.pulloff - tickTravel m (x.homeable S) x.tickMs n) mo.pulloff := by
  have hready (hlimits : (Machine.limits x).ambiguous = ∅) : Ready m x :=
    ⟨hx, hrests, miswired_of_ambiguous hlimits⟩
  generalize hr : Except.ok () = e at h
  cases h with
  | ambiguous _ => cases hr
  | nothing _ hnone =>
      rw [Request.cycles, List.mem_singleton] at hS
      rw [hS, hnone] at hn
      exact absurd hn (AxisSet.not_mem_empty n)
  | @cycle axes _ r _ hlimits _ hcycle =>
      rw [Request.cycles, List.mem_singleton] at hS
      subst hS
      cases r with
      | error f => cases hr
      | ok v =>
          exact offSwitch_of_cycle hm (hready hlimits) (fun i hi => (AxisSet.mem_inter.1 hi).2)
            hcycle hn ha hall hmo
  | @wildcard _ ks r _ _ _ hlimits _ hrun hend =>
      rw [Request.cycles, List.mem_map] at hS
      obtain ⟨k, hk, rfl⟩ := hS
      subst hr
      cases hend with
      | homed hks _ =>
          subst hks
          have hnodup : m.cycles.Nodup := (List.nodup_range' ..).filter _
          have hmem : k ∈ m.cycles := by
            refine List.mem_filter.2 ⟨hk, ?_⟩
            rw [Bool.not_eq_true', Bool.eq_false_iff]
            intro hempty
            rw [AxisSet.isEmpty_iff.1 hempty] at hn
            exact AxisSet.not_mem_empty n hn
          rw [List.append_nil]
          exact offSwitch_of_cycles hm hnodup (hready hlimits) hrun hmem hn ha hall hmo

/-- When homing ends well, each motor of each homed axis is off its own switch by its own
pull-off, less at most what its axis travels in one tick of the slow approach. -/
theorem offSwitch_of_home (hm : m.validate = .ok ()) (hx : BuiltFrom m x)
    (hactive : x.active = none) (hpending : x.pending.cycleStop = false)
    (hscheduled : ∀ e ∈ x.scheduled, e.2.cycleStop = false) {budget : Nat} {request : Request}
    {t : Session (Simulator K) K} (h : home budget m request x = some (.ok (), t)) :
    ∀ S ∈ request.cycles m, ∀ n ∈ S, ∀ a, m.axes[n]? = some a →
      (∀ mo ∈ a.motors, mo.limitSwitch = true) → ∀ side mo, a.motor? side = some mo →
        ∃ d, t.machine.distanceToSwitch? ⟨n, side⟩ = some d ∧
          mo.pulloff - tickTravel m (x.homeable S) x.tickMs n < d ∧ d ≤ mo.pulloff := by
  intro S hS n hn a ha hall side mo hmo
  obtain ⟨cs, hrun, hmakes⟩ := requestRun_of_home h
  have hrests : Rests (Machine.after [.setState .homing] x) := ⟨hactive, hscheduled, hpending⟩
  have hoff := offSwitch_of_request (MachineSettings.sound_of_validate hm) (hx.after _) hrests hrun
    hS hn ha hall hmo
  rw [hmakes.machine, Machine.after_append, Machine.after_append]
  exact hoff

/-- A gantry with pull-offs of its own for each motor, and an axis that homes after it. -/
def gantry : MachineSettings ℚ where
  logLevel := .info
  axes :=
    [{ name := "X", maxTravel := 8, stepsPerMm := 10,
       homing := some
         { HomingSettings.default with cycle := some 1, seekRate := 120, feedRate := 60 },
       motors := [⟨2, true⟩, ⟨3, true⟩] },
     { name := "Z", maxTravel := 4, stepsPerMm := 10,
       homing := some
         { HomingSettings.default with cycle := some 2, seekRate := 120, feedRate := 60 },
       motors := [⟨1, true⟩] }]

/-- The gantry with its second switch half a millimetre further out than the first one,
and a status report asked for on the way. -/
def skewedGantry : Simulator ℚ :=
  (((ofSettings gantry).withTickMs 1000).withSkew 0 (1 / 2)).withSignalAt 1 .status

theorem offSwitch_of_home_gantry :
    gantry.validate = .ok () ∧ BuiltFrom gantry skewedGantry ∧ skewedGantry.active = none ∧
      skewedGantry.pending.cycleStop = false ∧
      (∀ e ∈ skewedGantry.scheduled, e.2.cycleStop = false) ∧
      ∃ t, home 20 gantry .all skewedGantry = some (.ok (), t) ∧
        ∃ d, t.machine.distanceToSwitch? ⟨0, .secondary⟩ = some d ∧ 3 - 1 < d ∧ d ≤ 3 := by
  have hm : gantry.validate = .ok () := MachineSettings.validate_eq_ok_iff.2 (by decide +kernel)
  have hactive : skewedGantry.active = none := by decide +kernel
  have hpending : skewedGantry.pending.cycleStop = false := by decide +kernel
  have hscheduled : ∀ e ∈ skewedGantry.scheduled, e.2.cycleStop = false := by decide +kernel
  have hsetUp : SetUp gantry skewedGantry :=
    .signalAt 1 .status (.skew 0 (1 / 2) (.tickMs 1000 .settings))
  have hbuilt := builtFrom_of_setUp (by decide +kernel) hsetUp
  have htravel : tickTravel gantry (skewedGantry.homeable (gantry.axesInCycle 1))
      skewedGantry.tickMs 0 = 1 := by decide +kernel
  have hrun : (home 20 gantry .all skewedGantry).map (·.1) = some (.ok ()) := by decide +kernel
  obtain ⟨⟨e, t⟩, h, he⟩ := Option.map_eq_some_iff.1 hrun
  cases he
  obtain ⟨d, hd, hlow, hhigh⟩ := offSwitch_of_home hm hbuilt hactive hpending hscheduled h
    (gantry.axesInCycle 1) (List.mem_map.2 ⟨1, by decide, rfl⟩) 0 (by decide +kernel) _ rfl
    (by decide +kernel) .secondary _ rfl
  rw [htravel] at hlow
  exact ⟨hm, hbuilt, hactive, hpending, hscheduled, t, h, d, hd, hlow, hhigh⟩

end Simulator

end Homing
