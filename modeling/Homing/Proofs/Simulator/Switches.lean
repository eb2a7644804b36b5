import Homing.Proofs.Simulator.Requests

/-!
# The switches at the end of each phase

The loop of a phase looks at the switches while it runs, and what it has seen of a motor
it does not look at again. `limits_of_run` says what is true of all of its motors
together once the phase has ended well: after an approach each of them is at its limit,
and after any other phase none is, also where the first pull-off had nothing to do. A
cycle that ended well has therefore had its motors on their switches twice, and has left
them off.
-/

namespace Homing

variable {α : Type u} [Scalar α]

namespace Simulator

/-- The calls of a cycle of axes from `x`: each motor that takes part is at its limit at
the end of the fast approach and at the end of the slow one, and not at the end of the
cycle. -/
def FoundTwice (m : MachineSettings α) (axes : AxisSet) (x : Simulator α) (cs : List (Call α)) :
    Prop :=
  ∃ fast slow rest, cs = .enterHoming axes :: fast ++ slow ++ rest ∧
    PhasesRun m (x.homeable axes) [.prePulloff, .fastApproach]
      (Machine.after [.enterHoming axes] x) (.ok ()) fast ∧
    PhasesRun m (x.homeable axes) [.pulloff0, .slowApproach]
      (Machine.after (.enterHoming axes :: fast) x) (.ok ()) slow ∧
    ∀ id ∈ x.homeable axes,
      id ∈ (Machine.limits (Machine.after (.enterHoming axes :: fast) x)).active ∧
      id ∈ (Machine.limits (Machine.after (.enterHoming axes :: fast ++ slow) x)).active ∧
      id ∉ (Machine.limits (Machine.after cs x)).active

variable {m : MachineSettings α}

/-- The phases of a cycle come to an end with a pull-off. -/
theorem exists_phasePlan_eq (m : MachineSettings α) (motors : MotorSet) :
    ∃ rest last, phasePlan m motors =
      ([.prePulloff] ++ [.fastApproach]) ++ (([.pulloff0] ++ [.slowApproach]) ++ (rest ++ [last])) ∧
        last.isApproach = false := by
  rw [phasePlan_eq]
  cases needsSquaring m motors with
  | false => exact ⟨[], .pulloff1, rfl, rfl⟩
  | true => exact ⟨[.pulloff1], .pulloff2, rfl, rfl⟩

theorem foundTwice_of_cycleRun {axes : AxisSet} {x : Simulator α} {cs : List (Call α)}
    (h : CycleRun m axes x (.ok ()) cs) : FoundTwice m axes x cs := by
  cases h with
  | @intro phases hphases =>
      have hmotors : Machine.homeable x axes = x.homeable axes := rfl
      rw [hmotors] at hphases
      obtain ⟨plan, last, hplan, hpull⟩ := exists_phasePlan_eq m (x.homeable axes)
      rw [hplan] at hphases
      obtain ⟨fast, tail, rfl, hfast, htail⟩ := hphases.split
      obtain ⟨slow, back, rfl, hslow, hback⟩ := htail.split
      have hstart : Machine.after fast (Machine.after [.enterHoming axes] x) =
          Machine.after (.enterHoming axes :: fast) x := rfl
      rw [hstart] at hslow hback
      refine ⟨fast, slow, back ++ closing m axes (.ok ()), by simp, hfast, hslow, fun id hid => ?_⟩
      have hon := hfast.mem_active_iff hid
      have hagain := hslow.mem_active_iff hid
      have hoff := hback.mem_active_iff hid
      simp only [← Machine.after_append, List.singleton_append] at hon hagain hoff
      refine ⟨hon.2 rfl, hagain.2 rfl, fun hend => ?_⟩
      rw [Machine.after_append, active_limits_after refill_not_mem_closing] at hend
      have happroach := hoff.1 (by simpa using hend)
      rw [hpull] at happroach
      cases happroach

/-- A phase that ends well leaves all its motors at their limits if it is an approach and
none of them if it is not. So a cycle that ends well has its motors on their switches at
the end of both approaches, and none at the end. -/
theorem limits_of_run (m : MachineSettings α) :
    (∀ budget motors phase (s t : Session (Simulator α) α),
      runPhase budget m motors phase s = some (.ok (), t) →
        ∀ id ∈ motors, id ∈ (Machine.limits t.machine).active ↔ phase.isApproach = true) ∧
    ∀ budget axes (s t : Session (Simulator α) α), runCycle budget m axes s = some (.ok (), t) →
      (axes ∩ m.homingAxes = ∅ ∧ t = s) ∨
      ∃ cs, t.calls = s.calls ++ cs ∧ t.machine = Machine.after cs s.machine ∧
        FoundTwice m (axes ∩ m.homingAxes) s.machine cs := by
  constructor
  · intro budget motors phase s t h id hid
    obtain ⟨cs, hrun, hmakes⟩ := phaseRun_of_runPhase h
    rw [hmakes.machine]
    exact hrun.mem_active_iff hid
  · intro budget axes s t h
    obtain ⟨hnone, -, rfl⟩ | ⟨-, cs, hrun, hmakes⟩ := cycleRun_of_runCycle h
    · exact .inl ⟨hnone, rfl⟩
    · exact .inr ⟨cs, hmakes.calls, hmakes.machine, foundTwice_of_cycleRun hrun⟩

/-- The motors of a gantry whose switches are out of line after a fast approach, and after
a whole cycle. -/
theorem limits_of_run_gantry :
    (∃ t, runPhase 20 gantry (.ofAxesBothSides (.single 0)) .fastApproach
        (Session.begin skewedGantry) = some (.ok (), t) ∧
      ⟨0, .primary⟩ ∈ (Machine.limits t.machine).active ∧
      ⟨0, .secondary⟩ ∈ (Machine.limits t.machine).active) ∧
    ∃ t, runCycle 20 gantry (.single 0) (Session.begin skewedGantry) = some (.ok (), t) ∧
      ∃ cs, t.calls = [] ++ cs ∧ t.machine = Machine.after cs skewedGantry ∧
        FoundTwice gantry (.single 0 ∩ gantry.homingAxes) skewedGantry cs := by
  have hphase : (runPhase 20 gantry (.ofAxesBothSides (.single 0)) .fastApproach
      (Session.begin skewedGantry)).map (·.1) = some (.ok ()) := by decide +kernel
  have hcycle : (runCycle 20 gantry (.single 0) (Session.begin skewedGantry)).map (·.1) =
      some (.ok ()) := by decide +kernel
  obtain ⟨⟨r, t⟩, h, hr⟩ := Option.map_eq_some_iff.1 hphase
  obtain ⟨⟨r', t'⟩, h', hr'⟩ := Option.map_eq_some_iff.1 hcycle
  cases hr
  cases hr'
  have hon := (limits_of_run gantry).1 _ _ _ _ t h
  obtain ⟨hnone, -⟩ | hfound := (limits_of_run gantry).2 _ _ _ t' h'
  · exact absurd hnone (by decide +kernel)
  · exact ⟨⟨t, h, (hon _ (by decide)).2 rfl, (hon _ (by decide)).2 rfl⟩, t', h', hfound⟩

end Simulator

end Homing
