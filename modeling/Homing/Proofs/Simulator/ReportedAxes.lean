import Homing.Proofs.Engine.Counters
import Homing.Proofs.Engine.HomedAxes
import Homing.Proofs.Simulator.Requests

/-!
# What is reported of a simulated machine

After a request that ended well the program reports the axes that the request has homed
and where they are. A cycle puts its axes onto the steps of their reference positions, and
the cycles after it leave an axis on a step where it is (`axes_of_cycles`). So each axis is
reported where its own cycle has put it, in every arithmetic in which the reference
positions are converted exactly (`CommandLine.reported_of_exact`). Over an ordered field
they always are (`CommandLine.reported_of_home`).
-/

namespace Homing

open CommandLine

section

variable {α : Type u} [Scalar α]

/-- The reference position of an axis is converted exactly: the step count of the position
of its step is this step, and the position differs from itself by nothing. -/
structure AxisSettings.ExactReference (a : AxisSettings α) (h : HomingSettings α) : Prop where
  steps : a.stepsAt (a.positionAt (a.stepsAt h.reference)) = a.stepsAt h.reference
  self : Scalar.eq (a.positionAt (a.stepsAt h.reference) - a.positionAt (a.stepsAt h.reference))
    0.0 = true

/-- The reference positions of a machine are converted exactly. -/
def MachineSettings.ExactReferences (m : MachineSettings α) : Prop :=
  ∀ a ∈ m.axes, ∀ h, a.homing = some h → a.ExactReference h

end

theorem MachineSettings.exactReferences_of_validate {K : Type u} [Field K] [LinearOrder K]
    [FloorRing K] [SquareRoot K] [IsStrictOrderedRing K] {m : MachineSettings K}
    (hm : m.validate = .ok ()) : m.ExactReferences := by
  intro a ha h _
  have hspm : a.stepsPerMm ≠ 0 := ((sound_of_validate hm).axis a ha).stepsPerMm.ne'
  constructor
  · have hback : a.positionAt (a.stepsAt h.reference) * a.stepsPerMm =
        Scalar.ofInt (Scalar.round (h.reference * a.stepsPerMm)) := div_mul_cancel₀ _ hspm
    rw [AxisSettings.stepsAt, hback]
    exact Scalar.round_ofInt_round _
  · simp

namespace Simulator

variable {α : Type u} [Scalar α] {m : MachineSettings α} {axes : AxisSet} {request : Request}
  {x : Simulator α} {cs : List (Call α)} {n : Nat}

/-- A cycle that ends well leaves each of its axes on the step of its reference position. -/
theorem atReference_of_cycle (hm : m.ExactReferences) (hx : BuiltFrom m x)
    (haxes : ∀ n ∈ axes, n ∈ m.homingAxes) (h : CycleRun m axes x (.ok ()) cs) (hn : n ∈ axes) :
    AtReference m (Machine.after cs x) n ∧ OnStep (Machine.after cs x) n := by
  obtain ⟨a, g, ha, hg⟩ := MachineSettings.exists_of_mem_homingAxes (haxes n hn)
  have hexact := hm a (List.mem_of_getElem? ha) g hg
  cases h with
  | intro _ =>
      rw [Machine.after_append]
      obtain ⟨b, hb, hspm, hposition⟩ := exists_axis_closing (hx.after _) hn ha hg
      have hsteps : b.steps = a.stepsAt g.reference := by
        rw [SimAxis.steps, hposition, hspm]
        exact hexact.steps
      constructor
      · refine ⟨a, g, ha, hg, ?_⟩
        show Simulator.steps _ n = _
        rw [Simulator.steps, hb]
        exact hsteps
      · intro c hc
        obtain rfl : b = c := Option.some.inj (hb.symm.trans hc)
        rw [SimAxis.OnStep, hsteps, hspm, hposition]
        exact hexact.self

/-- An axis keeps the reference position of its cycle: it is in no later one, and stands on
a step. -/
theorem atReference_of_cycles {ks : List Nat} (hm : m.ExactReferences) (hx : BuiltFrom m x)
    (h : NumberedRun m ks x (.ok ()) cs) (hks : ks.Nodup) {k : Nat} (hk : k ∈ ks)
    (hn : n ∈ m.axesInCycle k) : AtReference m (Machine.after cs x) n := by
  generalize hr : Except.ok () = r at h
  induction h with
  | nil => cases hk
  | @cons j ks x r cs ds _ hcycle hrest ih =>
      subst hr
      rw [List.nodup_cons] at hks
      rw [Machine.after_append]
      rcases List.mem_cons.1 hk with rfl | hk
      · obtain ⟨hreference, hstep⟩ :=
          atReference_of_cycle hm hx (fun _ => mem_homingAxes_of_cycle) hcycle hn
        have hstill := axes_of_cycles (hx.after cs) hrest
          (fun i hi hni => hks.1 (cycle_unique hn hni ▸ hi)) hstep
        refine hreference.of_steps_eq ?_
        show Simulator.steps _ n = Simulator.steps _ n
        rw [Simulator.steps, Simulator.steps, hstill]
      · exact ih (hx.after cs) hks.2 hk rfl
  | fail _ _ => cases hr

theorem atReference_of_request (hm : m.ExactReferences) (hx : BuiltFrom m x)
    (h : HomedRun m request x cs) (hn : n ∈ homedAxes m request) :
    AtReference m (Machine.after cs x) n := by
  cases h with
  | nothing hnone =>
      rw [homedAxes, hnone] at hn
      exact absurd hn (AxisSet.not_mem_empty n)
  | cycle hcycle =>
      exact (atReference_of_cycle hm hx (fun i hi => (AxisSet.mem_inter.1 hi).2) hcycle hn).1
  | wildcard hrun =>
      obtain ⟨k, hk, hn⟩ := mem_homedAxes_all.1 hn
      exact atReference_of_cycles hm hx hrun ((cycles_ascending m).imp Nat.ne_of_lt) hk hn

end Simulator

namespace CommandLine

section

variable {α : Type u} [Scalar α] {m : MachineSettings α} {request : Request} {s : Simulator α}

/-- Every axis that is taken to be homed is reported, in ascending order. -/
theorem axes_axisReports (m : MachineSettings α) (request : Request) (s : Simulator α) :
    (axisReports m request s).map (·.axis) = (homedAxes m request).toList := by
  have hreport : ∀ n ∈ (homedAxes m request).toList,
      (axisReport m s n).map (·.axis) = some n := by
    intro n hn
    obtain ⟨a, h, ha, -⟩ := MachineSettings.exists_of_mem_homingAxes
      (mem_homingAxes_of_homedAxes (AxisSet.mem_toList.1 hn))
    rw [axisReport, ha]
    rfl
  rw [axisReports, List.map_filterMap, List.filterMap_congr hreport, List.filterMap_some]

/-- An axis is reported at the position of its step counter. -/
theorem position_of_mem_axisReports {r : AxisReport α} (hr : r ∈ axisReports m request s) :
    r.axis ∈ homedAxes m request ∧
      ∃ a, m.axes[r.axis]? = some a ∧ r.position = a.positionAt (s.steps r.axis) := by
  obtain ⟨n, hn, hr⟩ := List.mem_filterMap.1 hr
  obtain ⟨a, ha, rfl⟩ := Option.map_eq_some_iff.1 hr
  exact ⟨AxisSet.mem_toList.1 hn, a, ha, rfl⟩

/-- The simulator of the program is one that can be set up. -/
theorem setUp_simulatorOf (m : MachineSettings α) (tickMs skew : α) :
    Simulator.SetUp m (simulatorOf m tickMs skew) := by
  have hskewed (axes : List (AxisSettings α × Nat)) {s : Simulator α} (hs : Simulator.SetUp m s) :
      Simulator.SetUp m (axes.foldl
        (fun s e => if e.1.isSquared then s.withSkew e.2 skew else s) s) := by
    induction axes generalizing s with
    | nil => exact hs
    | cons e axes ih =>
        rw [List.foldl_cons]
        refine ih ?_
        split
        · exact .skew e.2 skew hs
        · exact hs
  unfold simulatorOf
  dsimp only
  split
  · exact .tickMs tickMs .settings
  · exact hskewed _ (.tickMs tickMs .settings)

/-- Where the reference positions are converted exactly, the axes that are reported as homed
are those that left homing mode as homed, and each is reported at the position of the step
count that its own cycle has given it. -/
theorem reported_of_exact {budget : Nat} {x : Simulator α} {t : Session (Simulator α) α}
    (hm : m.ExactReferences) (hx : Simulator.BuiltFrom m x)
    (h : home budget m request x = some (.ok (), t)) :
    (axisReports m request t.machine).map (·.axis) = (homedIn t.calls).toList ∧
      ∀ r ∈ axisReports m request t.machine, ∃ S k a, CommittedBy t.calls r.axis S k ∧
        m.axes[r.axis]? = some a ∧ r.position = a.positionAt k := by
  obtain ⟨cs, hrun, hmakes⟩ := requestRun_of_home h
  have hcalls : t.calls = [.setState .homing] ++ cs ++ concluding (.ok ()) := hmakes.calls
  constructor
  · have hhomed : homedIn t.calls = homedIn cs := by
      unfold homedIn
      rw [hcalls, exits_around]
    rw [axes_axisReports, hrun.homedRun.homedAxes_eq, hhomed]
  · intro r hr
    obtain ⟨hn, a, ha, hposition⟩ := position_of_mem_axisReports hr
    obtain ⟨a', g, ha', hg, hsteps⟩ := Simulator.atReference_of_request hm
      (hx.after [.setState .homing]) hrun.homedRun hn
    obtain rfl : a = a' := Option.some.inj (ha.symm.trans ha')
    obtain ⟨S, hcommitted⟩ := hrun.committedBy hn ha hg
    refine ⟨S, a.stepsAt g.reference, a, ?_, ha, ?_⟩
    · rw [hcalls]
      exact hcommitted.append rfl rfl
    · have hlast : t.machine.steps r.axis = a.stepsAt g.reference := by
        rw [hmakes.machine, Machine.after_append, Machine.after_append]
        exact hsteps
      rw [hposition, hlast]

end

/-- When homing ends well, the axes that are reported as homed are those that left homing
mode as homed, and each is reported at the position of the step count that its own cycle
has given it. -/
theorem reported_of_home {K : Type u} [Field K] [LinearOrder K] [FloorRing K] [SquareRoot K]
    [IsStrictOrderedRing K] {budget : Nat} {m : MachineSettings K} {request : Request}
    {x : Simulator K} {t : Session (Simulator K) K} (hm : m.validate = .ok ())
    (hx : Simulator.SetUp m x) (h : home budget m request x = some (.ok (), t)) :
    (axisReports m request t.machine).map (·.axis) = (homedIn t.calls).toList ∧
      ∀ r ∈ axisReports m request t.machine, ∃ S k a, CommittedBy t.calls r.axis S k ∧
        m.axes[r.axis]? = some a ∧ r.position = a.positionAt k := by
  have hbuilt := Simulator.builtFrom_of_setUp (by simp [Simulator.defaultTickMs]) hx
  exact reported_of_exact (MachineSettings.exactReferences_of_validate hm) hbuilt h

/-- A gantry and an axis that homes after it, with reference positions of their own, of
which the first is between two steps. -/
def offsetGantry : MachineSettings ℚ where
  logLevel := .info
  axes := List.zipWith (fun a reference =>
    { a with homing := a.homing.map fun h => { h with reference } })
    Simulator.gantry.axes [1 / 3, -7]

theorem reported_of_home_offsetGantry :
    offsetGantry.validate = .ok () ∧
      Simulator.SetUp offsetGantry (simulatorOf offsetGantry 1000 (1 / 2)) ∧
      ∃ t, home 20 offsetGantry .all (simulatorOf offsetGantry 1000 (1 / 2)) =
          some (.ok (), t) ∧
        (axisReports offsetGantry .all t.machine).map (·.axis) = [0, 1] ∧
        [0, 1] = (homedIn t.calls).toList ∧
        ∀ r ∈ axisReports offsetGantry .all t.machine, ∃ S k a, CommittedBy t.calls r.axis S k ∧
          offsetGantry.axes[r.axis]? = some a ∧ r.position = a.positionAt k := by
  have hm : offsetGantry.validate = .ok () :=
    MachineSettings.validate_eq_ok_iff.2 (by decide +kernel)
  have hsetUp := setUp_simulatorOf offsetGantry 1000 (1 / 2)
  have hrun : (home 20 offsetGantry .all (simulatorOf offsetGantry 1000 (1 / 2))).map (·.1) =
      some (.ok ()) := by decide +kernel
  obtain ⟨⟨e, t⟩, h, rfl⟩ := Option.map_eq_some_iff.1 hrun
  obtain ⟨haxes, hpositions⟩ := reported_of_home hm hsetUp h
  have hreported : (axisReports offsetGantry .all t.machine).map (·.axis) = [0, 1] := by
    rw [axes_axisReports]
    decide +kernel
  exact ⟨hm, hsetUp, t, h, hreported, hreported.symm.trans haxes, hpositions⟩

end CommandLine

end Homing
