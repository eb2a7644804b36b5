import Homing.Proofs.Engine.CycleRun
import Homing.Scripted

/-!
# Committed axes and reported switches

A cycle that ends well gives every axis that it was asked for its reference position.
The phases, on the other hand, only know the motors that the machine returned for
these axes. `axisFound_iff` relates the two: an axis that is committed was
found on a switch in both approaches exactly when a motor of it was returned, and
each returned motor was found. An axis without a returned motor, such as one without
a limit switch, is committed all the same and was never moved.
-/

namespace Homing

variable {σ : Type u} {α : Type v} [Machine σ α]

/-- A motor stood on its switch at some moment of the loop of a phase. -/
def SeenIn [Scalar α] (m : MachineSettings α) (motors : MotorSet) (phase : Phase) (x : σ)
    (cs : List (Call α)) (id : Motor) : Prop :=
  ∃ mv loop rest, cs = starting (planMove m motors phase) mv ++ loop ++ rest ∧
    id ∈ (Machine.limits (Machine.after (starting (planMove m motors phase) mv ++ loop) x)).active

/-- A motor stood on its switch in both approaches of a cycle of axes, whose calls up
to the last move are `cs`. -/
inductive ReportedTwice [Scalar α] (m : MachineSettings α) (axes : AxisSet) (x : σ) :
    List (Call α) → Motor → Prop
  | intro {id : Motor} {pre fast off slow rest : List (Call α)}
      (hfast : PhaseRun m (Machine.homeable x axes) .fastApproach
        (Machine.after (.enterHoming axes :: pre) x) (.ok ()) fast)
      (hseenFast : SeenIn m (Machine.homeable x axes) .fastApproach
        (Machine.after (.enterHoming axes :: pre) x) fast id)
      (hslow : PhaseRun m (Machine.homeable x axes) .slowApproach
        (Machine.after (.enterHoming axes :: pre ++ fast ++ off) x) (.ok ()) slow)
      (hseenSlow : SeenIn m (Machine.homeable x axes) .slowApproach
        (Machine.after (.enterHoming axes :: pre ++ fast ++ off) x) slow id) :
      ReportedTwice m axes x (.enterHoming axes :: pre ++ fast ++ off ++ slow ++ rest) id

/-- An axis of a cycle was found: a motor of it, among those that the machine returned
for the cycle, stood on its switch in both approaches. -/
def AxisFound [Scalar α] (m : MachineSettings α) (axes : AxisSet) (x : σ) (cs : List (Call α))
    (n : Nat) : Prop :=
  ∃ id ∈ Machine.homeable x axes, id.axis = n ∧ ReportedTwice m axes x cs id

variable [Scalar α] {m : MachineSettings α} {motors : MotorSet}

theorem PhaseRun.seenIn {phase : Phase} {x : σ} {cs : List (Call α)}
    (h : PhaseRun m motors phase x (.ok ()) cs) (happroach : phase.isApproach = true) {id : Motor}
    (hid : id ∈ motors) : SeenIn m motors phase x cs id := by
  cases h with
  | idle hempty =>
      rw [hempty] at hid
      exact absurd hid (MotorSet.not_mem_empty id)
  | skipped _ hphase =>
      rw [hphase] at happroach
      cases happroach
  | @moved mv _ cs _ _ _ hloop =>
      rw [happroach] at hloop
      obtain ⟨loop, rest, hcs, hseen⟩ := hloop.exists_seen hid
      refine ⟨mv, loop, rest ++ settling (planMove m motors phase).settle (.ok ()), ?_, ?_⟩
      · rw [hcs]
        simp only [List.append_assoc]
      · rw [Machine.after_append]
        exact hseen

/-- Each motor that a machine returned for a cycle that ends well was found twice. -/
theorem reportedTwice_of_phasesRun {axes : AxisSet} {x : σ} {cs : List (Call α)}
    (h : PhasesRun m (Machine.homeable x axes) (phasePlan m (Machine.homeable x axes))
      (Machine.after [.enterHoming axes] x) (.ok ()) cs) {id : Motor}
    (hid : id ∈ Machine.homeable x axes) : ReportedTwice m axes x (.enterHoming axes :: cs) id := by
  rw [phasePlan_eq] at h
  cases h with
  | @cons _ _ _ _ pre _ _ h =>
  cases h with
  | @cons _ _ _ _ fast _ hfast h =>
  cases h with
  | @cons _ _ _ _ off _ _ h =>
  cases h with
  | @cons _ _ _ _ slow last hslow _ =>
  simp only [← Machine.after_append] at hfast hslow
  have hcalls : .enterHoming axes :: (pre ++ (fast ++ (off ++ (slow ++ last)))) =
      .enterHoming axes :: pre ++ fast ++ off ++ slow ++ last := by
    simp only [List.cons_append, List.append_assoc]
  rw [hcalls]
  have hslow' : PhaseRun m (Machine.homeable x axes) .slowApproach
      (Machine.after (.enterHoming axes :: pre ++ fast ++ off) x) (.ok ()) slow := by
    simpa only [List.cons_append, List.nil_append, List.append_assoc] using hslow
  exact .intro hfast (hfast.seenIn rfl hid) hslow' (hslow'.seenIn rfl hid)

/-- Only a cycle that ends well sets step counters at its end, and only those of its
axes. -/
theorem mem_of_setSteps_mem_closing {axes : AxisSet} {r : Except Failure Unit} {n : Nat}
    {steps : Int} (h : .setSteps n steps ∈ closing m axes r) : r = .ok () ∧ n ∈ axes := by
  cases r with
  | error f => simp [closing] at h
  | ok v =>
      rw [closing, List.mem_append] at h
      rcases h with h | h
      · obtain ⟨k, a, g, hk, -, -, hc⟩ := mem_committing.1 h
        obtain ⟨rfl, -⟩ := Call.setSteps.inj hc
        exact ⟨rfl, hk⟩
      · simp at h

/-- A cycle that ends well finds an axis exactly when the machine returned a motor of
it. -/
theorem axisFound_iff {axes : AxisSet} {x : σ} {moves : List (Call α)}
    (h : PhasesRun m (Machine.homeable x axes) (phasePlan m (Machine.homeable x axes))
      (Machine.after [.enterHoming axes] x) (.ok ()) moves) (n : Nat) :
    AxisFound m axes x (.enterHoming axes :: moves) n ↔ n ∈ (Machine.homeable x axes).axes := by
  constructor
  · rintro ⟨id, hid, rfl, -⟩
    exact MotorSet.mem_axes_iff_exists.2 ⟨id.side, hid⟩
  · intro haxis
    obtain ⟨side, hid⟩ := MotorSet.mem_axes_iff_exists.1 haxis
    exact ⟨_, hid, rfl, reportedTwice_of_phasesRun h hid⟩

/-- A cycle gives its axes their reference positions when it ends well, and none of
them when it fails. An axis that was given its position was found on a switch in both
approaches exactly when the machine returned a motor of it. -/
theorem found_iff_of_runCycle {budget : Nat} {axes : AxisSet} {s t : Session σ α}
    {r : Except Failure Unit} (h : runCycle budget m axes s = some (r, t)) :
    (axes ∩ m.homingAxes = ∅ ∧ t.calls = s.calls) ∨
    ∃ moves, t.calls = s.calls ++ (.enterHoming (axes ∩ m.homingAxes) :: moves ++
        closing m (axes ∩ m.homingAxes) r) ∧
      (∀ n steps, .setSteps n steps ∈ closing m (axes ∩ m.homingAxes) r →
        r = .ok () ∧ n ∈ axes ∩ m.homingAxes ∧
        (AxisFound m (axes ∩ m.homingAxes) s.machine
            (.enterHoming (axes ∩ m.homingAxes) :: moves) n ↔
          n ∈ (Machine.homeable s.machine (axes ∩ m.homingAxes)).axes)) ∧
      (r = .ok () → ∀ n ∈ axes ∩ m.homingAxes,
        ∃ steps, .setSteps n steps ∈ closing m (axes ∩ m.homingAxes) r) := by
  obtain ⟨hnone, -, rfl⟩ | ⟨-, cs, hrun, hmakes⟩ := cycleRun_of_runCycle h
  · exact .inl ⟨hnone, rfl⟩
  refine .inr ?_
  have hhomes : ∀ n ∈ axes ∩ m.homingAxes, n ∈ m.homingAxes :=
    fun n hn => (AxisSet.mem_inter.1 hn).2
  generalize axes ∩ m.homingAxes = S at hrun hhomes ⊢
  cases hrun with
  | @intro moves hphases =>
      refine ⟨moves, hmakes.calls, ?_, ?_⟩
      · intro n steps hmem
        obtain ⟨rfl, hn⟩ := mem_of_setSteps_mem_closing hmem
        exact ⟨rfl, hn, axisFound_iff hphases n⟩
      · rintro rfl n hn
        obtain ⟨a, g, ha, hg⟩ := MachineSettings.exists_of_mem_homingAxes (hhomes n hn)
        refine ⟨a.stepsAt g.reference, List.mem_append_left _ ?_⟩
        exact mem_committing.2 ⟨n, a, g, hn, ha, hg, rfl⟩

/-- Two axes that home in one cycle. -/
def twoAxes : MachineSettings Float where
  logLevel := .info
  axes :=
    [{ name := "X", maxTravel := 100.0, stepsPerMm := 80.0, homing := some .default,
       motors := [.default] },
     { name := "Y", maxTravel := 100.0, stepsPerMm := 80.0, homing := some .default,
       motors := [⟨1.0, false⟩] }]

/-- A machine that returns the motor of axis 0 alone and finds its switch twice. -/
def Scripted.oneSwitch : Scripted Float where
  script :=
    let x := MotorSet.ofAxes (.single 0) .primary
    { positive := [(1, x), (3, ∅), (5, x), (7, ∅)], signals := [(4, .stop), (8, .stop)],
      homeable := some x }
  refills := 0
  state := .idle
  pending := ∅
  steps := [7, 9]

theorem found_iff_oneSwitch :
    ∃ t, runCycle 2 twoAxes (.first 2) (Session.begin Scripted.oneSwitch) = some (.ok (), t) ∧
      ∃ moves, t.calls = [] ++ (.enterHoming (.first 2 ∩ twoAxes.homingAxes) :: moves ++
          closing twoAxes (.first 2 ∩ twoAxes.homingAxes) (.ok ())) ∧
        AxisFound twoAxes (.first 2 ∩ twoAxes.homingAxes) Scripted.oneSwitch
          (.enterHoming (.first 2 ∩ twoAxes.homingAxes) :: moves) 0 := by
  have hrun : (runCycle 2 twoAxes (.first 2) (Session.begin Scripted.oneSwitch)).map (·.1) =
      some (.ok ()) := rfl
  obtain ⟨⟨r, t⟩, h, hr⟩ := Option.map_eq_some_iff.1 hrun
  cases hr
  obtain ⟨hnone, -⟩ | ⟨moves, hcalls, hiff, hall⟩ := found_iff_of_runCycle h
  · exact absurd hnone (by decide)
  obtain ⟨steps, hmem⟩ := hall rfl 0 (by decide)
  exact ⟨t, h, moves, hcalls, (hiff 0 steps hmem).2.2.2 (by decide)⟩

/-- Axis 1 is committed with the other one, though no motor of it was ever moved. -/
theorem not_found_oneSwitch :
    ∃ t, runCycle 2 twoAxes (.first 2) (Session.begin Scripted.oneSwitch) = some (.ok (), t) ∧
      closing twoAxes (.first 2) (.ok ()) <:+ t.calls ∧
      (∃ steps, .setSteps 1 steps ∈ closing twoAxes (.first 2) (.ok ())) ∧
      1 ∉ (Machine.homeable Scripted.oneSwitch (.first 2)).axes ∧
      ∀ cs, ¬ AxisFound twoAxes (.first 2) Scripted.oneSwitch cs 1 := by
  have hrun : (runCycle 2 twoAxes (.first 2) (Session.begin Scripted.oneSwitch)).map (·.1) =
      some (.ok ()) := rfl
  obtain ⟨⟨r, t⟩, h, hr⟩ := Option.map_eq_some_iff.1 hrun
  cases hr
  have hset : .first 2 ∩ twoAxes.homingAxes = AxisSet.first 2 := by decide
  have hcommit : ∃ steps, .setSteps 1 steps ∈ committing twoAxes (.first 2) :=
    ⟨_, mem_committing.2 ⟨1, _, _, by decide, rfl, rfl, rfl⟩⟩
  obtain ⟨steps, hmem⟩ := hcommit
  refine ⟨t, h, ?_, ⟨steps, List.mem_append_left _ hmem⟩, by decide, ?_⟩
  · obtain ⟨hnone, -⟩ | ⟨-, cs, hcycle, hmakes⟩ := cycleRun_of_runCycle h
    · exact absurd hnone (by decide)
    · rw [hset] at hcycle
      rw [hmakes.calls]
      cases hcycle with
      | intro _ => exact (List.suffix_append _ _).trans (List.suffix_append _ _)
  · rintro cs ⟨⟨n, side⟩, hid, rfl, -⟩
    cases side with
    | primary => exact absurd hid (by decide)
    | secondary => exact absurd hid (by decide)

end Homing
