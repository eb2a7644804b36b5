import Homing.Proofs.Engine.Reported
import Homing.Proofs.Settings.Sound

/-!
# The step counters after a request

On a machine whose step counters change by `setSteps` alone, the counter of an axis is
the last value that a call gave it (`CountsSteps.steps_of_set`). Every move of a cycle
sets the counters of its axes to zero and of no others, and only the end of a cycle that
went well overwrites them. So each cycle decides about its own axes, whatever runs before
and after it: at the end of a request an axis is at its reference position, at zero or
where it was, as its own cycle ended well, failed or did not run.
-/

namespace Homing

variable {σ : Type u} {α : Type v} [Machine σ α]

/-- From the machine `x` on, the step counters of the axes change by `setSteps` alone. -/
structure CountsSteps (m : MachineSettings α) (x : σ) : Prop where
  set : ∀ (cs : List (Call α)) (n : Nat) (steps : Int), n < m.axes.length →
    Machine.steps (Machine.after (cs ++ [.setSteps n steps]) x) n = steps
  keep : ∀ (cs : List (Call α)) (c : Call α) (n : Nat), (∀ steps, c ≠ .setSteps n steps) →
    Machine.steps (Machine.after (cs ++ [c]) x) n = Machine.steps (Machine.after cs x) n

/-- From the machine `x` on, every axis that enters homing mode has a motor that can home,
and no other axis has. -/
def HomesEach (m : MachineSettings α) (x : σ) : Prop :=
  ∀ (cs : List (Call α)) (axes : AxisSet), (∀ n ∈ axes, n ∈ m.homingAxes) →
    (Machine.homeable (Machine.after cs x) axes).axes = axes

/-- The number of the cycle that an axis homes in. -/
def MachineSettings.cycleOf (m : MachineSettings α) (n : Nat) : Option Nat :=
  (m.axes[n]?).bind fun a => a.homing.bind (·.cycle)

/-- The step counter of an axis has the value of the reference position. -/
def AtReference [Scalar α] (m : MachineSettings α) (x : σ) (n : Nat) : Prop :=
  ∃ a h, m.axes[n]? = some a ∧ a.homing = some h ∧ Machine.steps x n = a.stepsAt h.reference

section

variable {m : MachineSettings α} {x : σ} {cs : List (Call α)} {n : Nat}

theorem CountsSteps.after (hx : CountsSteps m x) (cs : List (Call α)) :
    CountsSteps m (Machine.after cs x) := by
  constructor
  · intro ds n steps hn
    rw [← Machine.after_append, ← List.append_assoc]
    exact hx.set _ n steps hn
  · intro ds c n hc
    rw [← Machine.after_append, ← Machine.after_append, ← List.append_assoc]
    exact hx.keep _ c n hc

theorem HomesEach.after (hx : HomesEach m x) (cs : List (Call α)) :
    HomesEach m (Machine.after cs x) := by
  intro ds axes haxes
  rw [← Machine.after_append]
  exact hx _ axes haxes

theorem CountsSteps.steps_of_not_set (hx : CountsSteps m x)
    (hnot : ∀ steps, .setSteps n steps ∉ cs) :
    Machine.steps (Machine.after cs x) n = Machine.steps x n := by
  induction cs using List.reverseRecOn with
  | nil => rfl
  | append_singleton cs c ih =>
      rw [hx.keep cs c n fun steps hc => hnot steps (by simp [hc])]
      exact ih fun steps hmem => hnot steps (List.mem_append_left _ hmem)

/-- A counter that is set to one value only has this value. -/
theorem CountsSteps.steps_of_set (hx : CountsSteps m x) {v : Int} (hn : n < m.axes.length)
    (hmem : .setSteps n v ∈ cs) (hall : ∀ w, .setSteps n w ∈ cs → w = v) :
    Machine.steps (Machine.after cs x) n = v := by
  induction cs using List.reverseRecOn with
  | nil => exact absurd hmem List.not_mem_nil
  | append_singleton cs c ih =>
      by_cases hc : ∃ w, c = .setSteps n w
      · obtain ⟨w, rfl⟩ := hc
        rw [hx.set cs n w hn]
        exact hall w (List.mem_append_right _ List.mem_cons_self)
      · rw [hx.keep cs c n fun w hw => hc ⟨w, hw⟩]
        refine ih ?_ fun w hw => hall w (List.mem_append_left _ hw)
        rcases List.mem_append.1 hmem with hmem | hmem
        · exact hmem
        · exact absurd ⟨v, (List.mem_singleton.1 hmem).symm⟩ hc

theorem MachineSettings.mem_axesInCycle_iff {k : Nat} (hlt : m.axes.length ≤ maxAxes) :
    n ∈ m.axesInCycle k ↔ m.cycleOf n = some k := by
  rw [axesInCycle, mem_axesWhere, cycleOf]
  constructor
  · rintro ⟨-, a, ha, hk⟩
    obtain ⟨h, hh, hk⟩ := Option.any_eq_true _ _ |>.1 hk
    simpa [ha, hh] using hk
  · intro hk
    obtain ⟨a, ha, hk⟩ := Option.bind_eq_some_iff.1 hk
    obtain ⟨h, hh, hk⟩ := Option.bind_eq_some_iff.1 hk
    have hn := (List.getElem?_eq_some_iff.1 ha).1
    exact ⟨by omega, a, ha, by simp [hh, hk]⟩

end

variable [Scalar α] {m : MachineSettings α} {x : σ} {cs : List (Call α)} {n : Nat}

/-! ## One cycle -/

theorem AtReference.of_steps_eq {y : σ} (h : AtReference m x n)
    (heq : Machine.steps y n = Machine.steps x n) : AtReference m y n := by
  obtain ⟨a, g, ha, hg, hsteps⟩ := h
  exact ⟨a, g, ha, hg, heq.trans hsteps⟩

/-- A failed phase has set the counters of all its axes to zero. -/
theorem zeroed_of_failed_phases {motors : MotorSet} {plan : List Phase} {f : Failure}
    (h : PhasesRun m motors plan x (.error f) cs) {a : AxisSettings α} {g : HomingSettings α}
    (hp : TakesPart m motors n a g) : .setSteps n 0 ∈ cs := by
  generalize hr : Except.error f = r at h
  induction h with
  | nil => cases hr
  | cons _ _ ih => exact List.mem_append_right _ (ih hr)
  | @fail phase _ _ _ _ hphase =>
      cases hphase with
      | moved _ _ _ _ =>
          rw [starting, List.append_assoc, List.append_assoc]
          refine List.mem_append_left _ (List.mem_map.2 ⟨n, List.mem_filter.2 ⟨?_, ?_⟩, rfl⟩)
          · exact List.mem_range.2 hp.lt
          · exact decide_eq_true (mem_axes_planMove.2 ⟨a, g, hp⟩)

/-- The moves of a cycle set counters to nothing but zero, and only those of its axes. -/
theorem of_setSteps_mem_phases {motors : MotorSet} {plan : List Phase} {r : Except Failure Unit}
    {steps : Int} (h : PhasesRun m motors plan x r cs) (hmem : .setSteps n steps ∈ cs) :
    n ∈ motors.axes ∧ steps = 0 := by
  cases inPhase_of_phasesRun h _ hmem with
  | zero hn => exact ⟨hn, rfl⟩
  | loop hc => cases hc

section Cycle

variable {axes : AxisSet} {r : Except Failure Unit}

theorem steps_beside_cycle (hx : CountsSteps m x) (hhomes : HomesEach m x)
    (haxes : ∀ n ∈ axes, n ∈ m.homingAxes) (h : CycleRun m axes x r cs) (hn : n ∉ axes) :
    Machine.steps (Machine.after cs x) n = Machine.steps x n := by
  refine hx.steps_of_not_set fun steps hmem => hn ?_
  cases h with
  | intro hphases =>
      rcases List.mem_append.1 hmem with hmem | hmem
      · rcases List.mem_append.1 hmem with hmem | hmem
        · cases List.mem_singleton.1 hmem
        · rw [← hhomes [] axes haxes]
          exact (of_setSteps_mem_phases hphases hmem).1
      · exact (mem_of_setSteps_mem_closing hmem).2

theorem atReference_of_cycle (hx : CountsSteps m x) (haxes : ∀ n ∈ axes, n ∈ m.homingAxes)
    (h : CycleRun m axes x (.ok ()) cs) (hn : n ∈ axes) :
    AtReference m (Machine.after cs x) n := by
  obtain ⟨a, g, ha, hg⟩ := MachineSettings.exists_of_mem_homingAxes (haxes n hn)
  refine ⟨a, g, ha, hg, ?_⟩
  cases h with
  | @intro moves hphases =>
      rw [Machine.after_append]
      refine (hx.after _).steps_of_set (List.getElem?_eq_some_iff.1 ha).1 ?_ fun w hw => ?_
      · exact List.mem_append_left _ (mem_committing.2 ⟨n, a, g, hn, ha, hg, rfl⟩)
      · rcases List.mem_append.1 hw with hw | hw
        · obtain ⟨k, b, h, -, hb, hh, hc⟩ := mem_committing.1 hw
          obtain ⟨rfl, rfl⟩ := Call.setSteps.inj hc
          obtain rfl : a = b := Option.some.inj (ha.symm.trans hb)
          obtain rfl : g = h := Option.some.inj (hg.symm.trans hh)
          rfl
        · cases List.mem_singleton.1 hw

theorem steps_of_failed_cycle {f : Failure} (hx : CountsSteps m x) (hhomes : HomesEach m x)
    (haxes : ∀ n ∈ axes, n ∈ m.homingAxes) (h : CycleRun m axes x (.error f) cs) (hn : n ∈ axes) :
    Machine.steps (Machine.after cs x) n = 0 := by
  obtain ⟨a, g, ha, hg⟩ := MachineSettings.exists_of_mem_homingAxes (haxes n hn)
  cases h with
  | @intro moves hphases =>
      have hmotor : n ∈ (Machine.homeable x axes).axes := by
        have heq := hhomes [] axes haxes
        rw [Machine.after_nil] at heq
        rwa [heq]
      refine hx.steps_of_set (List.getElem?_eq_some_iff.1 ha).1 ?_ fun w hw => ?_
      · exact List.mem_append_left _ (List.mem_append_right _
          (zeroed_of_failed_phases hphases ⟨ha, hg, hmotor⟩))
      · rcases List.mem_append.1 hw with hw | hw
        · rcases List.mem_append.1 hw with hw | hw
          · cases List.mem_singleton.1 hw
          · exact (of_setSteps_mem_phases hphases hw).2
        · cases (mem_of_setSteps_mem_closing hw).1

end Cycle

/-! ## Numbered cycles -/

theorem steps_beside_run {ks : List Nat} {r : Except Failure Unit} (hx : CountsSteps m x)
    (hhomes : HomesEach m x) (h : NumberedRun m ks x r cs)
    (hn : ∀ k ∈ ks, n ∉ m.axesInCycle k) :
    Machine.steps (Machine.after cs x) n = Machine.steps x n := by
  induction h with
  | nil => rfl
  | @cons k ks x r cs ds _ hcycle _ ih =>
      have hrest := ih (hx.after cs) (hhomes.after cs) fun j hj => hn j (List.mem_cons_of_mem k hj)
      rw [Machine.after_append, hrest]
      exact steps_beside_cycle hx hhomes (fun _ => mem_homingAxes_of_cycle) hcycle
        (hn k List.mem_cons_self)
  | @fail k x f cs _ hcycle =>
      exact steps_beside_cycle hx hhomes (fun _ => mem_homingAxes_of_cycle) hcycle
        (hn k List.mem_cons_self)

/-- An axis keeps the reference position of its cycle, as no other cycle is about it. -/
theorem atReference_of_run {ks : List Nat} (hx : CountsSteps m x) (hhomes : HomesEach m x)
    (h : NumberedRun m ks x (.ok ()) cs) {k : Nat} (hk : k ∈ ks) (hn : n ∈ m.axesInCycle k) :
    AtReference m (Machine.after cs x) n := by
  generalize hr : Except.ok () = r at h
  induction h with
  | nil => exact absurd hk List.not_mem_nil
  | @cons j ks x r cs ds _ hcycle hrest ih =>
      subst hr
      rw [Machine.after_append]
      by_cases hlater : ∃ i ∈ ks, n ∈ m.axesInCycle i
      · obtain ⟨i, hi, hmem⟩ := hlater
        obtain rfl := cycle_unique hmem hn
        exact ih (hx.after cs) (hhomes.after cs) hi rfl
      · have hjk : k = j := by
          rcases List.mem_cons.1 hk with hk | hk
          · exact hk
          · exact absurd ⟨k, hk, hn⟩ hlater
        rw [hjk] at hn
        refine (atReference_of_cycle hx (fun _ => mem_homingAxes_of_cycle) hcycle hn).of_steps_eq ?_
        exact steps_beside_run (hx.after cs) (hhomes.after cs) hrest
          fun i hi hmem => hlater ⟨i, hi, hmem⟩
  | fail => cases hr

/-! ## Requests -/

/-- The number of a cycle with an axis is among the cycles of the machine. -/
theorem MachineSettings.mem_cycles_of_validate (hm : m.validate = .ok ()) {k : Nat}
    (hn : m.cycleOf n = some k) : k ∈ m.cycles := by
  have hlt := length_le_of_validate hm
  have hmem := (mem_axesInCycle_iff hlt).2 hn
  obtain ⟨a, ha, hk⟩ := Option.bind_eq_some_iff.1 hn
  obtain ⟨h, hh, hk⟩ := Option.bind_eq_some_iff.1 hk
  have hfault := fault?_eq_none_of_validate hm (List.mem_of_getElem? ha)
  have hbound :=
    HomingSettings.cycle_le_of_fault? (AxisSettings.homing_fault?_of_fault? hfault hh) hk
  exact mem_withAxes_iff.2 ⟨List.mem_range'_1.2 (by omega), AxisSet.ne_empty_of_mem hmem⟩

/-- The step counters of the machine `y` where the cycle `k` failed after `x`. -/
structure FailedIn (m : MachineSettings α) (k : Nat) (x y : σ) : Prop where
  earlier : ∀ n j, m.cycleOf n = some j → j < k → AtReference m y n
  failed : ∀ n, m.cycleOf n = some k → Machine.steps y n = 0
  other : ∀ n, (∀ j, m.cycleOf n = some j → k < j) → Machine.steps y n = Machine.steps x n

/-- The numbers before the last one of the front of an ascending list are the smaller
ones. -/
theorem mem_front_iff_lt {l pre : List Nat} {k : Nat} (hl : l.Pairwise (· < ·))
    (hpre : pre ++ [k] <+: l) {j : Nat} (hj : j ∈ l) : j ∈ pre ↔ j < k := by
  obtain ⟨tail, rfl⟩ := hpre
  obtain ⟨hfront, -, hback⟩ := List.pairwise_append.1 hl
  have hbefore := (List.pairwise_append.1 hfront).2.2
  constructor
  · exact fun h => hbefore j h k List.mem_cons_self
  · intro hlt
    rcases List.mem_append.1 hj with hj | hj
    · rcases List.mem_append.1 hj with hj | hj
      · exact hj
      · exact absurd (List.mem_singleton.1 hj) (Nat.ne_of_lt hlt)
    · have hgt := hback k (List.mem_append_right _ List.mem_cons_self) j hj
      omega

/-- A failed run of cycles tells by the step counters in which cycle it failed. -/
theorem failedIn_of_run {ks : List Nat} {f : Failure} (hm : m.validate = .ok ())
    (hx : CountsSteps m x) (hhomes : HomesEach m x) (hpre : ks <+: m.cycles)
    (h : NumberedRun m ks x (.error f) cs) :
    ∃ k ∈ m.cycles, (∀ S, .exitHoming S false ∈ cs ↔ S = m.axesInCycle k) ∧
      FailedIn m k x (Machine.after cs x) := by
  have hlt := MachineSettings.length_le_of_validate hm
  obtain ⟨pre, k, ds, es, rfl, rfl, hrun, hlast⟩ := h.exists_failed
  have hfront {j : Nat} (hj : j ∈ m.cycles) := mem_front_iff_lt (cycles_ascending m) hpre hj
  refine ⟨k, hpre.subset (List.mem_append_right _ List.mem_cons_self), fun S => ?_, ?_, ?_, ?_⟩
  · rw [List.mem_append, hlast.exitHoming_mem_iff]
    simp [hrun.exitHoming_false_not_mem S]
  · intro n j hj hjk
    have hmem := (MachineSettings.mem_axesInCycle_iff hlt).2 hj
    have hran := (hfront (MachineSettings.mem_cycles_of_validate hm hj)).2 hjk
    rw [Machine.after_append]
    refine (atReference_of_run hx hhomes hrun hran hmem).of_steps_eq ?_
    refine steps_beside_cycle (hx.after ds) (hhomes.after ds) (fun _ => mem_homingAxes_of_cycle)
      hlast fun hk => ?_
    exact absurd (cycle_unique hmem hk) (Nat.ne_of_lt hjk)
  · intro n hn
    rw [Machine.after_append]
    exact steps_of_failed_cycle (hx.after ds) (hhomes.after ds)
      (fun _ => mem_homingAxes_of_cycle) hlast ((MachineSettings.mem_axesInCycle_iff hlt).2 hn)
  · intro n hn
    refine steps_beside_run hx hhomes h fun i hi hmem => ?_
    have hlater := hn i ((MachineSettings.mem_axesInCycle_iff hlt).1 hmem)
    rcases List.mem_append.1 hi with hi | hi
    · have := (hfront (hpre.subset (List.mem_append_left _ hi))).1 hi
      omega
    · rw [List.mem_singleton.1 hi] at hlater
      exact absurd hlater (Nat.lt_irrefl k)

/-- A request for every cycle that succeeds leaves each axis of a cycle at its reference
position and every other axis where it was. One that fails in the cycle `k` leaves the axes
of the cycles before `k` at their reference positions, those of `k` at zero, and every
other axis where it was. -/
theorem counters_of_runRequest {budget : Nat} {s t : Session σ α} {e : Except HomingError Unit}
    (hm : m.validate = .ok ()) (hcounts : CountsSteps m s.machine)
    (hhomes : HomesEach m s.machine) (h : runRequest budget m .all s = some (e, t)) :
    ∃ cs, t.calls = s.calls ++ cs ∧
      (e = .ok () → ∀ n, (∀ k, m.cycleOf n = some k → AtReference m t.machine n) ∧
        (m.cycleOf n = none → Machine.steps t.machine n = Machine.steps s.machine n)) ∧
      ∀ f, e = .error (.failed f) → ∃ k ∈ m.cycles,
        (∀ S, .exitHoming S false ∈ cs ↔ S = m.axesInCycle k) ∧
        FailedIn m k s.machine t.machine := by
  have hlt := MachineSettings.length_le_of_validate hm
  obtain ⟨cs, hrun, hmakes⟩ := requestRun_of_runRequest h
  rw [hmakes.machine]
  refine ⟨cs, hmakes.calls, ?_, ?_⟩
  · rintro rfl n
    cases hrun with
    | wildcard _ _ hrun hend =>
        cases hend with
        | homed hall _ =>
            subst hall
            rw [List.append_nil]
            constructor
            · intro k hk
              exact atReference_of_run hcounts hhomes hrun
                (MachineSettings.mem_cycles_of_validate hm hk)
                ((MachineSettings.mem_axesInCycle_iff hlt).2 hk)
            · intro hnone
              refine steps_beside_run hcounts hhomes hrun fun k _ hmem => ?_
              rw [MachineSettings.mem_axesInCycle_iff hlt, hnone] at hmem
              cases hmem
  · rintro f rfl
    cases hrun with
    | wildcard _ hpre hrun hend =>
        cases hend with
        | failed f =>
            rw [List.append_nil]
            exact failedIn_of_run hm hcounts hhomes hpre hrun

/-! ## A scripted machine -/

namespace Scripted

omit [Scalar α]

@[simp] theorem script_apply (c : Call α) (y : Scripted α) : (y.apply c).script = y.script := by
  cases c <;> simp only [apply]
  split <;> rfl

@[simp] theorem length_steps_apply (c : Call α) (y : Scripted α) :
    (y.apply c).steps.length = y.steps.length := by
  cases c <;> simp only [apply, List.length_set]
  split <;> rfl

theorem steps_apply_of_ne {c : Call α} (hc : ∀ steps, c ≠ .setSteps n steps) (y : Scripted α) :
    Machine.steps (y.apply c) n = Machine.steps y n := by
  cases c with
  | setSteps k steps =>
      have hne : k ≠ n := fun hk => hc steps (by rw [hk])
      simp [Machine.steps, apply, hne]
  | exitHoming axes success =>
      simp only [apply]
      split <;> rfl
  | _ => rfl

theorem countsSteps {x : Scripted α} (hlen : x.steps.length = m.axes.length) :
    CountsSteps m x := by
  have hafter (cs : List (Call α)) : (Machine.after cs x).steps.length = m.axes.length := by
    refine Machine.after_induction
      (P := fun y : Scripted α => y.steps.length = m.axes.length) hlen ?_
    exact fun c _ y hy => (length_steps_apply c y).trans hy
  constructor
  · intro cs n steps hn
    rw [Machine.after_append]
    simp [Machine.steps, Machine.apply, apply, hafter, hn]
  · intro cs c n hc
    rw [Machine.after_append]
    exact steps_apply_of_ne hc (Machine.after cs x)

theorem homesEach {x : Scripted α} (hscript : x.script.homeable = none) : HomesEach m x := by
  intro cs axes _
  have hafter : (Machine.after cs x).script = x.script := by
    refine Machine.after_induction (P := fun y : Scripted α => y.script = x.script) rfl ?_
    exact fun c _ y hy => (script_apply c y).trans hy
  have hall : Machine.homeable (Machine.after cs x) axes = .ofAxesBothSides axes := by
    simp only [Machine.homeable, homeable, hafter, hscript]
  rw [hall]
  ext n
  simp [MotorSet.ofAxesBothSides]

end Scripted

/-- Two axes that home one after the other and one that homes only when it is asked for. -/
def threeAxes : MachineSettings ℚ where
  logLevel := .info
  axes :=
    [{ name := "X", maxTravel := 100, stepsPerMm := 80,
       homing := some { HomingSettings.default with cycle := some 1, reference := 5 },
       motors := [.default] },
     { name := "Y", maxTravel := 100, stepsPerMm := 80,
       homing := some { HomingSettings.default with cycle := some 2 }, motors := [.default] },
     { name := "Z", maxTravel := 100, stepsPerMm := 80, homing := some .default,
       motors := [.default] }]

/-- A machine that finds the switches of axis 0 twice and is reset while axis 1 leaves
its switches. -/
def Scripted.resetInSecondCycle : Scripted ℚ where
  script :=
    let x := MotorSet.ofAxesBothSides (.single 0)
    let y := MotorSet.ofAxesBothSides (.single 1)
    { positive := [(1, x), (3, ∅), (5, x), (7, ∅), (9, y), (11, ∅)]
      signals := [(4, .stop), (8, .stop), (12, { reset := true })] }
  refills := 0
  state := .homing
  pending := ∅
  steps := [7, 8, 9]

/-- The first axis has its reference position, the second one zero and the third one what
it had. -/
theorem counters_resetInSecondCycle :
    threeAxes.validate = .ok () ∧ CountsSteps threeAxes Scripted.resetInSecondCycle ∧
      HomesEach threeAxes Scripted.resetInSecondCycle ∧
      ∃ t, runRequest 2 threeAxes .all (Session.begin Scripted.resetInSecondCycle) =
          some (.error (.failed .reset), t) ∧
        ∃ cs, t.calls = [] ++ cs ∧ ∃ k ∈ threeAxes.cycles,
          (∀ S, .exitHoming S false ∈ cs ↔ S = threeAxes.axesInCycle k) ∧
          FailedIn threeAxes k Scripted.resetInSecondCycle t.machine := by
  have hm : threeAxes.validate = .ok () := MachineSettings.validate_eq_ok_iff.2 (by decide +kernel)
  have hcounts : CountsSteps threeAxes Scripted.resetInSecondCycle := Scripted.countsSteps rfl
  have hhomes : HomesEach threeAxes Scripted.resetInSecondCycle := Scripted.homesEach rfl
  have hrun : (runRequest 2 threeAxes .all (Session.begin Scripted.resetInSecondCycle)).map (·.1) =
      some (.error (.failed .reset)) := by decide +kernel
  obtain ⟨⟨e, t⟩, h, he⟩ := Option.map_eq_some_iff.1 hrun
  cases he
  obtain ⟨cs, hcalls, -, hfailed⟩ :=
    counters_of_runRequest (s := Session.begin Scripted.resetInSecondCycle) hm hcounts hhomes h
  exact ⟨hm, hcounts, hhomes, t, h, cs, hcalls, hfailed .reset rfl⟩

end Homing
