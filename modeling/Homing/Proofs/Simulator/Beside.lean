import Homing.Proofs.Exact.Scalar
import Homing.Proofs.Engine.CycleRun
import Homing.Proofs.Simulator.Build

/-!
# Axes beside a cycle

An axis that takes no part in a move is sent to the position of its step count. Where it
stands on a step it is there already: the move takes it nowhere, no tick touches it, and
it still stands on the step when the next phase is planned. So a cycle leaves such an axis
as it is, in every arithmetic in which a position differs from itself by nothing
(`axes_of_cycle`).

A move that is cut short leaves its axes between two steps, and the next cycle carries
them onto the nearest one, whichever axes it is for.
-/

namespace Homing

variable {α : Type u} [Scalar α]

/-- The axis is at the position of its step count. -/
def SimAxis.OnStep (a : SimAxis α) : Prop :=
  Scalar.eq (Scalar.ofInt a.steps / a.stepsPerMm - a.position) 0.0 = true

instance (a : SimAxis α) : Decidable a.OnStep :=
  inferInstanceAs
    (Decidable (Scalar.eq (Scalar.ofInt a.steps / a.stepsPerMm - a.position) 0.0 = true))

namespace Simulator

variable {m : MachineSettings α} {motors : MotorSet} {phase : Phase} {plan : List Phase}
  {axes : AxisSet} {x y : Simulator α} {r : Except Failure Unit} {cs : List (Call α)} {n : Nat}

/-- Axis `n` stands on a step, if there is such an axis. -/
def OnStep (x : Simulator α) (n : Nat) : Prop := ∀ b, x.axes[n]? = some b → b.OnStep

theorem OnStep.congr (hx : x.OnStep n) (haxis : y.axes[n]? = x.axes[n]?) : y.OnStep n := by
  intro b hb
  rw [haxis] at hb
  exact hx b hb

/-! ## A move that takes an axis nowhere -/

theorem axes_tick_of_still {tk : ActiveMove α} (h : Scalar.eq (tk.deltaOn n) 0.0 = true) :
    (x.tick tk).1.axes[n]? = x.axes[n]? := by
  rw [axes_tick]
  cases x.axes[n]? with
  | none => rfl
  | some b => rw [Option.map_some, SimAxis.step, if_pos h]

/-- No call of a move touches an axis that the move takes nowhere. -/
theorem axes_inMove (hcs : ∀ c ∈ cs, c.InMove)
    (hstill : ∀ tk, x.active = some tk → Scalar.eq (tk.deltaOn n) 0.0 = true) :
    (Machine.after cs x).axes[n]? = x.axes[n]? := by
  have key : (Machine.after cs x).axes[n]? = x.axes[n]? ∧
      ∀ tk, (Machine.after cs x).active = some tk → Scalar.eq (tk.deltaOn n) 0.0 = true := by
    refine after_inMove (P := fun y => y.axes[n]? = x.axes[n]? ∧
      ∀ tk, y.active = some tk → Scalar.eq (tk.deltaOn n) 0.0 = true) hcs ⟨rfl, hstill⟩ ?_ ?_
    · rintro y tk ⟨haxis, hdelta⟩ hactive
      have htk := hdelta tk hactive
      refine ⟨(axes_tick_of_still htk).trans haxis, fun tk' hactive' => ?_⟩
      rcases tick_cases (s := y) tk with ⟨-, hnone, -⟩ | ⟨-, -, hsome⟩
      · rw [hnone] at hactive'
        cases hactive'
      · rw [hsome] at hactive'
        obtain rfl := Option.some.inj hactive'
        exact htk
    · rintro y z ⟨haxis, hdelta⟩ hkeep
      refine ⟨by rw [hkeep.axes, haxis], fun tk hactive => hdelta tk ?_⟩
      rw [← hkeep.active, hactive]
  exact key.1

/-- A move that sends an axis to where it stands takes it nowhere. -/
theorem still_submit {mv : Move α} {b : SimAxis α} {d : α} (hb : x.axes[n]? = some b)
    (htarget : mv.target[n]? = some d) (hd : Scalar.eq (d - b.position) 0.0 = true) :
    ∀ tk, (apply (.submit mv) x).1.active = some tk → Scalar.eq (tk.deltaOn n) 0.0 = true := by
  intro tk htk
  obtain rfl := Option.some.inj htk
  obtain ⟨hlt, rfl⟩ := Vector.getElem?_eq_some_iff.1 htarget
  unfold ActiveMove.deltaOn
  dsimp only
  rw [Vector.getElem?_ofFn, dif_pos hlt, Option.getD_some]
  dsimp only
  rw [hb]
  exact hd

/-! ## Phases -/

/-- Calls that neither refill nor set the step counter of an axis leave it as it is. -/
theorem axes_after (hcs : ∀ c ∈ cs, c ≠ .refill ∧ ∀ steps, c ≠ .setSteps n steps) :
    (Machine.after cs x).axes[n]? = x.axes[n]? := by
  refine Machine.after_induction (P := fun y : Simulator α => y.axes[n]? = x.axes[n]?) rfl ?_
  intro c hc y hy
  rw [← hy]
  exact axes_apply (hcs c hc).1 (hcs c hc).2

theorem axes_zeroing {planned : AxisSet} (hn : n ∉ planned) (k : Nat) (x : Simulator α) :
    (Machine.after (zeroing planned k) x).axes[n]? = x.axes[n]? := by
  refine axes_after fun c hc => ?_
  obtain ⟨j, hj, rfl⟩ := List.mem_map.1 hc
  refine ⟨nofun, fun steps heq => hn ?_⟩
  obtain ⟨rfl, -⟩ := Call.setSteps.inj heq
  simpa using (List.mem_filter.1 hj).2

theorem BuiltFrom.exists_settings (hx : BuiltFrom m x) {b : SimAxis α} (hb : x.axes[n]? = some b) :
    n < maxAxes ∧ ∃ a, m.axes[n]? = some a ∧ b.stepsPerMm = a.stepsPerMm := by
  have hbuild := hx.axis n
  rw [hb, Option.map_some, eq_comm, Option.map_eq_some_iff] at hbuild
  obtain ⟨c, hc, hcb⟩ := hbuild
  have hspm : c.stepsPerMm = b.stepsPerMm := congrArg Prod.fst hcb
  unfold ofSettings at hc
  rw [List.getElem?_map, Option.map_eq_some_iff] at hc
  obtain ⟨a, ha, rfl⟩ := hc
  by_cases hlt : n < maxAxes
  · rw [List.getElem?_take_of_lt hlt] at ha
    exact ⟨hlt, a, ha, hspm.symm⟩
  · rw [List.getElem?_take_eq_none (Nat.le_of_not_lt hlt)] at ha
    cases ha

/-- Calls make no axis. -/
theorem BuiltFrom.axis_none_after (hx : BuiltFrom m x) (hnone : x.axes[n]? = none)
    (cs : List (Call α)) : (Machine.after cs x).axes[n]? = none := by
  rw [← Option.map_eq_none_iff (f := SimAxis.build), (hx.after cs).axis n, ← hx.axis n, hnone,
    Option.map_none]

theorem axes_of_phase (hx : BuiltFrom m x) (h : PhaseRun m motors phase x r cs)
    (hn : n ∉ motors.axes) (hstep : x.OnStep n) : (Machine.after cs x).axes[n]? = x.axes[n]? := by
  cases h with
  | idle _ => rfl
  | skipped _ _ _ => rfl
  | @moved mv _ loop _ _ hcarries hloop =>
      cases hb : x.axes[n]? with
      | none => exact hx.axis_none_after hb _
      | some b =>
          have hplan : n ∉ (planMove m motors phase).axes := by
            intro hmem
            obtain ⟨a, h, hp⟩ := mem_axes_planMove.1 hmem
            exact hn hp.motor
          obtain ⟨hlt, a, ha, hspm⟩ := hx.exists_settings hb
          -- The zeroing before the move passes the axis by, so the count that decides its target
          -- is the one that it stands on.
          have hzero (k : Nat) := (axes_zeroing hplan k x).trans hb
          have hsteps :
              Machine.steps (Machine.after (zeroing (planMove m motors phase).axes n) x) n =
                b.steps := by
            show Simulator.steps _ n = _
            rw [Simulator.steps, hzero n]
          have htarget := hcarries.beside n a ha hlt hplan
          rw [hsteps, AxisSettings.positionAt, ← hspm] at htarget
          have hloop := axes_inMove (inMove_of_loop (inLoop_of_loopRun hloop))
            (still_submit (hzero maxAxes) htarget (hstep b hb))
          have hstarted : (apply (.submit mv)
              (Machine.after (zeroing (planMove m motors phase).axes maxAxes) x)).1.axes[n]? =
                some b := hzero maxAxes
          have hsettled (y : Simulator α) : (Machine.after
              (settling (planMove m motors phase).settle r) y).axes[n]? = y.axes[n]? := by
            cases r <;> rfl
          rw [Machine.after_append, hsettled, ← hstarted, ← hloop, Machine.after_append,
            Machine.after_append]
          unfold starting
          rw [Machine.after_append]
          rfl

/-- An axis that stands on a step is not touched by the phases of other axes. -/
theorem axes_of_phases (hx : BuiltFrom m x) (h : PhasesRun m motors plan x r cs)
    (hn : n ∉ motors.axes) (hstep : x.OnStep n) : (Machine.after cs x).axes[n]? = x.axes[n]? := by
  induction h with
  | nil => rfl
  | @cons phase rest x r cs ds hphase _ ih =>
      have hfirst := axes_of_phase hx hphase hn hstep
      rw [Machine.after_append, ih (hx.after cs) (hstep.congr hfirst), hfirst]
  | fail hphase => exact axes_of_phase hx hphase hn hstep

/-! ## Cycles -/

omit [Scalar α] in
theorem not_mem_homeable_axes (hn : n ∉ axes) : n ∉ (x.homeable axes).axes := by
  intro hmem
  obtain ⟨side, hid⟩ := MotorSet.mem_axes_iff_exists.1 hmem
  exact hn (mem_homeable.1 hid).1

theorem axes_closing (hn : n ∉ axes) (r : Except Failure Unit) (x : Simulator α) :
    (Machine.after (closing m axes r) x).axes[n]? = x.axes[n]? := by
  cases r with
  | error f => rfl
  | ok v =>
      refine axes_after fun c hc => ?_
      rcases List.mem_append.1 hc with hc | hc
      · obtain ⟨k, a, h, hk, -, -, rfl⟩ := mem_committing.1 hc
        refine ⟨nofun, fun steps heq => hn ?_⟩
        obtain ⟨rfl, -⟩ := Call.setSteps.inj heq
        exact hk
      · rw [List.mem_singleton.1 hc]
        exact ⟨nofun, nofun⟩

/-- The end of a cycle puts each of its axes to the position of its reference step. -/
theorem exists_axis_closing (hx : BuiltFrom m x) (hn : n ∈ axes) {a : AxisSettings α}
    {h : HomingSettings α} (ha : m.axes[n]? = some a) (hh : a.homing = some h) :
    ∃ b, (Machine.after (closing m axes (.ok ())) x).axes[n]? = some b ∧
      b.stepsPerMm = a.stepsPerMm ∧ b.position = a.positionAt (a.stepsAt h.reference) := by
  obtain ⟨front, others, hcommit, hothers⟩ := exists_committing_eq hn ha hh
  obtain ⟨b, hb, hbuild⟩ := (hx.after front).axis_of_settings (AxisSet.lt_of_mem hn) ha
  have hspm : b.stepsPerMm = a.stepsPerMm := congrArg Prod.fst hbuild
  have hlast : ∀ c ∈ others ++ [.exitHoming axes true],
      c ≠ .refill ∧ ∀ steps, c ≠ .setSteps n steps := by
    intro c hc
    rcases List.mem_append.1 hc with hc | hc
    · obtain ⟨j, hj, steps, rfl⟩ := hothers c hc
      refine ⟨nofun, fun other heq => hj ?_⟩
      obtain ⟨rfl, -⟩ := Call.setSteps.inj heq
      rfl
    · rw [List.mem_singleton.1 hc]
      exact ⟨nofun, nofun⟩
  refine ⟨b.setSteps (a.stepsAt h.reference), ?_, hspm, ?_⟩
  · rw [closing, hcommit, List.append_assoc, Machine.after_append, List.cons_append,
      Machine.after_cons, axes_after hlast]
    show ((Machine.after front x).axes.modify n (·.setSteps _))[n]? = _
    rw [List.getElem?_modify_eq, hb]
    rfl
  · rw [AxisSettings.positionAt, ← hspm]
    rfl

/-- A cycle leaves an axis of no part in it alone that stands on a step. -/
theorem axes_of_cycle (hx : BuiltFrom m x) (h : CycleRun m axes x r cs) (hn : n ∉ axes)
    (hstep : x.OnStep n) : (Machine.after cs x).axes[n]? = x.axes[n]? := by
  cases h with
  | @intro moves hphases =>
      have hentered : OnStep (Machine.after [.enterHoming axes] x) n := hstep
      rw [Machine.after_append, Machine.after_append, axes_closing hn,
        axes_of_phases (hx.after _) hphases (not_mem_homeable_axes hn) hentered]
      rfl

theorem axes_of_cycles {ks : List Nat} (hx : BuiltFrom m x) (h : NumberedRun m ks x r cs)
    (hn : ∀ k ∈ ks, n ∉ m.axesInCycle k) (hstep : x.OnStep n) :
    (Machine.after cs x).axes[n]? = x.axes[n]? := by
  induction h with
  | nil => rfl
  | @cons k ks x r cs ds _ hcycle _ ih =>
      have hfirst := axes_of_cycle hx hcycle (hn k List.mem_cons_self) hstep
      rw [Machine.after_append, ih (hx.after cs) (fun j hj => hn j (List.mem_cons_of_mem k hj))
        (hstep.congr hfirst), hfirst]
  | fail _ hcycle => exact axes_of_cycle hx hcycle (hn _ List.mem_cons_self) hstep

/-- One cycle leaves an axis that it is not for exactly where it was, however it ends, if the
axis stood on a step. -/
theorem stays_of_runCycle {budget : Nat} {s t : Session (Simulator α) α}
    (hs : BuiltFrom m s.machine) (h : runCycle budget m axes s = some (r, t)) :
    ∀ n ∉ axes, s.machine.OnStep n →
      t.machine.axisPosition? n = s.machine.axisPosition? n ∧
      t.machine.steps n = s.machine.steps n ∧
      ∀ side, t.machine.motorPosition? ⟨n, side⟩ = s.machine.motorPosition? ⟨n, side⟩ := by
  intro n hn hstep
  have haxis : t.machine.axes[n]? = s.machine.axes[n]? := by
    rcases cycleRun_of_runCycle h with ⟨-, -, rfl⟩ | ⟨-, cs, hcycle, hmakes⟩
    · rfl
    · rw [hmakes.machine]
      exact axes_of_cycle hs hcycle (fun hmem => hn (AxisSet.mem_inter.1 hmem).1) hstep
  refine ⟨?_, ?_, fun side => ?_⟩
  · rw [axisPosition?, haxis, axisPosition?]
  · rw [Simulator.steps, haxis, Simulator.steps]
  · rw [motorPosition?, Simulator.motor?, haxis, motorPosition?, Simulator.motor?]

/-- Two axes that home in cycles of their own. -/
def twoAxes : MachineSettings ℚ where
  logLevel := .info
  axes := ["X", "Y"].map fun name =>
    { name, maxTravel := 8, stepsPerMm := 10,
      homing := some { HomingSettings.default with seekRate := 120, feedRate := 60 },
      motors := [⟨2, true⟩] }

theorem stays_of_runCycle_twoAxes :
    BuiltFrom twoAxes ((ofSettings twoAxes).withTickMs 1000) ∧
      1 ∉ AxisSet.single 0 ∧ ((ofSettings twoAxes).withTickMs 1000).OnStep 1 ∧
      ∃ t, runCycle 20 twoAxes (.single 0) (.begin ((ofSettings twoAxes).withTickMs 1000)) =
          some (.ok (), t) ∧ t.machine.axisPosition? 1 = some 0 := by
  have hbuilt : BuiltFrom twoAxes ((ofSettings twoAxes).withTickMs 1000) :=
    builtFrom_of_setUp (by decide +kernel) (.tickMs 1000 .settings)
  have hn : 1 ∉ AxisSet.single 0 := by decide
  have hstep : ((ofSettings twoAxes).withTickMs 1000).OnStep 1 := by
    have hall : ∀ b ∈ ((ofSettings twoAxes).withTickMs 1000).axes[1]?, b.OnStep := by
      decide +kernel
    exact hall
  have hrun : (runCycle 20 twoAxes (.single 0)
      (.begin ((ofSettings twoAxes).withTickMs 1000))).map (·.1) = some (.ok ()) := by
    decide +kernel
  obtain ⟨⟨r, t⟩, h, rfl⟩ := Option.map_eq_some_iff.1 hrun
  obtain ⟨hposition, -, -⟩ := stays_of_runCycle hbuilt h 1 hn hstep
  exact ⟨hbuilt, hn, hstep, t, h, hposition.trans (by decide +kernel)⟩

/-- A reset in the first tick of its approach leaves the second axis between two steps. The
next cycle of the first axis carries it back. -/
theorem not_stays_interrupted :
    ∃ x : Simulator ℚ, SetUp twoAxes x ∧ x.active = none ∧ 1 ∉ AxisSet.single 0 ∧
      ∃ t, runCycle 20 twoAxes (.single 0) (.begin x) = some (.ok (), t) ∧
        t.machine.axisPosition? 1 ≠ x.axisPosition? 1 := by
  have key : ((home 1 twoAxes (.axes (.single 1))
      ((ofSettings twoAxes).withSignalAt 0 { reset := true })).bind fun e =>
        let x := e.2.machine.withTickMs 1000
        (runCycle 20 twoAxes (.single 0) (.begin x)).map fun f =>
          (x.active.isNone, f.1, f.2.machine.axisPosition? 1, x.axisPosition? 1)) =
      some (true, .ok (), some 0, some (1 / 500)) := by decide +kernel
  obtain ⟨⟨e, u⟩, hhome, hcycle⟩ := Option.bind_eq_some_iff.1 key
  obtain ⟨⟨r, t⟩, hcycle, hend⟩ := Option.map_eq_some_iff.1 hcycle
  simp only [Prod.mk.injEq] at hend
  obtain ⟨hactive, rfl, hafter, hbefore⟩ := hend
  obtain ⟨cs, -, hmakes⟩ := requestRun_of_home hhome
  have hsetUp : SetUp twoAxes (u.machine.withTickMs 1000) := by
    rw [hmakes.machine]
    exact .tickMs 1000 ((SetUp.signalAt 0 _ .settings).after _)
  refine ⟨u.machine.withTickMs 1000, hsetUp, Option.isNone_iff_eq_none.1 hactive, by decide, t,
    hcycle, ?_⟩
  rw [hafter, hbefore]
  decide +kernel

end Simulator

end Homing
