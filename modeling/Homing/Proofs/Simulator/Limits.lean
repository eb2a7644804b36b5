import Homing.Proofs.Engine.CycleRun
import Homing.Proofs.Simulator.Views

/-!
# Motors at their limits

Only a refill of the step buffer moves a motor, and in an approach it moves no motor
that stands on its switch. So a motor that the loop of an approach has struck out is
still at its limit when the loop ends, however many turns the others take. A pull-off
looks at the limits once, at the end of its motion, and nothing moves after that.

No law of arithmetic is used in this module: what it says of a simulator holds for
binary64 positions as for exact ones, and for every state that a simulator can be in.
-/

namespace Homing

variable {α : Type u} [Scalar α]

namespace Simulator

variable {s : Simulator α} {id : Motor} {cs loop : List (Call α)}

/-! ## What moves a motor -/

theorem motor?_apply {c : Call α} (hc : c ≠ .refill) (s : Simulator α) (id : Motor) :
    (apply c s).1.motor? id = s.motor? id := by
  cases c with
  | refill => exact absurd rfl hc
  | setSteps n steps =>
      have haxes : (apply (.setSteps n steps) s).1.axes = s.axes.modify n (·.setSteps steps) := rfl
      unfold motor?
      rw [haxes, List.getElem?_modify]
      cases s.axes[id.axis]? with
      | none => rfl
      | some a =>
          simp only [Option.map_eq_map, Option.map_some, Option.bind_some]
          split <;> rfl
  | _ => rfl

/-- Calls without a refill move no motor. -/
theorem motor?_after (hcs : .refill ∉ cs) (s : Simulator α) (id : Motor) :
    (Machine.after cs s).motor? id = s.motor? id := by
  refine Machine.after_induction (P := fun y : Simulator α => y.motor? id = s.motor? id) rfl ?_
  intro c hc y hy
  have hne : c ≠ .refill := fun h => hcs (h ▸ hc)
  exact (motor?_apply hne y id).trans hy

/-- A call changes nothing of a motor but its position. -/
theorem exists_position_apply (c : Call α) {p : SimMotor α} (hp : s.motor? id = some p) :
    ∃ v, (apply c s).1.motor? id = some { p with position := v } := by
  by_cases hc : c = .refill
  · subst hc
    rcases apply_refill_cases s with h | ⟨mv, -, h⟩
    · rw [h]
      exact ⟨p.position, hp⟩
    · obtain ⟨a, ha, hside⟩ := Option.bind_eq_some_iff.1 hp
      rw [h, motor?, axes_tick, ha, Option.map_some, Option.bind_some, SimAxis.motor?_step,
        hside, Option.map_some]
      split
      · exact ⟨p.position, rfl⟩
      · split
        · exact ⟨_, rfl⟩
        · exact ⟨p.position, rfl⟩
  · exact ⟨p.position, (motor?_apply hc s id).trans hp⟩

theorem exists_position_after (cs : List (Call α)) {p : SimMotor α} (hp : s.motor? id = some p) :
    ∃ v, (Machine.after cs s).motor? id = some { p with position := v } := by
  refine Machine.after_induction
    (P := fun y : Simulator α => ∃ v, y.motor? id = some { p with position := v })
    ⟨p.position, hp⟩ ?_
  rintro c - y ⟨v, hv⟩
  obtain ⟨w, hw⟩ := exists_position_apply c hv
  exact ⟨w, hw⟩

theorem fixed_after (cs : List (Call α)) (x : Simulator α) :
    (Machine.after cs x).tickMs = x.tickMs ∧ (Machine.after cs x).scheduled = x.scheduled ∧
      (Machine.after cs x).miswired = x.miswired := by
  refine Machine.after_induction (P := fun y : Simulator α => y.tickMs = x.tickMs ∧
    y.scheduled = x.scheduled ∧ y.miswired = x.miswired) ⟨rfl, rfl, rfl⟩ ?_
  rintro c - y ⟨htick, hscheduled, hmiswired⟩
  obtain ⟨h₁, h₂, h₃⟩ := fixed_apply c y
  exact ⟨h₁.trans htick, h₂.trans hscheduled, h₃.trans hmiswired⟩

theorem active_limits_after (hcs : .refill ∉ cs) (s : Simulator α) :
    (Machine.limits (Machine.after cs s)).active = (Machine.limits s).active := by
  ext id
  rw [mem_active, mem_active, motor?_after hcs, (fixed_after cs s).2.2]

/-! ## Approaches -/

/-- No move but an approach is in progress. -/
def Approaches (s : Simulator α) : Prop := ∀ mv, s.active = some mv → mv.approach = true

theorem Approaches.tick (hs : Approaches s) {mv : ActiveMove α} (hactive : s.active = some mv) :
    Approaches (s.tick mv).1 := by
  intro mv' hactive'
  rcases tick_cases (s := s) mv with ⟨-, hnone, -⟩ | ⟨-, -, hsome⟩
  · rw [hnone] at hactive'
    cases hactive'
  · rw [hsome] at hactive'
    obtain rfl := Option.some.inj hactive'
    exact hs mv hactive

theorem Approaches.after (hs : Approaches s) (hcs : ∀ c ∈ cs, c.InMove) :
    Approaches (Machine.after cs s) := by
  refine after_inMove hcs hs (fun y mv hy hactive => hy.tick hactive) ?_
  intro y z hy hkeep mv hactive
  exact hy mv (by rw [← hkeep.active, hactive])

/-- A tick of an approach does not move a motor that is on its switch. -/
theorem motor?_tick_of_limitActive {mv : ActiveMove α} (happroach : mv.approach = true)
    {p : SimMotor α} (hp : s.motor? id = some p) (hon : p.limitActive = true) :
    (s.tick mv).1.motor? id = some p := by
  have hstill (overrides : Overrides) (distance : α) :
      SimAxis.motorTravel overrides true distance id p = none := by
    unfold SimAxis.motorTravel
    simp [hon]
  obtain ⟨a, ha, hside⟩ := Option.bind_eq_some_iff.1 hp
  have hstep : (a.step mv.overrides mv.approach (mv.deltaOn id.axis) (s.fraction mv)
      id.axis).1.motor? id.side = some p := by
    rw [SimAxis.motor?_step, hside, Option.map_some, happroach, hstill, ite_self]
  unfold motor?
  rw [axes_tick, ha, Option.map_some, Option.bind_some, hstep]

/-- A motor that is on its switch in an approach stays where it is. -/
theorem motor?_after_of_limitActive (hcs : ∀ c ∈ cs, c.InMove) (hs : Approaches s)
    {p : SimMotor α} (hp : s.motor? id = some p) (hon : p.limitActive = true) :
    (Machine.after cs s).motor? id = some p := by
  have key : Approaches (Machine.after cs s) ∧ (Machine.after cs s).motor? id = some p := by
    refine after_inMove (P := fun y => Approaches y ∧ y.motor? id = some p) hcs ⟨hs, hp⟩ ?_ ?_
    · rintro y mv ⟨hy, hmotor⟩ hactive
      exact ⟨hy.tick hactive, motor?_tick_of_limitActive (hy mv hactive) hmotor hon⟩
    · rintro y z ⟨hy, hmotor⟩ hkeep
      refine ⟨fun mv hactive => hy mv ?_, by rw [hkeep.motor?, hmotor]⟩
      rw [← hkeep.active, hactive]
  exact key.2

/-- After the loop of an approach that ended well, every motor is at a limit. -/
theorem mem_active_of_loopRun {motors : MotorSet} (hs : Approaches s)
    (h : LoopRun true motors s (.ok ()) loop) (hid : id ∈ motors) :
    id ∈ (Machine.limits (Machine.after loop s)).active := by
  have hinLoop := inLoop_of_loopRun h
  obtain ⟨pre, rest, rfl, hseen⟩ := h.exists_seen hid
  have hpre : ∀ c ∈ pre, c.InMove := fun c hc => .inl (hinLoop c (List.mem_append_left rest hc))
  have hrest : ∀ c ∈ rest, c.InMove := fun c hc => .inl (hinLoop c (List.mem_append_right pre hc))
  have hy := hs.after hpre
  rw [Machine.after_append]
  generalize Machine.after pre s = y at hseen hy
  rw [Simulator.mem_active] at hseen ⊢
  rcases hseen with ⟨hlt, p, hp, hon⟩ | hmiswired
  · exact .inl ⟨hlt, p, motor?_after_of_limitActive hrest hy hp hon, hon⟩
  · rw [(fixed_after rest y).2.2]
    exact .inr hmiswired

/-! ## Pull-offs -/

/-- After the loop of a pull-off that ended well, no motor is at a limit. -/
theorem not_mem_active_of_loopRun {motors : MotorSet} (h : LoopRun false motors s (.ok ()) loop)
    (hid : id ∈ motors) : id ∉ (Machine.limits (Machine.after loop s)).active := by
  have hne : motors ≠ ∅ := by
    rintro rfl
    exact MotorSet.not_mem_empty id hid
  obtain ⟨pre, status, rfl, -, hoff⟩ := h.exists_cleared hne
  intro hon
  rw [← List.append_assoc, Machine.after_append, active_limits_after (by simp)] at hon
  have hboth := MotorSet.mem_inter.2 ⟨hon, hid⟩
  rw [hoff] at hboth
  exact MotorSet.not_mem_empty id hboth

end Simulator

/-! ## Phases -/

section

variable {m : MachineSettings α} {motors : MotorSet} {phase : Phase} {x : Simulator α}
  {cs : List (Call α)}

open Simulator

/-- The calls that start a phase leave no move but that of the phase. -/
theorem approaches_starting {planned : PlannedMove α} {mv : Move α}
    (happroach : mv.approach = true) : Approaches (Machine.after (starting planned mv) x) := by
  have hsubmit (y : Simulator α) : Approaches (Machine.after [.submit mv] y) := by
    intro mv' hactive
    obtain rfl := Option.some.inj hactive
    exact happroach
  have hcalls : starting planned mv =
      zeroing planned.axes maxAxes ++ ([.submit mv] ++ [.refill, .start]) := rfl
  rw [hcalls, Machine.after_append, Machine.after_append]
  refine (hsubmit _).after fun c hc => ?_
  rcases List.mem_cons.1 hc with rfl | hc
  · exact .inl .refill
  · rw [List.mem_singleton.1 hc]
    exact .inr rfl

/-- When a phase has ended well, its motors are at their limits after an approach and
off them after any other phase. -/
theorem PhaseRun.mem_active_iff (h : PhaseRun m motors phase x (.ok ()) cs) {id : Motor}
    (hid : id ∈ motors) :
    id ∈ (Machine.limits (Machine.after cs x)).active ↔ phase.isApproach = true := by
  cases h with
  | idle hempty =>
      rw [hempty] at hid
      exact absurd hid (MotorSet.not_mem_empty id)
  | skipped _ hphase hoff =>
      have hnot : id ∉ (Machine.limits x).active := by
        intro hon
        have hboth := MotorSet.mem_inter.2 ⟨hon, hid⟩
        rw [hoff] at hboth
        exact MotorSet.not_mem_empty id hboth
      rw [hphase]
      exact iff_of_false hnot Bool.false_ne_true
  | @moved mv _ loop _ _ hcarries hloop =>
      rw [Machine.after_append, Machine.after_append, active_limits_after (by simp [settling])]
      cases happroach : phase.isApproach with
      | true =>
          rw [happroach] at hloop
          have hs : Approaches (Machine.after (starting (planMove m motors phase) mv) x) :=
            approaches_starting (hcarries.approach.trans happroach)
          exact iff_of_true (mem_active_of_loopRun hs hloop hid) rfl
      | false =>
          rw [happroach] at hloop
          exact iff_of_false (not_mem_active_of_loopRun hloop hid) Bool.false_ne_true

/-- Phases that ended well leave their motors where the last one does. -/
theorem PhasesRun.mem_active_iff {plan : List Phase} {last : Phase}
    (h : PhasesRun m motors (plan ++ [last]) x (.ok ()) cs) {id : Motor} (hid : id ∈ motors) :
    id ∈ (Machine.limits (Machine.after cs x)).active ↔ last.isApproach = true := by
  induction plan generalizing x cs with
  | nil =>
      cases h with
      | cons hphase hrest =>
          cases hrest with
          | nil =>
              rw [List.append_nil]
              exact hphase.mem_active_iff hid
  | cons phase plan ih =>
      cases h with
      | cons _ hrest =>
          rw [Machine.after_append]
          exact ih hrest

/-- The end of a cycle refills no step buffer. -/
theorem refill_not_mem_closing {axes : AxisSet} {r : Except Failure Unit} :
    .refill ∉ closing m axes r := by
  cases r with
  | error f => simp [closing]
  | ok v =>
      intro hmem
      rcases List.mem_append.1 hmem with hmem | hmem
      · obtain ⟨n, -, hcall⟩ := List.mem_filterMap.1 hmem
        obtain ⟨a, -, hcall⟩ := Option.bind_eq_some_iff.1 hcall
        obtain ⟨h, -, hcall⟩ := Option.map_eq_some_iff.1 hcall
        cases hcall
      · cases List.mem_singleton.1 hmem

end

end Homing
