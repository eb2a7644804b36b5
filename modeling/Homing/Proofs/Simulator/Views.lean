import Homing.Proofs.Engine.Loop
import Homing.Simulator.Basic

/-!
# What a simulator shows, motor by motor

A simulator is read through `motor?`, which finds a motor by its axis and side: a
motor is at a limit, or can home, exactly when the motor that is found there says so.
A tick of a move is described in the same way, by what it does to each axis and to
each motor, and every other call by what it leaves alone.

All calls between the hand-over of a move and the end of its phase are `Call.InMove`,
and `after_inMove` reduces an invariant over them to one tick.
-/

namespace Homing

variable {α : Type u} [Scalar α]

namespace SimAxis

variable {a : SimAxis α}

omit [Scalar α] in
theorem mem_sides {side : Side} {p : SimMotor α} :
    (side, p) ∈ a.sides ↔ a.motor? side = some p := by
  unfold sides motor?
  match a.motors with
  | [] => cases side <;> simp [Side.all]
  | [q] => cases side <;> simp [Side.all, Side.index, eq_comm]
  | q :: r :: _ => cases side <;> simp [Side.all, Side.index, eq_comm]

omit [Scalar α] in
/-- Changing the motors side by side changes the motor that is found on each. -/
theorem getElem?_map_sides (f : Side × SimMotor α → SimMotor α) (side : Side) :
    (a.sides.map f)[side.index]? = (a.motor? side).map fun p => f (side, p) := by
  unfold sides motor?
  match a.motors with
  | [] => cases side <;> simp [Side.all]
  | [q] => cases side <;> simp [Side.all, Side.index]
  | q :: r :: _ => cases side <;> simp [Side.all, Side.index]

variable {overrides : Overrides} {approach : Bool} {delta fraction : α} {n : Nat}

/-- One tick moves the motor on a side, or not. -/
theorem motor?_step (side : Side) : (a.step overrides approach delta fraction n).1.motor? side =
    (a.motor? side).map fun p =>
      if Scalar.eq delta 0.0 then p
      else match motorTravel overrides approach (delta * fraction) ⟨n, side⟩ p with
        | some d => p.advance d
        | none => p := by
  unfold step
  by_cases hdelta : Scalar.eq delta 0.0 = true
  · rw [if_pos hdelta]
    simp [hdelta]
  · rw [if_neg hdelta]
    simp only [motor?, List.map_map, hdelta, Bool.false_eq_true, if_false]
    rw [getElem?_map_sides]
    refine congrFun (congrArg Option.map (funext fun p => ?_)) _
    dsimp only [Function.comp]
    cases motorTravel overrides approach (delta * fraction) ⟨n, side⟩ p <;> rfl

theorem position_step : (a.step overrides approach delta fraction n).1.position =
    if Scalar.eq delta 0.0 then a.position else a.position + delta * fraction := by
  unfold step
  split <;> rfl

/-- In a tick in which no motor stepped, each motor of a moving axis stood still. -/
theorem motorTravel_of_step {p : SimMotor α} {side : Side} (hp : a.motor? side = some p)
    (hdelta : Scalar.eq delta 0.0 = false)
    (hstill : (a.step overrides approach delta fraction n).2 = false) :
    motorTravel overrides approach (delta * fraction) ⟨n, side⟩ p = none := by
  unfold step at hstill
  rw [if_neg (by rw [hdelta]; simp)] at hstill
  dsimp only at hstill
  rw [List.any_map, List.any_eq_false] at hstill
  have hnot := hstill (side, p) (mem_sides.2 hp)
  cases htravel : motorTravel overrides approach (delta * fraction) ⟨n, side⟩ p with
  | none => rfl
  | some d => simp [htravel] at hnot

end SimAxis

/-- A call between the hand-over of a move and the end of its phase. -/
def Call.InMove (c : Call α) : Prop := c.InLoop ∨ c = .start

omit [Scalar α] in
theorem inMove_of_loop {loop : List (Call α)} (h : ∀ c ∈ loop, c.InLoop) :
    ∀ c ∈ [.refill, .start] ++ loop, c.InMove := by
  intro c hc
  rcases List.mem_cons.1 hc with rfl | hc
  · exact .inl .refill
  rcases List.mem_cons.1 hc with rfl | hc
  · exact .inr rfl
  · exact .inl (h c hc)

/-- How far axis `n` goes in a whole move. -/
def ActiveMove.deltaOn (mv : ActiveMove α) (n : Nat) : α := (mv.delta[n]?).getD 0.0

namespace Simulator

variable {s : Simulator α} {id : Motor}

omit [Scalar α] in
theorem mem_motors {p : SimMotor α} : (id, p) ∈ s.motors ↔ s.motor? id = some p := by
  unfold motors motor?
  simp only [List.mem_flatMap, List.mem_map, Option.bind_eq_some_iff]
  constructor
  · rintro ⟨⟨a, n⟩, hmem, ⟨side, q⟩, hside, heq⟩
    obtain ⟨rfl, rfl⟩ := Prod.mk.inj heq
    exact ⟨a, List.mk_mem_zipIdx_iff_getElem?.1 hmem, SimAxis.mem_sides.1 hside⟩
  · rintro ⟨a, ha, hp⟩
    exact ⟨(a, id.axis), List.mk_mem_zipIdx_iff_getElem?.2 ha, (id.side, p),
      SimAxis.mem_sides.2 hp, rfl⟩

/-- A motor is at a limit when its switch reads as tripped or it is wired wrong. -/
theorem mem_active : id ∈ (Machine.limits s).active ↔
    (id.axis < maxAxes ∧ ∃ p, s.motor? id = some p ∧ p.limitActive = true) ∨ id ∈ s.miswired := by
  have hlimits : Machine.limits s = s.limits := rfl
  rw [hlimits]
  unfold limits Limits.active
  simp only [MotorSet.mem_union, MotorSet.mem_ofList, List.mem_map, List.mem_filter, Prod.exists,
    mem_motors, Bool.and_eq_true, beq_iff_eq, exists_and_right, exists_eq_right]
  constructor
  · rintro ((⟨⟨p, hp, ha, -⟩, hlt⟩ | hm) | (⟨⟨p, hp, ha, -⟩, hlt⟩ | hm))
    · exact .inl ⟨hlt, p, hp, ha⟩
    · exact .inr hm
    · exact .inl ⟨hlt, p, hp, ha⟩
    · exact .inr hm
  · rintro (⟨hlt, p, hp, ha⟩ | hm)
    · cases hpos : p.positive with
      | true => exact .inl (.inl ⟨⟨p, hp, ha, hpos⟩, hlt⟩)
      | false => exact .inr (.inl ⟨⟨p, hp, ha, hpos⟩, hlt⟩)
    · exact .inl (.inr hm)

/-- A switch is at one end only, so the motors at both ends are those that are wired wrong. -/
theorem ambiguous_eq (s : Simulator α) : s.limits.ambiguous = s.miswired := by
  ext id
  unfold limits Limits.ambiguous
  simp only [MotorSet.mem_inter, MotorSet.mem_union, MotorSet.mem_ofList, List.mem_map,
    List.mem_filter, Prod.exists, mem_motors, Bool.and_eq_true, beq_iff_eq, exists_and_right,
    exists_eq_right]
  refine ⟨?_, fun hid => ⟨.inr hid, .inr hid⟩⟩
  rintro ⟨⟨⟨p, hp, -, hpositive⟩, -⟩ | hid, ⟨⟨q, hq, -, hnegative⟩, -⟩ | hid⟩
  · obtain rfl : p = q := Option.some.inj (hp.symm.trans hq)
    rw [hpositive] at hnegative
    cases hnegative
  · exact hid
  · exact hid
  · exact hid

/-- A motor that is wired wrong is seen before anything moves. -/
theorem miswired_of_ambiguous (h : s.limits.ambiguous = ∅) : s.miswired = ∅ :=
  s.ambiguous_eq.symm.trans h

theorem ambiguous_of_miswired (h : s.miswired = ∅) : s.limits.ambiguous = ∅ :=
  s.ambiguous_eq.trans h

omit [Scalar α] in
theorem mem_homeable {axes : AxisSet} : id ∈ s.homeable axes ↔
    id.axis ∈ axes ∧ ∃ p, s.motor? id = some p ∧ p.homes = true := by
  unfold homeable
  simp only [MotorSet.mem_ofList, List.mem_map, List.mem_filter, Prod.exists, mem_motors,
    Bool.and_eq_true, decide_eq_true_eq, exists_and_right, exists_eq_right]
  constructor
  · rintro ⟨⟨p, hp, hhomes, haxis⟩, -⟩
    exact ⟨haxis, p, hp, hhomes⟩
  · rintro ⟨haxis, p, hp, hhomes⟩
    exact ⟨⟨p, hp, hhomes, haxis⟩, AxisSet.lt_of_mem haxis⟩

/-! ## A tick -/

/-- The part of its length that a move goes in its next tick. -/
def fraction (s : Simulator α) (mv : ActiveMove α) : α :=
  if Scalar.lt 0.0 mv.length then (tickLength s.tickMs mv).1 / mv.length else 0.0

/-- What the next tick of a move does to each axis. -/
def stepped (s : Simulator α) (mv : ActiveMove α) : List (SimAxis α × Bool) :=
  s.axes.zipIdx.map fun e =>
    e.1.step mv.overrides mv.approach (mv.deltaOn e.2) (s.fraction mv) e.2

theorem axes_tick (mv : ActiveMove α) (n : Nat) : (s.tick mv).1.axes[n]? = (s.axes[n]?).map fun a =>
    (a.step mv.overrides mv.approach (mv.deltaOn n) (s.fraction mv) n).1 := by
  have haxes : (s.tick mv).1.axes = (s.stepped mv).map (·.1) := by
    unfold tick stepped fraction ActiveMove.deltaOn
    dsimp only
    split <;> rfl
  rw [haxes, stepped, List.map_map, List.getElem?_map, List.getElem?_zipIdx, Option.map_map]
  simp [Function.comp_def]

/-- A tick either ends the move, and stops the step generator with it, or leaves the
rest of it to go. -/
theorem tick_cases (mv : ActiveMove α) :
    ((tickLength s.tickMs mv).2 = true ∧ (s.tick mv).1.active = none ∧
      (s.tick mv).1.running = false) ∨
    ((tickLength s.tickMs mv).2 = false ∧ (s.tick mv).1.running = s.running ∧
      (s.tick mv).1.active = some { mv with
        travelled := mv.travelled + (tickLength s.tickMs mv).1, ticks := mv.ticks + 1 }) := by
  unfold tick
  cases hend : (tickLength s.tickMs mv).2 with
  | true => exact .inl ⟨rfl, by simp [hend], by simp [hend]⟩
  | false => exact .inr ⟨rfl, by simp [hend], by simp [hend]⟩

/-- The signals that wait in the next tick of a move, before its end adds one. -/
def raised (s : Simulator α) (mv : ActiveMove α) : Signals :=
  if mv.ticks + 1 = 1 then s.raiseScheduled mv.index else s.pending

theorem pending_tick (mv : ActiveMove α) : (s.tick mv).1.pending =
    if (tickLength s.tickMs mv).2 = true ∧ ¬ (mv.approach && !(s.stepped mv).any (·.2)) = true
      then s.raised mv ∪ .stop else s.raised mv := by
  unfold tick stepped raised fraction ActiveMove.deltaOn
  cases hend : (tickLength s.tickMs mv).2 with
  | false => simp [hend]
  | true =>
      simp only [hend, if_true, true_and]
      exact (ite_not _ _ _).symm

/-- A move that ends raises the cycle-stop signal, unless it is an approach in whose
last tick no motor stepped. -/
theorem cycleStop_tick {mv : ActiveMove α} (hend : (tickLength s.tickMs mv).2 = true) :
    (s.tick mv).1.pending.cycleStop = true ∨
      (mv.approach = true ∧ ∀ (n : Nat) a, s.axes[n]? = some a →
        (a.step mv.overrides mv.approach (mv.deltaOn n) (s.fraction mv) n).2 = false) := by
  rw [pending_tick]
  by_cases hstill : (mv.approach && !(s.stepped mv).any (·.2)) = true
  · rw [Bool.and_eq_true, Bool.not_eq_true', stepped, List.any_map, List.any_eq_false] at hstill
    refine .inr ⟨hstill.1, fun n a ha => ?_⟩
    have hnot := hstill.2 (a, n) (List.mk_mem_zipIdx_iff_getElem?.2 ha)
    simpa using hnot
  · left
    rw [if_pos ⟨hend, hstill⟩, Signals.union_def]
    simp [Signals.union, Signals.stop]

omit [Scalar α] in
/-- Signals that are raised are added to those that wait. -/
theorem cycleStop_foldl_union (es : List (Nat × Signals)) (p : Signals) :
    (es.foldl (fun pending e => pending ∪ e.2) p).cycleStop =
      (p.cycleStop || es.any (·.2.cycleStop)) := by
  induction es generalizing p with
  | nil => simp
  | cons e es ih =>
      rw [List.foldl_cons, ih, Signals.union_def, List.any_cons, ← Bool.or_assoc]
      rfl

omit [Scalar α] in
/-- Without a scheduled cycle-stop signal none is added at the start of a tick. -/
theorem cycleStop_raised (hsched : ∀ e ∈ s.scheduled, e.2.cycleStop = false) (mv : ActiveMove α) :
    (s.raised mv).cycleStop = s.pending.cycleStop := by
  unfold raised
  split
  · have hnone : (s.scheduled.filter (·.1 == mv.index)).any (·.2.cycleStop) = false := by
      rw [List.any_eq_false]
      intro e he
      rw [hsched e (List.mem_filter.1 he).1]
      exact Bool.false_ne_true
    rw [raiseScheduled, cycleStop_foldl_union, hnone, Bool.or_false]
  · rfl

/-- A tick that does not end its move raises no cycle-stop signal of its own. -/
theorem cycleStop_tick_of_goes {mv : ActiveMove α} (hend : (tickLength s.tickMs mv).2 = false)
    (hsched : ∀ e ∈ s.scheduled, e.2.cycleStop = false) :
    (s.tick mv).1.pending.cycleStop = s.pending.cycleStop := by
  rw [pending_tick, if_neg (by rw [hend]; simp), cycleStop_raised hsched]

/-- A tick takes no signal away. -/
theorem cycleStop_tick_of_pending (mv : ActiveMove α) (hstop : s.pending.cycleStop = true) :
    (s.tick mv).1.pending.cycleStop = true := by
  have hraised : (s.raised mv).cycleStop = true := by
    unfold raised
    split
    · rw [raiseScheduled, cycleStop_foldl_union, hstop, Bool.true_or]
    · exact hstop
  rw [pending_tick]
  split
  · rw [Signals.union_def]
    simp [Signals.union, hraised]
  · exact hraised

/-! ## What no call changes -/

theorem refill_cases (s : Simulator α) :
    (s.refill.1 = s) ∨ ∃ mv, s.active = some mv ∧ s.running = true ∧ s.refill = s.tick mv := by
  unfold refill
  cases hrunning : s.running with
  | false => exact .inl rfl
  | true =>
      cases hactive : s.active with
      | none => exact .inl rfl
      | some mv => exact .inr ⟨mv, rfl, rfl, rfl⟩

theorem apply_refill_cases (s : Simulator α) : (apply .refill s).1 = s ∨
    ∃ mv, s.active = some mv ∧ (apply .refill s).1 = (s.tick mv).1 :=
  (refill_cases s).imp id fun ⟨mv, hactive, _, h⟩ => ⟨mv, hactive, congrArg Prod.fst h⟩

/-- A refill changes where the axes stand, the motion and the signals that wait. -/
theorem refill_frame (s : Simulator α) : ∃ axes active running pending,
    (apply .refill s).1 = { s with axes, active, running, pending } := by
  rcases apply_refill_cases s with h | ⟨mv, -, h⟩
  · exact ⟨s.axes, s.active, s.running, s.pending, h⟩
  · refine ⟨(s.tick mv).1.axes, (s.tick mv).1.active, (s.tick mv).1.running,
      (s.tick mv).1.pending, h.trans ?_⟩
    unfold tick
    dsimp only
    split <;> rfl

theorem fixed_tick (s : Simulator α) (mv : ActiveMove α) : (s.tick mv).1.tickMs = s.tickMs ∧
    (s.tick mv).1.scheduled = s.scheduled ∧ (s.tick mv).1.miswired = s.miswired := by
  unfold tick
  dsimp only
  split <;> exact ⟨rfl, rfl, rfl⟩

/-- The tick, the schedule and the faults of wiring are there from the start. -/
theorem fixed_apply (c : Call α) (s : Simulator α) : (apply c s).1.tickMs = s.tickMs ∧
    (apply c s).1.scheduled = s.scheduled ∧ (apply c s).1.miswired = s.miswired := by
  cases c with
  | refill =>
      obtain ⟨_, _, _, _, h⟩ := refill_frame s
      rw [h]
      exact ⟨rfl, rfl, rfl⟩
  | _ => exact ⟨rfl, rfl, rfl⟩

/-- A call that is neither a refill nor sets the step counter of an axis leaves the
axis as it is. -/
theorem axes_apply {c : Call α} (hc : c ≠ .refill) {n : Nat} (hn : ∀ steps, c ≠ .setSteps n steps) :
    (apply c s).1.axes[n]? = s.axes[n]? := by
  cases c with
  | refill => exact absurd rfl hc
  | setSteps k steps =>
      have haxes : (apply (.setSteps k steps) s).1.axes = s.axes.modify k (·.setSteps steps) := rfl
      have hk : k ≠ n := fun h => hn steps (by rw [h])
      rw [haxes, List.getElem?_modify_ne _ _ hk]
  | _ => rfl

/-! ## The calls of a move -/

/-- A simulator differs from another in what no motion depends on, and has no signal
of the end of a motion that the other one has not. -/
structure Keeps (s t : Simulator α) : Prop where
  axes : t.axes = s.axes
  active : t.active = s.active
  tickMs : t.tickMs = s.tickMs
  scheduled : t.scheduled = s.scheduled
  cycleStop : t.pending.cycleStop = true → s.pending.cycleStop = true

omit [Scalar α] in
theorem Keeps.motor? {s t : Simulator α} (h : Keeps s t) (id : Motor) :
    t.motor? id = s.motor? id := by
  unfold Simulator.motor?
  rw [h.axes]

theorem keeps_apply {c : Call α} (hc : c.InMove) (hne : c ≠ .refill) (s : Simulator α) :
    Keeps s (apply c s).1 := by
  have hack (signals : Signals) : (s.pending \ signals).cycleStop = true →
      s.pending.cycleStop = true := by
    rw [Signals.sdiff_def]
    intro h
    simp only [Signals.diff, Bool.and_eq_true] at h
    exact h.1
  rcases hc with hc | rfl
  · cases hc with
    | refill => exact absurd rfl hne
    | status => exact ⟨rfl, rfl, rfl, rfl, hack .status⟩
    | stop => exact ⟨rfl, rfl, rfl, rfl, hack .stop⟩
    | report => exact ⟨rfl, rfl, rfl, rfl, id⟩
    | poll => exact ⟨rfl, rfl, rfl, rfl, id⟩
  · exact ⟨rfl, rfl, rfl, rfl, id⟩

/-- What a tick of the move in progress keeps, and what depends on the motion alone,
the calls of a move keep. -/
theorem after_inMove {P : Simulator α → Prop} {cs : List (Call α)} {s : Simulator α}
    (hcs : ∀ c ∈ cs, c.InMove) (hs : P s)
    (htick : ∀ y mv, P y → y.active = some mv → P (y.tick mv).1)
    (hkeep : ∀ y z, P y → Keeps y z → P z) : P (Machine.after cs s) := by
  refine Machine.after_induction hs fun c hc y hy => ?_
  by_cases hrefill : c = .refill
  · subst hrefill
    show P (apply .refill y).1
    rcases apply_refill_cases y with h | ⟨mv, hactive, h⟩
    · rw [h]
      exact hy
    · rw [h]
      exact htick y mv hy hactive
  · exact hkeep y _ hy (keeps_apply (hcs c hc) hrefill y)

end Simulator

end Homing
