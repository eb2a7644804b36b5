import Homing.Proofs.Simulator.Views

/-!
# The build of a simulator

`BuiltFrom m s` says that the simulator `s` has the axes and motors that the settings
`m` describe. Where the motors, their switches and the step counters stand, which
switches are missing or stuck, and what moves, is left open. It holds of every
simulator that can be set up for the settings, and no call takes it away
(`builtFrom_of_setUp`).
-/

namespace Homing

variable {α : Type u} [Scalar α]

namespace SimAxis

variable {a : SimAxis α} {overrides : Overrides} {approach : Bool} {delta fraction : α} {n : Nat}

/-- What no tick changes of an axis: its steps for a millimetre and, for each motor,
the end that its switch is at and whether it homes. -/
def build (a : SimAxis α) : α × List (Bool × Bool) :=
  (a.stepsPerMm, a.motors.map fun p => (p.positive, p.homes))

theorem build_step (hmotors : a.motors.length ≤ maxMotorsPerAxis) :
    (a.step overrides approach delta fraction n).1.build = a.build := by
  unfold step
  split
  · rfl
  · have hsides : a.sides.map (·.2) = a.motors := List.map_snd_zip hmotors
    unfold build
    dsimp only
    rw [← hsides, List.map_map, List.map_map, List.map_map]
    refine congrArg (Prod.mk _) (List.map_congr_left fun e _ => ?_)
    dsimp only [Function.comp]
    cases motorTravel overrides approach (delta * fraction) ⟨n, e.1⟩ e.2 <;> rfl

/-- A motor of an axis that homes, with its switch half the travel away. -/
theorem motor?_ofSettings {b : AxisSettings α} {h : HomingSettings α} (hh : b.homing = some h)
    {side : Side} {mo : MotorSettings α} (hmo : b.motor? side = some mo) :
    (ofSettings b).motor? side = some
      { position := 0.0
        switchAt := if h.positiveDirection then b.maxTravel / 2.0 else -(b.maxTravel / 2.0)
        positive := h.positiveDirection, hasSwitch := mo.limitSwitch, stuck := false
        homes := mo.limitSwitch } := by
  have hside : side.index < maxMotorsPerAxis := by cases side <;> decide
  have hget : b.motors[side.index]? = some mo := hmo
  unfold ofSettings motor?
  rw [hh, List.getElem?_map, List.getElem?_take_of_lt hside, hget]
  rfl

omit [Scalar α] in
theorem homes_of_build {a b : SimAxis α} (h : a.build = b.build) (side : Side) :
    (a.motor? side).map (·.homes) = (b.motor? side).map (·.homes) := by
  have hmotors := congrArg (fun e => e.2.map Prod.snd) h
  simp only [SimAxis.build, List.map_map] at hmotors
  unfold SimAxis.motor?
  rw [← List.getElem?_map, ← List.getElem?_map]
  exact congrArg (·[side.index]?) hmotors

omit [Scalar α] in
/-- Changes of the motors that keep their ends and whether they home keep the build. -/
theorem build_map (f : SimMotor α → SimMotor α)
    (hf : ∀ p, (f p).positive = p.positive ∧ (f p).homes = p.homes) (a : SimAxis α) :
    { a with motors := a.motors.map f }.build = a.build := by
  unfold build
  dsimp only
  rw [List.map_map]
  refine congrArg (Prod.mk _) (List.map_congr_left fun p _ => ?_)
  dsimp only [Function.comp]
  rw [(hf p).1, (hf p).2]

omit [Scalar α] in
theorem build_modifyMotor (side : Side) (f : SimMotor α → SimMotor α)
    (hf : ∀ p, (f p).positive = p.positive ∧ (f p).homes = p.homes) (a : SimAxis α) :
    (a.modifyMotor side f).build = a.build := by
  unfold build modifyMotor
  refine congrArg (Prod.mk _) (List.ext_getElem? fun i => ?_)
  rw [List.getElem?_map, List.getElem?_map, List.getElem?_modify]
  cases a.motors[i]? with
  | none => rfl
  | some p =>
      rw [Option.map_eq_map, Option.map_some, Option.map_some, Option.map_some]
      split
      · rw [(hf p).1, (hf p).2]
      · rfl

end SimAxis

namespace Simulator

variable {s : Simulator α} {id : Motor}

/-- The simulator has the axes of the one that the settings describe, with as many
steps for a millimetre, as many motors, their switches at the same ends and the same
motors to home. Where the motors and their switches stand, and which switches are
missing or stuck, is left open. -/
structure BuiltFrom (m : MachineSettings α) (s : Simulator α) : Prop where
  tick : Scalar.lt 0.0 s.tickMs = true
  axis : ∀ n : Nat, (s.axes[n]?).map SimAxis.build = ((ofSettings m).axes[n]?).map SimAxis.build

variable {m : MachineSettings α}

theorem BuiltFrom.length_motors_le (hs : BuiltFrom m s) {n : Nat} {a : SimAxis α}
    (ha : s.axes[n]? = some a) : a.motors.length ≤ maxMotorsPerAxis := by
  have hbuild := hs.axis n
  rw [ha, Option.map_some, eq_comm, Option.map_eq_some_iff] at hbuild
  obtain ⟨b, hb, hba⟩ := hbuild
  have hlength : b.motors.length = a.motors.length := by
    simpa [SimAxis.build] using congrArg (fun e => e.2.length) hba
  rw [← hlength]
  unfold ofSettings at hb
  rw [List.getElem?_map, Option.map_eq_some_iff] at hb
  obtain ⟨c, -, rfl⟩ := hb
  simp only [SimAxis.ofSettings, List.length_map, List.length_take]
  exact Nat.min_le_left _ _

/-- A call does not rebuild a simulator. -/
theorem BuiltFrom.apply (hs : BuiltFrom m s) (c : Call α) :
    BuiltFrom m (Simulator.apply c s).1 := by
  refine ⟨by rw [(fixed_apply c s).1]; exact hs.tick, fun n => ?_⟩
  by_cases hc : c = .refill
  · subst hc
    rcases apply_refill_cases s with h | ⟨mv, -, h⟩
    · rw [h]
      exact hs.axis n
    · rw [h, axes_tick, ← hs.axis n, Option.map_map]
      cases ha : s.axes[n]? with
      | none => rfl
      | some a => exact congrArg some (SimAxis.build_step (hs.length_motors_le ha))
  · by_cases hsteps : ∃ steps, c = .setSteps n steps
    · obtain ⟨steps, rfl⟩ := hsteps
      have haxes : (Simulator.apply (.setSteps n steps) s).1.axes =
          s.axes.modify n (·.setSteps steps) := rfl
      rw [haxes, List.getElem?_modify_eq, ← hs.axis n]
      cases s.axes[n]? <;> rfl
    · rw [axes_apply hc fun steps h => hsteps ⟨steps, h⟩]
      exact hs.axis n

theorem BuiltFrom.after (hs : BuiltFrom m s) (cs : List (Call α)) :
    BuiltFrom m (Machine.after cs s) :=
  Machine.after_induction hs fun c _ _ hy => hy.apply c

theorem BuiltFrom.axis_of_settings (hs : BuiltFrom m s) {n : Nat} (hlt : n < maxAxes)
    {a : AxisSettings α} (ha : m.axes[n]? = some a) :
    ∃ b, s.axes[n]? = some b ∧ b.build = (SimAxis.ofSettings a).build := by
  have hbuild := hs.axis n
  have hfresh : (ofSettings m).axes[n]? = some (.ofSettings a) := by
    unfold ofSettings
    rw [List.getElem?_map, List.getElem?_take_of_lt hlt, ha]
    rfl
  rw [hfresh, Option.map_some, Option.map_eq_some_iff] at hbuild
  exact hbuild

theorem BuiltFrom.axis_none (hs : BuiltFrom m s) {n : Nat} (ha : m.axes[n]? = none) :
    s.axes[n]? = none := by
  have hbuild := hs.axis n
  have hfresh : (ofSettings m).axes[n]? = none := by
    unfold ofSettings
    rw [List.getElem?_map, List.getElem?_take]
    split
    · rw [ha]
      rfl
    · rfl
  rw [hfresh, Option.map_none, Option.map_eq_none_iff] at hbuild
  exact hbuild

/-- The motors of an axis that homes have their switches at the end that it homes to,
and those with a switch of their own take part. -/
theorem BuiltFrom.motor (hs : BuiltFrom m s) {n : Nat} (hlt : n < maxAxes) {a : AxisSettings α}
    (ha : m.axes[n]? = some a) {h : HomingSettings α} (hh : a.homing = some h) (side : Side) :
    (s.motor? ⟨n, side⟩).map (fun p => (p.positive, p.homes)) =
      (a.motor? side).map fun mo => (h.positiveDirection, mo.limitSwitch) := by
  obtain ⟨b, hb, hbuild⟩ := hs.axis_of_settings hlt ha
  have hmotors : b.motors.map (fun p => (p.positive, p.homes)) =
      (a.motors.take maxMotorsPerAxis).map fun mo => (h.positiveDirection, mo.limitSwitch) := by
    refine (congrArg Prod.snd hbuild).trans ?_
    unfold SimAxis.ofSettings SimAxis.build
    rw [hh, List.map_map]
    rfl
  have hside : side.index < maxMotorsPerAxis := by cases side <;> decide
  have hmotor : s.motor? ⟨n, side⟩ = b.motors[side.index]? := by
    unfold Simulator.motor?
    rw [hb]
    rfl
  rw [hmotor, ← List.getElem?_map, hmotors, List.getElem?_map, List.getElem?_take_of_lt hside]
  rfl

/-- A motor with a switch of its own takes part when its axis homes. -/
theorem BuiltFrom.mem_homeable_of_switch (hs : BuiltFrom m s) {axes : AxisSet} {n : Nat}
    (hn : n ∈ axes) {a : AxisSettings α} (ha : m.axes[n]? = some a) {h : HomingSettings α}
    (hh : a.homing = some h)
    (hall : ∀ mo ∈ a.motors, mo.limitSwitch = true) {side : Side}
    (hside : (a.motor? side).isSome = true) : ⟨n, side⟩ ∈ s.homeable axes := by
  obtain ⟨mo, hmo⟩ := Option.isSome_iff_exists.1 hside
  have hmotor := hs.motor (AxisSet.lt_of_mem hn) ha hh side
  rw [hmo, Option.map_some, Option.map_eq_some_iff] at hmotor
  obtain ⟨p, hp, heq⟩ := hmotor
  refine mem_homeable.2 ⟨hn, p, hp, (congrArg Prod.snd heq).trans ?_⟩
  exact hall mo (List.mem_of_getElem? hmo)

/-- Simulators of one machine have the same motors to home. -/
theorem BuiltFrom.homeable_eq {t : Simulator α} (hs : BuiltFrom m s) (ht : BuiltFrom m t)
    (axes : AxisSet) : s.homeable axes = t.homeable axes := by
  have hhomes (id : Motor) : (s.motor? id).map (·.homes) = (t.motor? id).map (·.homes) := by
    have hbuild := (hs.axis id.axis).trans (ht.axis id.axis).symm
    unfold Simulator.motor?
    cases ha : s.axes[id.axis]? with
    | none =>
        rw [ha, Option.map_none, eq_comm, Option.map_eq_none_iff] at hbuild
        rw [hbuild]
    | some a =>
        rw [ha, Option.map_some, eq_comm, Option.map_eq_some_iff] at hbuild
        obtain ⟨b, hb, hba⟩ := hbuild
        rw [hb]
        exact SimAxis.homes_of_build hba.symm id.side
  ext id
  have hiff : (∃ p, s.motor? id = some p ∧ p.homes = true) ↔
      ∃ p, t.motor? id = some p ∧ p.homes = true := by
    rw [← Option.map_eq_some_iff, hhomes, Option.map_eq_some_iff]
  rw [mem_homeable, mem_homeable, hiff]

/-! ## Simulators that can be set up -/

/-- The simulators that can be set up for a machine: the one of its settings, after any
changes of it and any calls. -/
inductive SetUp (m : MachineSettings α) : Simulator α → Prop
  | settings : SetUp m (ofSettings m)
  | tickMs {s : Simulator α} (ms : α) : SetUp m s → SetUp m (s.withTickMs ms)
  | switchDistance {s : Simulator α} (n : Nat) (distance : α) :
      SetUp m s → SetUp m (s.withSwitchDistance n distance)
  | skew {s : Simulator α} (n : Nat) (skew : α) : SetUp m s → SetUp m (s.withSkew n skew)
  | missingSwitch {s : Simulator α} (id : Motor) : SetUp m s → SetUp m (s.withMissingSwitch id)
  | stuckLimit {s : Simulator α} (id : Motor) : SetUp m s → SetUp m (s.withStuckLimit id)
  | miswiredLimit {s : Simulator α} (id : Motor) : SetUp m s → SetUp m (s.withMiswiredLimit id)
  | startOnSwitch {s : Simulator α} (n : Nat) : SetUp m s → SetUp m (s.withStartOnSwitch n)
  | steps {s : Simulator α} (n : Nat) (steps : Int) : SetUp m s → SetUp m (s.withSteps n steps)
  | signalAt {s : Simulator α} (index : Nat) (signals : Signals) :
      SetUp m s → SetUp m (s.withSignalAt index signals)
  | state {s : Simulator α} (state : MachineState) : SetUp m s → SetUp m (s.withState state)
  | call {s : Simulator α} (c : Call α) : SetUp m s → SetUp m (Simulator.apply c s).1

theorem SetUp.after (hs : SetUp m s) (cs : List (Call α)) : SetUp m (Machine.after cs s) :=
  Machine.after_induction hs fun c _ _ hy => .call c hy

theorem BuiltFrom.modifyAxis (hs : BuiltFrom m s) (n : Nat) {f : SimAxis α → SimAxis α}
    (hf : ∀ a, (f a).build = a.build) : BuiltFrom m (s.modifyAxis n f) := by
  refine ⟨hs.tick, fun k => ?_⟩
  have haxes : (s.modifyAxis n f).axes = s.axes.modify n f := rfl
  rw [haxes, ← hs.axis k, List.getElem?_modify]
  cases s.axes[k]? with
  | none => rfl
  | some a =>
      rw [Option.map_eq_map, Option.map_some, Option.map_some, Option.map_some]
      split
      · rw [hf]
      · rfl

theorem builtFrom_of_setUp (htick : Scalar.lt 0.0 (defaultTickMs : α) = true) (h : SetUp m s) :
    BuiltFrom m s := by
  induction h with
  | settings => exact ⟨htick, fun _ => rfl⟩
  | @tickMs s ms _ ih =>
      unfold withTickMs
      split
      · rename_i hms
        exact ⟨hms, ih.axis⟩
      · exact ih
  | switchDistance n _ _ ih =>
      exact ih.modifyAxis n (SimAxis.build_map _ fun _ => ⟨rfl, rfl⟩)
  | skew n _ _ ih =>
      exact ih.modifyAxis n (SimAxis.build_modifyMotor _ _ fun _ => ⟨rfl, rfl⟩)
  | missingSwitch id _ ih =>
      exact ih.modifyAxis id.axis (SimAxis.build_modifyMotor _ _ fun _ => ⟨rfl, rfl⟩)
  | stuckLimit id _ ih =>
      exact ih.modifyAxis id.axis (SimAxis.build_modifyMotor _ _ fun _ => ⟨rfl, rfl⟩)
  | miswiredLimit _ _ ih => exact ⟨ih.tick, ih.axis⟩
  | startOnSwitch n _ ih => exact ih.modifyAxis n (SimAxis.build_map _ fun _ => ⟨rfl, rfl⟩)
  | steps n _ _ ih => exact ih.modifyAxis n fun _ => rfl
  | signalAt _ _ _ ih => exact ⟨ih.tick, ih.axis⟩
  | state _ _ ih => exact ⟨ih.tick, ih.axis⟩
  | call c _ ih => exact ih.apply c

end Simulator

end Homing
