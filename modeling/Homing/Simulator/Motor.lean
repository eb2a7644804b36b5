import Homing.Move
import Homing.Settings.Basic

/-!
# Simulated motors and axes

A simulated motor has a position of its own, in millimetres, which the step
counter of its axis knows nothing of, and a switch that trips once the motor is
at or past a trip point. An axis has the position that it was commanded to and
its motors. `SimAxis.step` is what one tick of a move does to an axis.
-/

namespace Homing

variable {α : Type u} [Scalar α]

/-- A motor of the simulator. -/
structure SimMotor (α : Type u) where
  position : α
  /-- The point at which the switch trips. -/
  switchAt : α
  /-- The switch is at the positive end of the travel. -/
  positive : Bool
  /-- The motor has a switch at all. -/
  hasSwitch : Bool
  /-- The switch reads as tripped wherever the motor is. -/
  stuck : Bool
  /-- The motor takes part in homing. -/
  homes : Bool
deriving DecidableEq

namespace SimMotor

/-- Whether the switch reads as tripped. -/
def limitActive (m : SimMotor α) : Bool :=
  m.stuck || (m.hasSwitch &&
    if m.positive then Scalar.le m.switchAt m.position else Scalar.le m.position m.switchAt)

/-- The distance that is left before the switch trips, negative past it. -/
def distanceToSwitch (m : SimMotor α) : α :=
  if m.positive then m.switchAt - m.position else m.position - m.switchAt

/-- A distance measured along the homing direction, as a signed displacement. -/
def towardSwitch (m : SimMotor α) (distance : α) : α := if m.positive then distance else -distance

/-- Move the motor. -/
def advance (distance : α) (m : SimMotor α) : SimMotor α :=
  { m with position := m.position + distance }

end SimMotor

/-- An axis of the simulator. -/
structure SimAxis (α : Type u) where
  stepsPerMm : α
  /-- The position that the axis was commanded to. -/
  position : α
  /-- The primary motor and, on a squared axis, the secondary one. -/
  motors : List (SimMotor α)
deriving DecidableEq

namespace SimAxis

/-- The axis that settings describe, with its motors at zero. The switches of a
homing axis are half its travel away, toward the end that it homes to. -/
def ofSettings (a : AxisSettings α) : SimAxis α where
  stepsPerMm := a.stepsPerMm
  position := 0.0
  motors := (a.motors.take maxMotorsPerAxis).map fun m =>
    match a.homing with
    | some h =>
      let half := a.maxTravel / 2.0
      { position := 0.0, switchAt := if h.positiveDirection then half else -half,
        positive := h.positiveDirection, hasSwitch := m.limitSwitch, stuck := false,
        homes := m.limitSwitch }
    | none =>
      { position := 0.0, switchAt := 0.0, positive := true, hasSwitch := false, stuck := false,
        homes := m.limitSwitch }

/-- The motors of the axis with their sides. -/
def sides (a : SimAxis α) : List (Side × SimMotor α) := Side.all.zip a.motors

/-- The motor on one side of the axis. -/
def motor? (a : SimAxis α) (side : Side) : Option (SimMotor α) := a.motors[side.index]?

/-- The axis with the motor on one side changed, if it has one. -/
def modifyMotor (side : Side) (f : SimMotor α → SimMotor α) (a : SimAxis α) : SimAxis α :=
  { a with motors := a.motors.modify side.index f }

/-- The axis with its position set from a step count. -/
def setSteps (steps : Int) (a : SimAxis α) : SimAxis α :=
  { a with position := Scalar.ofInt steps / a.stepsPerMm }

/-- The step count of the position of the axis. -/
def steps (a : SimAxis α) : Int := Scalar.round (a.position * a.stepsPerMm)

/-- The distance that a motor goes when its axis goes `distance`, or `none` if it
stands still: it is blocked, or it halts on its switch in an approach. -/
def motorTravel (overrides : Overrides) (approach : Bool) (distance : α) (id : Motor)
    (m : SimMotor α) : Option α :=
  let scale : α := overrides.multiplier id
  if Scalar.eq scale 0.0 then none
  else if approach && m.limitActive then none
  else some (distance * scale)

/-- One tick of a move on axis `n`, which goes the given fraction of `delta`. The
second value says whether any motor stepped. -/
def step (overrides : Overrides) (approach : Bool) (delta fraction : α) (n : Nat)
    (a : SimAxis α) : SimAxis α × Bool :=
  if Scalar.eq delta 0.0 then (a, false)
  else
    let distance := delta * fraction
    let moved := a.sides.map fun (side, m) =>
      match motorTravel overrides approach distance ⟨n, side⟩ m with
      | some d => (m.advance d, true)
      | none => (m, false)
    ({ a with position := a.position + distance, motors := moved.map (·.1) }, moved.any (·.2))

end SimAxis

end Homing
