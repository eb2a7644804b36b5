import Homing.Log.Level
import Homing.MotorSet
import Homing.Phase
import Homing.Scalar

/-!
# Settings of a machine

`MachineSettings` lists the axes of a machine in the order of their numbers.
Each axis has its travel, its resolution, one or two motors, and, if it homes at
all, a table of homing parameters. Rates are in millimetres a minute, distances
in millimetres and times in milliseconds.

The types hold any values; `MachineSettings.fault?` in `Homing.Settings.Fault`
says which of them describe a machine. The functions here are therefore total
also where a list of motors is empty or too long.
-/

namespace Homing

variable {α : Type u}

/-- How an axis homes. -/
structure HomingSettings (α : Type u) where
  /-- The number of the cycle it homes in. An axis without one homes only when
  it is asked for. -/
  cycle : Option Nat
  /-- The rate of the fast approach. -/
  seekRate : α
  /-- The rate of every other phase. -/
  feedRate : α
  /-- The time to wait after each phase. -/
  settle : Nat
  /-- The switch is at the positive end of the travel. -/
  positiveDirection : Bool
  /-- The position that the axis has once it is homed. -/
  reference : α
  /-- The factor on the travel of the fast approach. -/
  seekScaler : α
  /-- The factor on the travel of the slow approach. -/
  feedScaler : α
deriving DecidableEq

namespace HomingSettings

/-- What an empty table of homing parameters means. -/
def default [Scalar α] : HomingSettings α where
  cycle := none
  seekRate := 200.0
  feedRate := 50.0
  settle := 250
  positiveDirection := true
  reference := 0.0
  seekScaler := 1.1
  feedScaler := 1.1

/-- The rate of a phase. -/
def rate (h : HomingSettings α) (p : Phase) : α := if p.isSeek then h.seekRate else h.feedRate

/-- The factor on the travel of a phase. A pull-off is never scaled. -/
def scaler [Scalar α] (h : HomingSettings α) : Phase → α
  | .fastApproach => h.seekScaler
  | .slowApproach => h.feedScaler
  | _ => 1.0

end HomingSettings

/-- One motor of an axis. -/
structure MotorSettings (α : Type u) where
  /-- How far the motor backs off its switch. -/
  pulloff : α
  /-- The motor has a limit switch and takes part in homing. -/
  limitSwitch : Bool
deriving DecidableEq

/-- What an empty table of a motor means. -/
def MotorSettings.default [Scalar α] : MotorSettings α := ⟨1.0, true⟩

/-- One axis of a machine. -/
structure AxisSettings (α : Type u) where
  /-- The name of the axis, such as a letter. -/
  name : String
  /-- The whole length of the travel. -/
  maxTravel : α
  /-- The number of motor steps in a millimetre. -/
  stepsPerMm : α
  /-- How the axis homes. Without this it never does. -/
  homing : Option (HomingSettings α)
  /-- The primary motor and, on a squared axis, the secondary one. -/
  motors : List (MotorSettings α)
deriving DecidableEq

namespace AxisSettings

/-- The motor on one side of the axis. -/
def motor? (a : AxisSettings α) (side : Side) : Option (MotorSettings α) := a.motors[side.index]?

/-- Whether the axis is driven by two motors. -/
def isSquared (a : AxisSettings α) : Bool := a.motors.length == maxMotorsPerAxis

/-- The pull-off that every motor of the axis can make: the smallest one. -/
def commonPulloff [Scalar α] (a : AxisSettings α) : α :=
  match a.motors.map (·.pulloff) with
  | [] => 0.0
  | p :: ps => ps.foldl Scalar.min p

/-- How much further the secondary motor backs off than the primary one. An axis
with one motor has no such difference. -/
def extraPulloff [Scalar α] (a : AxisSettings α) : α :=
  match a.motor? .primary, a.motor? .secondary with
  | some m, some n => n.pulloff - m.pulloff
  | _, _ => 0.0

/-- The step count of a position. -/
def stepsAt [Scalar α] (a : AxisSettings α) (position : α) : Int :=
  Scalar.round (position * a.stepsPerMm)

/-- The position of a step count. -/
def positionAt [Scalar α] (a : AxisSettings α) (steps : Int) : α :=
  Scalar.ofInt steps / a.stepsPerMm

/-- The lowest and the highest position of the axis. The reference position is
at the end of the travel that the switch is on. -/
def travelLimits [Scalar α] (a : AxisSettings α) : α × α :=
  let (reference, positive) :=
    match a.homing with
    | some h => (h.reference, h.positiveDirection)
    | none => (0.0, true)
  if positive then (reference - a.maxTravel, reference) else (reference, reference + a.maxTravel)

end AxisSettings

/-- A whole machine. -/
structure MachineSettings (α : Type u) where
  /-- The least level of the log lines that are shown. -/
  logLevel : Level
  /-- The axes in the order of their numbers. -/
  axes : List (AxisSettings α)
deriving DecidableEq

namespace MachineSettings

/-- The axes that satisfy a test. Axes at or above `maxAxes` are passed over. -/
def axesWhere (m : MachineSettings α) (test : AxisSettings α → Bool) : AxisSet :=
  .ofList ((m.axes.zipIdx.filter (test ·.1)).map (·.2))

theorem mem_axesWhere {m : MachineSettings α} {test : AxisSettings α → Bool} {n : Nat} :
    n ∈ m.axesWhere test ↔ n < maxAxes ∧ ∃ a, m.axes[n]? = some a ∧ test a = true := by
  simp only [axesWhere, AxisSet.mem_ofList, List.mem_map, List.mem_filter, Prod.exists,
    List.mem_zipIdx_iff_getElem?, exists_eq_right]
  exact And.comm

/-- The axes that home at all. -/
def homingAxes (m : MachineSettings α) : AxisSet := m.axesWhere (·.homing.isSome)

/-- The axes that home in the cycle of a number. -/
def axesInCycle (m : MachineSettings α) (cycle : Nat) : AxisSet :=
  m.axesWhere fun a => a.homing.any (·.cycle == some cycle)

end MachineSettings

end Homing
