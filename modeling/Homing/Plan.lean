import Homing.Log.Note
import Homing.Move
import Homing.Settings.Basic

/-!
# The plan of a phase

In one phase every axis with a participating motor travels at its own rate, and
all of them in one straight line. `shares` lists what each of these axes
contributes; `PlannedMove.ofShares` puts the contributions together. The rate
along the line is the length of the vector of rates. In the fast approach the
travel of each axis is stretched by its rate over the rate of the limiting axis,
which is the first one with the longest time to travel, so that all axes run for
that time.

The sums and the choice of the limiting axis go through the axes in order, which
is what fixes the result of a binary64 sum.
-/

namespace Homing

variable {α : Type u} [Scalar α]

/-- What one axis contributes to a move. -/
structure Share (α : Type u) where
  axis : Nat
  name : String
  /-- The distance to travel, before it is scaled. -/
  travel : α
  rate : α
  /-- The axis moves along its positive direction. -/
  ascending : Bool
  /-- The factor on the travel. -/
  scaler : α
  settle : Nat
  /-- The motor of the axis that stands still. -/
  blocked : Option Motor

namespace Share

/-- The distance that an axis travels in a phase. The last phase travels the
difference of the two pull-offs. -/
def travelOf (phase : Phase) (a : AxisSettings α) : α :=
  match phase with
  | .fastApproach => a.maxTravel
  | .prePulloff | .pulloff0 | .slowApproach | .pulloff1 => a.commonPulloff
  | .pulloff2 => Scalar.abs a.extraPulloff

/-- The motor that stands still in a phase. In the last phase only the motor
with the longer pull-off moves. -/
def blockedOf (phase : Phase) (axis : Nat) (a : AxisSettings α) : Option Motor :=
  match phase with
  | .pulloff2 =>
    if Scalar.lt a.extraPulloff 0.0 then some ⟨axis, .secondary⟩
    else if Scalar.lt 0.0 a.extraPulloff then some ⟨axis, .primary⟩
    else none
  | _ => none

/-- What an axis contributes to a phase. Toward the switch is along the positive
direction exactly when the switch is at the positive end. -/
def ofAxis (phase : Phase) (axis : Nat) (a : AxisSettings α) (h : HomingSettings α) :
    Share α where
  axis := axis
  name := a.name
  travel := travelOf phase a
  rate := h.rate phase
  ascending := h.positiveDirection == phase.isApproach
  scaler := h.scaler phase
  settle := h.settle
  blocked := blockedOf phase axis a

/-- The signed displacement of an axis, where `limiting` is the rate of the
limiting axis. -/
def displacement (phase : Phase) (limiting : α) (s : Share α) : α :=
  let scaled := (if s.ascending then s.travel else -s.travel) * s.scaler
  if phase.isSeek && Scalar.lt 0.0 limiting then scaled * (s.rate / limiting) else scaled

end Share

/-- What each axis contributes to a phase, in the order of the axes. An axis
takes part when it homes and one of its motors does. -/
def shares (m : MachineSettings α) (motors : MotorSet) (phase : Phase) : List (Share α) :=
  (m.axes.zipIdx.take maxAxes).filterMap fun (a, n) =>
    if n ∈ motors.axes then a.homing.map (Share.ofAxis phase n a) else none

/-- The rate of the limiting axis, or zero where no axis takes any time. -/
def limitingRate (ss : List (Share α)) : α :=
  (ss.foldl (fun (longest, rate) s =>
    let time := s.travel / s.rate
    if Scalar.lt longest time then (time, s.rate) else (longest, rate)) (0.0, 0.0)).2

/-- The move of one phase, as distances from where the axes stand. -/
structure PlannedMove (α : Type u) where
  phase : Phase
  /-- The axes that take part. -/
  axes : AxisSet
  /-- The signed displacement of each axis, zero for one that takes no part. -/
  target : PerAxis α
  /-- The rate of each axis, zero for one that takes no part. -/
  rates : PerAxis α
  /-- The length of the vector of rates. -/
  feedRate : α
  /-- The rate of the axis with the longest time to travel. -/
  limitingRate : α
  /-- The longest time to wait of any axis. -/
  settle : Nat
  overrides : Overrides

/-- One value for each axis: that of the share of the axis, and zero for an axis
without a share. -/
def perAxis (ss : List (Share α)) (value : Share α → α) : PerAxis α :=
  .ofFn fun i => match ss.find? (·.axis == i.val) with
    | some s => value s
    | none => 0.0

/-- The move that shares make together. -/
def PlannedMove.ofShares (phase : Phase) (ss : List (Share α)) : PlannedMove α where
  phase := phase
  axes := .ofList (ss.map (·.axis))
  target := perAxis ss (Share.displacement phase (Homing.limitingRate ss))
  rates := perAxis ss (·.rate)
  feedRate := Scalar.sqrt (ss.foldl (fun sum s => sum + s.rate * s.rate) 0.0)
  limitingRate := Homing.limitingRate ss
  settle := ss.foldl (fun longest s => max longest s.settle) 0
  overrides := (ss.filterMap (·.blocked)).foldl (fun o m => o.block m) ⟨∅⟩

/-- The move of a phase for a set of motors. With no motor the move goes
nowhere, and must not be handed to a machine. -/
def planMove (m : MachineSettings α) (motors : MotorSet) (phase : Phase) : PlannedMove α :=
  .ofShares phase (shares m motors phase)

/-- What a plan puts in the log: the part of each axis, in order. -/
def planNotes (m : MachineSettings α) (motors : MotorSet) (phase : Phase) : List (Note α) :=
  let ss := shares m motors phase
  ss.map fun s => .axisPlanned s.name (s.displacement phase (limitingRate ss)) s.rate

/-- Whether a cycle of these motors has to square an axis: both its motors take
part, and their pull-offs differ. -/
def needsSquaring (m : MachineSettings α) (motors : MotorSet) : Bool :=
  motors.squared.toList.any fun n =>
    m.axes[n]?.any fun a => a.isSquared && !Scalar.eq a.extraPulloff 0.0

/-- The phases of a cycle of these motors, in order. -/
def phasePlan (m : MachineSettings α) (motors : MotorSet) : List Phase :=
  if needsSquaring m motors then Phase.sequence ++ [.pulloff2] else Phase.sequence

end Homing
