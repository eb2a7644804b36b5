import Homing.Engine.Phase
import Homing.Settings.AxisNames

/-!
# Homing cycles

A cycle puts its axes into homing mode, runs the phases, and gives each axis its
reference position; when a phase fails, it latches the alarm of the failure and
commits nothing. A request is for one cycle of chosen axes or for every numbered
cycle in order, and the first failure ends it. `home` is a request within the
homing state of the machine.
-/

namespace Homing

variable {σ : Type u} {α : Type v} [Machine σ α] [Scalar α]

/-- What to home. -/
inductive Request where
  /-- Every cycle that an axis is in, by number. -/
  | all
  /-- One cycle of exactly these axes. -/
  | axes (set : AxisSet)
deriving DecidableEq

/-- Give one axis its reference position, if it homes. -/
def commitAxis (m : MachineSettings α) (s : Session σ α) (n : Nat) : Session σ α :=
  match m.axes[n]? with
  | none => s
  | some a => match a.homing with
    | none => s
    | some h =>
      let (low, high) := a.travelLimits
      (s.call (.setSteps n (a.stepsAt h.reference))).note
        (.axisHomed a.name h.reference low high)

/-- Give the axes of a cycle their reference positions and leave homing mode.
Every other axis keeps its step counter. -/
def commit (m : MachineSettings α) (axes : AxisSet) (s : Session σ α) : Session σ α :=
  (axes.toList.foldl (commitAxis m) s).call (.exitHoming axes true)

/-- End a cycle that failed. -/
def abandon (axes : AxisSet) (failure : Failure) (s : Session σ α) : Session σ α :=
  let s := (s.setApproaching false).call (.raiseAlarm failure.alarm)
  let s := (s.call (.exitHoming axes false)).note (.failed failure)
  (s.call .resetMotion).call .dispatch

/-- Home axes in one cycle. Axes that never home are left out, and without any
other there is nothing to do. -/
def runCycle (budget : Nat) (m : MachineSettings α) (axes : AxisSet) (s : Session σ α) :
    Outcome Failure σ α :=
  let axes := axes ∩ m.homingAxes
  if axes.isEmpty then some (.ok (), s)
  else
    let motors := Machine.homeable s.machine axes
    let s := s.call (.enterHoming axes)
    let s := if motors.isEmpty then s.note (.noSwitches (m.axisNames axes)) else s
    let s := s.note (.cycleMotors (m.axisNames axes) motors)
    (runPhases budget m motors (phasePlan m motors) s).map fun (result, s) =>
      match result with
      | .error f => (.error f, abandon axes f s)
      | .ok () => (.ok (), commit m axes s)

/-- Run the cycles of these numbers in order, where `found` says whether an
earlier number had any axis. -/
def runNumbered (budget : Nat) (m : MachineSettings α) (found : Bool) :
    List Nat → Session σ α → Outcome HomingError σ α
  | [], s =>
    if found then some (.ok (), s)
    else some (.error .noCycles, (s.note .noCycles).call (.setState .alarm))
  | n :: rest, s =>
    if Machine.state s.machine = .alarm then some (.error .alarmActive, s)
    else
      let axes := m.axesInCycle n
      if axes.isEmpty then runNumbered budget m found rest s
      else match runCycle budget m axes (s.note (.cycleBegins n (m.axisNames axes))) with
        | none => none
        | some (.error f, s) => some (.error (.failed f), s)
        | some (.ok (), s) => runNumbered budget m true rest s

/-- The numbers that a cycle can have. -/
def cycleNumbers : List Nat := List.range' 1 maxAxes

/-- Carry out a request. A motor that reports both its limits refuses it. -/
def runRequest (budget : Nat) (m : MachineSettings α) (request : Request) (s : Session σ α) :
    Outcome HomingError σ α :=
  let ambiguous := (Machine.limits s.machine).ambiguous
  if ambiguous.isEmpty then
    match request with
    | .axes axes =>
      (runCycle budget m axes s).map fun (result, s) => (result.mapError .failed, s)
    | .all => runNumbered budget m false cycleNumbers s
  else
    some (.error .ambiguousLimit,
      (s.note (.ambiguousLimits (m.axisNames ambiguous.axes))).call (.raiseAlarm .hardLimit))

/-- Carry out a request in the homing state, and be idle afterwards if it
succeeds. -/
def home (budget : Nat) (m : MachineSettings α) (request : Request) (machine : σ) :
    Outcome HomingError σ α :=
  (runRequest budget m request ((Session.begin machine).call (.setState .homing))).map
    fun (result, s) =>
      match result with
      | .error e => (.error e, s)
      | .ok () => (.ok (), (s.call (.setState .idle)).note .homingComplete)

end Homing
