import Homing.Machine
import Homing.Simulator.Motor

/-!
# The simulated machine

`Simulator` is a machine without hardware. Each refill of the step buffer
advances the move in progress by one tick at its feed rate. In an approach every
motor halts on its own switch while the others go on, which is how the two motors
of an axis get square. A move that comes to its end raises the cycle-stop signal,
unless it is an approach in whose last tick no motor stepped any more.

Faults are put in by changing the simulator before it runs: a switch that is
missing or stuck, a motor wired to both limits, and signals that are raised at the
first tick of a chosen move.
-/

namespace Homing

variable {α : Type u}

/-- A move in progress. -/
structure ActiveMove (α : Type u) where
  /-- How many moves were handed over before this one. -/
  index : Nat
  /-- The displacement of each axis over the whole move. -/
  delta : PerAxis α
  length : α
  travelled : α
  feedRate : α
  approach : Bool
  overrides : Overrides
  ticks : Nat

/-- What has happened to a simulator so far. -/
structure SimTotals (α : Type u) where
  /-- Every move that was handed over, in order. -/
  moves : List (Move α) := []
  /-- The milliseconds that were waited. -/
  dwell : Nat := 0
  statusReports : Nat := 0
  motionResets : Nat := 0
  dispatches : Nat := 0
  polls : Nat := 0
  /-- The axes that left homing mode each time, and whether they were homed. -/
  exits : List (AxisSet × Bool) := []

/-- A simulated machine. -/
structure Simulator (α : Type u) where
  axes : List (SimAxis α)
  /-- The milliseconds of one tick. -/
  tickMs : α
  active : Option (ActiveMove α)
  running : Bool
  state : MachineState
  alarm : Option Alarm
  pending : Signals
  /-- The axes in homing mode. -/
  homing : AxisSet
  /-- The motors that report both limits. -/
  miswired : MotorSet
  /-- The signals to raise at the first tick of a move, by its index. -/
  scheduled : List (Nat × Signals)
  totals : SimTotals α

namespace Simulator

variable [Scalar α]

/-- The milliseconds of a tick, where nothing else is asked for. -/
def defaultTickMs : α := 1.0

/-- The simulator of a machine. At most `maxAxes` axes are simulated. -/
def ofSettings (m : MachineSettings α) : Simulator α where
  axes := (m.axes.take maxAxes).map .ofSettings
  tickMs := defaultTickMs
  active := none
  running := false
  state := .idle
  alarm := none
  pending := ∅
  homing := ∅
  miswired := ∅
  scheduled := []
  totals := {}

/-- The simulator with one axis changed, if it has it. -/
def modifyAxis (n : Nat) (f : SimAxis α → SimAxis α) (s : Simulator α) : Simulator α :=
  { s with axes := s.axes.modify n f }

/-- The simulator with one motor changed, if it has it. -/
def modifyMotor (id : Motor) (f : SimMotor α → SimMotor α) (s : Simulator α) : Simulator α :=
  s.modifyAxis id.axis (·.modifyMotor id.side f)

/-- The motor of a simulator. -/
def motor? (s : Simulator α) (id : Motor) : Option (SimMotor α) :=
  s.axes[id.axis]?.bind (·.motor? id.side)

/-! ## Faults and starting points -/

/-- Change the length of a tick. A length that is not positive is passed over. -/
def withTickMs (ms : α) (s : Simulator α) : Simulator α :=
  if Scalar.lt 0.0 ms then { s with tickMs := ms } else s

/-- Put every switch of an axis a distance from zero, along its homing
direction. -/
def withSwitchDistance (n : Nat) (distance : α) (s : Simulator α) : Simulator α :=
  s.modifyAxis n fun a =>
    { a with motors := a.motors.map fun m => { m with switchAt := m.towardSwitch distance } }

/-- Move the secondary switch of an axis further along the homing direction. -/
def withSkew (n : Nat) (skew : α) (s : Simulator α) : Simulator α :=
  s.modifyMotor ⟨n, .secondary⟩ fun m => { m with switchAt := m.switchAt + m.towardSwitch skew }

/-- Take the switch of a motor away. -/
def withMissingSwitch (id : Motor) (s : Simulator α) : Simulator α :=
  s.modifyMotor id fun m => { m with hasSwitch := false }

/-- Make the switch of a motor read as tripped for ever. -/
def withStuckLimit (id : Motor) (s : Simulator α) : Simulator α :=
  s.modifyMotor id fun m => { m with stuck := true }

/-- Report a motor at both limits. -/
def withMiswiredLimit (id : Motor) (s : Simulator α) : Simulator α :=
  { s with miswired := s.miswired.insert id }

/-- Put every motor of an axis on its switch. -/
def withStartOnSwitch (n : Nat) (s : Simulator α) : Simulator α :=
  s.modifyAxis n fun a =>
    { a with motors := a.motors.map fun m => { m with position := m.switchAt } }

/-- Set the step counter of an axis. -/
def withSteps (n : Nat) (steps : Int) (s : Simulator α) : Simulator α :=
  s.modifyAxis n (·.setSteps steps)

/-- Raise signals at the first tick of the move of an index. -/
def withSignalAt (index : Nat) (signals : Signals) (s : Simulator α) : Simulator α :=
  { s with scheduled := s.scheduled ++ [(index, signals)] }

/-- Start in a global state. -/
def withState (state : MachineState) (s : Simulator α) : Simulator α := { s with state }

/-! ## What can be read off -/

/-- The motors that stand still in the move in progress. -/
def blocked (s : Simulator α) : MotorSet :=
  match s.active with
  | some mv => mv.overrides.blocked
  | none => ∅

/-- The position that an axis was commanded to. -/
def axisPosition? (s : Simulator α) (n : Nat) : Option α := s.axes[n]?.map (·.position)

/-- The physical position of a motor. -/
def motorPosition? (s : Simulator α) (id : Motor) : Option α := (s.motor? id).map (·.position)

/-- How far a motor is from its switch. -/
def distanceToSwitch? (s : Simulator α) (id : Motor) : Option α :=
  (s.motor? id).map (·.distanceToSwitch)

/-- Every motor of a simulator. -/
def motors (s : Simulator α) : List (Motor × SimMotor α) :=
  s.axes.zipIdx.flatMap fun (a, n) => a.sides.map fun (side, m) => (⟨n, side⟩, m)

/-- The motors that stand on a switch, at the end where the switch is. A motor
that is wired wrong stands at both ends. -/
def limits (s : Simulator α) : Limits :=
  let on (positive : Bool) :=
    MotorSet.ofList ((s.motors.filter fun (_, m) =>
      m.limitActive && m.positive == positive).map (·.1))
  { positive := on true ∪ s.miswired, negative := on false ∪ s.miswired }

/-- The step counter of an axis, zero for one that there is not. -/
def steps (s : Simulator α) (n : Nat) : Int :=
  match s.axes[n]? with
  | some a => a.steps
  | none => 0

/-- The motors of axes that take part in homing. -/
def homeable (s : Simulator α) (axes : AxisSet) : MotorSet :=
  .ofList ((s.motors.filter fun (id, m) => m.homes && decide (id.axis ∈ axes)).map (·.1))

/-! ## Moving -/

/-- Take over a move. It starts where the axes were commanded to. -/
def submit (move : Move α) (s : Simulator α) : Simulator α × List (Note α) :=
  let delta : PerAxis α := .ofFn fun i =>
    match s.axes[i.val]? with
    | some a => move.target[i] - a.position
    | none => 0.0
  let length := Scalar.sqrt (delta.toList.foldl (fun sum d => sum + d * d) 0.0)
  let index := s.totals.moves.length
  ({ s with
      active := some {
        index, delta, length, travelled := 0.0, feedRate := move.feedRate,
        approach := move.approach, overrides := move.overrides, ticks := 0 }
      totals := { s.totals with moves := s.totals.moves ++ [move] } },
    [.moveBegins index length move.feedRate move.approach])

/-- The signals that are scheduled for a move, with those that wait already. -/
def raiseScheduled (index : Nat) (s : Simulator α) : Signals :=
  (s.scheduled.filter (·.1 == index)).foldl (fun pending e => pending ∪ e.2) s.pending

/-- The distance along the line in one tick, and whether the move is at its end
with it. -/
def tickLength (tickMs : α) (mv : ActiveMove α) : α × Bool :=
  let left := mv.length - mv.travelled
  let distance := mv.feedRate * tickMs / 60000.0
  if Scalar.le left distance then (left, true) else (distance, false)

/-- Advance a move by one tick. -/
def tick (mv : ActiveMove α) (s : Simulator α) : Simulator α × List (Note α) :=
  let ticks := mv.ticks + 1
  let pending := if ticks = 1 then s.raiseScheduled mv.index else s.pending
  let (distance, atEnd) := tickLength s.tickMs mv
  let fraction := if Scalar.lt 0.0 mv.length then distance / mv.length else 0.0
  let stepped := s.axes.zipIdx.map fun (a, n) =>
    a.step mv.overrides mv.approach ((mv.delta[n]?).getD 0.0) fraction n
  let axes := stepped.map (·.1)
  if atEnd then
    let onSwitches := mv.approach && !stepped.any (·.2)
    ({ s with
        axes, active := none, running := false
        pending := if onSwitches then pending else pending ∪ .stop },
      [.moveEnded mv.index ticks onSwitches])
  else
    ({ s with
        axes, pending
        active := some { mv with travelled := mv.travelled + distance, ticks } },
      [])

/-- Advance the move in progress, if the step generator runs. -/
def refill (s : Simulator α) : Simulator α × List (Note α) :=
  match s.running, s.active with
  | true, some mv => s.tick mv
  | _, _ => (s, [])

/-- Drop the move in progress. -/
def stopMotion (s : Simulator α) : Simulator α := { s with active := none, running := false }

/-- Put axes into homing mode. Nothing stays blocked. -/
def enterHoming (axes : AxisSet) (s : Simulator α) : Simulator α :=
  { s with
    homing := s.homing ∪ axes
    active := s.active.map fun mv => { mv with overrides := ⟨∅⟩ } }

/-- Take axes out of homing mode. -/
def exitHoming (axes : AxisSet) (success : Bool) (s : Simulator α) : Simulator α :=
  { s with
    homing := s.homing \ axes
    totals := { s.totals with exits := s.totals.exits ++ [(axes, success)] } }

/-- The simulator after a call. -/
def apply (c : Call α) (s : Simulator α) : Simulator α × List (Note α) :=
  match c with
  | .submit move => s.submit move
  | .refill => s.refill
  | .start => ({ s with running := s.active.isSome }, [])
  | .halt => (s.stopMotion, [])
  | .setSteps n steps => (s.withSteps n steps, [])
  | .enterHoming axes => (s.enterHoming axes, [])
  | .exitHoming axes success => (s.exitHoming axes success, [])
  | .setState state => ({ s with state }, [])
  | .raiseAlarm alarm => ({ s with alarm := some alarm, state := .alarm }, [])
  | .acknowledge signals => ({ s with pending := s.pending \ signals }, [])
  | .reportStatus =>
    ({ s with totals := { s.totals with statusReports := s.totals.statusReports + 1 } }, [])
  | .dwell ms => ({ s with totals := { s.totals with dwell := s.totals.dwell + ms } }, [])
  | .poll => ({ s with totals := { s.totals with polls := s.totals.polls + 1 } }, [])
  | .dispatch =>
    ({ s with
        pending := ∅
        totals := { s.totals with dispatches := s.totals.dispatches + 1 } }, [])
  | .resetMotion =>
    ({ s.stopMotion with
        totals := { s.totals with motionResets := s.totals.motionResets + 1 } }, [])

instance : Machine (Simulator α) α where
  apply := apply
  limits := limits
  steps := steps
  homeable := homeable
  state := state
  pending := pending

end Simulator

end Homing
