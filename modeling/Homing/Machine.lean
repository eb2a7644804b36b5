import Homing.Log.Note
import Homing.Move
import Homing.State

/-!
# Machines

`Machine σ α` is what the homing engine knows of a machine whose state is a `σ`
and whose lengths are `α`s. A machine is changed by nothing but a `Call`, and it
is read through five views of its state: the limit switches, the step counters,
the motors that can home, the global state and the signals that wait.

The engine is written against this class alone. What is proved about it for every
instance holds for real hardware behind such an interface and for
`Homing.Simulator` alike.
-/

namespace Homing

/-- One call that changes a machine. -/
inductive Call (α : Type u) where
  /-- Hand over a move. It passes by the queue of program moves. -/
  | submit (move : Move α)
  /-- Refill the step buffer from the move in progress. -/
  | refill
  /-- Start the step generator. -/
  | start
  /-- Stop stepping at once and empty the step buffer. -/
  | halt
  /-- Overwrite the step counter of an axis. -/
  | setSteps (axis : Nat) (steps : Int)
  /-- Put axes into homing mode. -/
  | enterHoming (axes : AxisSet)
  /-- Leave homing mode, with the axes homed or not. -/
  | exitHoming (axes : AxisSet) (success : Bool)
  | setState (state : MachineState)
  /-- Latch an alarm and enter the alarm state. -/
  | raiseAlarm (alarm : Alarm)
  /-- Clear signals that have been handled. -/
  | acknowledge (signals : Signals)
  /-- Send a status report. -/
  | reportStatus
  /-- Wait a number of milliseconds. -/
  | dwell (ms : Nat)
  /-- Serve the light-weight channels. -/
  | poll
  /-- Handle every real-time event, which clears all signals. -/
  | dispatch
  /-- Stop all motion and forget what is planned. -/
  | resetMotion

/-- A machine with states `σ` and lengths `α`. -/
class Machine (σ : Type u) (α : outParam (Type v)) where
  /-- The state after a call, and what the machine has to say for the log. -/
  apply : Call α → σ → σ × List (Note α)
  /-- The motors that stand on a limit switch. -/
  limits : σ → Limits
  /-- The step counter of an axis. -/
  steps : σ → Nat → Int
  /-- The motors that can home when these axes are put into homing mode. -/
  homeable : σ → AxisSet → MotorSet
  /-- The global state. -/
  state : σ → MachineState
  /-- The signals that wait to be handled. -/
  pending : σ → Signals

end Homing
