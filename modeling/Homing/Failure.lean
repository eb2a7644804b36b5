import Homing.State

/-!
# How homing fails

`Failure` is the way one phase ends badly, and `HomingError` the way a whole
request does. A failure latches an alarm of its own; only the cycle that it
ended turns it into one.
-/

namespace Homing

/-- The bad end of a phase. A phase is never tried again. -/
inductive Failure where
  /-- A reset was asked for. -/
  | reset
  /-- The safety door was opened. -/
  | door
  /-- The move toward the switches ended before every switch was found. -/
  | approach
  /-- A motor stood on its switch when the move away from it ended. -/
  | pulloff
deriving DecidableEq, Repr

namespace Failure

/-- The alarm that a failure latches. -/
def alarm : Failure → Alarm
  | reset => .homingFailReset
  | door => .homingFailDoor
  | approach => .homingFailApproach
  | pulloff => .homingFailPulloff

/-- Each failure has an alarm of its own. -/
theorem alarm_eq_iff {f : Failure} {a : Alarm} : f.alarm = a ↔
    f = reset ∧ a = .homingFailReset ∨ f = door ∧ a = .homingFailDoor ∨
      f = approach ∧ a = .homingFailApproach ∨ f = pulloff ∧ a = .homingFailPulloff := by
  cases f <;> simp [alarm, eq_comm]

/-- The text of a failure. -/
def message : Failure → String
  | reset => "Homing fail: reset during cycle"
  | door => "Homing fail: safety door opened"
  | approach => "Homing fail: limit switch not found during approach"
  | pulloff => "Homing fail: limit switch still engaged after pull-off"

end Failure

/-- Why a homing request did not succeed. -/
inductive HomingError where
  /-- A cycle failed. Its positions are not committed. -/
  | failed (failure : Failure)
  /-- Every cycle was asked for, and no axis has a cycle number. -/
  | noCycles
  /-- A motor reported both its limits before anything moved. -/
  | ambiguousLimit
  /-- The machine was in the alarm state, so the cycles that were left did not run. -/
  | alarmActive
deriving DecidableEq, Repr

/-- The text of an error. A failed cycle speaks for itself. -/
def HomingError.message : HomingError → String
  | failed f => f.message
  | noCycles => "No homing cycles defined"
  | ambiguousLimit => "Ambiguous limit switch state"
  | alarmActive => "Machine in alarm state"

end Homing
