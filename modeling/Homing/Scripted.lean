import Homing.Machine

/-!
# Scripted machines

A scripted machine does not move. Its limit switches and its signals follow a
`Script` that is indexed by the number of refills of the step buffer, so any
course of events that the engine could meet can be written down. Of the calls it
gets it keeps only what can be read back: the step counters, the global state and
the signals that wait.
-/

namespace Homing

/-- What a scripted machine reports, by the number of refills so far. -/
structure Script where
  /-- The motors at their positive limits, from a refill on. The last entry that
  has begun holds. -/
  positive : List (Nat × MotorSet) := []
  /-- The motors at their negative limits, from a refill on. -/
  negative : List (Nat × MotorSet) := []
  /-- The signals that a refill raises, by its number. The first is number 1. -/
  signals : List (Nat × Signals) := []
  /-- The motors that can home, whatever the axes. Without this, both motors of
  every axis can. -/
  homeable : Option MotorSet := none
  /-- Leaving homing mode enters the alarm state. -/
  alarmOnExit : Bool := false
  /-- The refill from which on every refill raises a reset. -/
  resetFrom : Nat := 400

/-- A machine that follows a script. The type `α` is that of the lengths in the
calls, which it does not look at. -/
structure Scripted (α : Type u) where
  script : Script
  refills : Nat
  state : MachineState
  pending : Signals
  steps : List Int

namespace Scripted

variable {α : Type u}

/-- The motors of the last entry that has begun. -/
def motorsAt (refills : Nat) (entries : List (Nat × MotorSet)) : MotorSet :=
  match (entries.filter (·.1 ≤ refills)).getLast? with
  | some e => e.2
  | none => ∅

/-- The limit switches as the script has them. -/
def limits (s : Scripted α) : Limits where
  positive := motorsAt s.refills s.script.positive
  negative := motorsAt s.refills s.script.negative

/-- The signals that a refill raises. -/
def raisedAt (refill : Nat) (script : Script) : Signals :=
  let raised := (script.signals.filter (·.1 == refill)).foldl (fun all e => all ∪ e.2) ∅
  if script.resetFrom ≤ refill then { raised with reset := true } else raised

/-- The motors that can home. -/
def homeable (s : Scripted α) (axes : AxisSet) : MotorSet :=
  match s.script.homeable with
  | some motors => motors
  | none => .ofAxesBothSides axes

/-- The machine after a call. -/
def apply (c : Call α) (s : Scripted α) : Scripted α :=
  match c with
  | .refill =>
    { s with
      refills := s.refills + 1
      pending := s.pending ∪ raisedAt (s.refills + 1) s.script }
  | .setSteps n steps => { s with steps := s.steps.set n steps }
  | .exitHoming .. => if s.script.alarmOnExit then { s with state := .alarm } else s
  | .setState state => { s with state }
  | .raiseAlarm _ => { s with state := .alarm }
  | .acknowledge signals => { s with pending := s.pending \ signals }
  | .dispatch => { s with pending := ∅ }
  | .submit _ | .start | .halt | .enterHoming _ | .reportStatus | .dwell _ | .poll
  | .resetMotion => s

instance : Machine (Scripted α) α where
  apply c s := (s.apply c, [])
  limits := limits
  steps s n := s.steps.getD n 0
  homeable := homeable
  state := state
  pending := pending

end Scripted

end Homing
