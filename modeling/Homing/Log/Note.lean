import Homing.Decimal.Fixed
import Homing.Failure
import Homing.Log.Level
import Homing.Phase

/-!
# Notes

A `Note` is one thing that is worth a line in the log, with the values that the
line shows. Notes keep their values as they are, so that what is noted can be
reasoned about over any type of scalars; only `Note.message` writes them out,
and it does so for floats. A note has a `level` and a `source`, the part of the
program that it is about.
-/

namespace Homing

/-- One thing that is worth a line in the log. -/
inductive Note (α : Type u) where
  /-- A homing cycle of the given axes found no motor that can home. -/
  | noSwitches (axes : String)
  /-- A cycle homes these axes with these motors. -/
  | cycleMotors (axes : String) (motors : MotorSet)
  | phaseBegins (phase : Phase)
  | failed (failure : Failure)
  /-- The given axes report both their limits. -/
  | ambiguousLimits (axes : String)
  /-- The cycle of a number homes these axes. -/
  | cycleBegins (number : Nat) (axes : String)
  | noCycles
  /-- An axis takes part in a move. -/
  | axisPlanned (axis : String) (target rate : α)
  | prePulloffSkipped
  | switchesReached (motors : MotorSet)
  | phaseDone (phase : Phase) (settle : Nat)
  /-- An axis has its reference position. -/
  | axisHomed (axis : String) (reference low high : α)
  | moveBegins (index : Nat) (length feedRate : α) (approach : Bool)
  /-- A move ended, either at its end or with every motor halted on its switch. -/
  | moveEnded (index ticks : Nat) (onSwitches : Bool)
  | homingComplete

/-- The part of the program that a note is about. -/
inductive NoteSource where
  | program
  | cycle
  | planner
  | run
  | positions
  | simulator
deriving DecidableEq, Repr

/-- The path of a part of the program, as a line of the log shows it. -/
def NoteSource.path : NoteSource → String
  | program => "cnc_homing"
  | cycle => "cnc_homing::cycle"
  | planner => "cnc_homing::planner"
  | run => "cnc_homing::run"
  | positions => "cnc_homing::mpos"
  | simulator => "cnc_homing::sim"

/-- A 32-bit word in hexadecimal, with all its eight digits. -/
def hexWord (word : BitVec 32) : String :=
  let digits := Nat.toDigits 16 word.toNat
  "0x" ++ String.ofList (List.replicate (8 - digits.length) '0' ++ digits)

/-- A set of motors by its word. -/
def MotorSet.text (s : MotorSet) : String := "MotorSet(" ++ hexWord s.bits ++ ")"

/-- A set of axes by its members. -/
def AxisSet.text (s : AxisSet) : String :=
  "\x7b" ++ ", ".intercalate (s.toList.map toString) ++ "\x7d"

namespace Note

variable {α : Type u}

/-- How much a note matters. -/
def level : Note α → Level
  | noSwitches .. => .warn
  | failed .. | ambiguousLimits .. | noCycles => .error
  | cycleBegins .. | homingComplete => .info
  | prePulloffSkipped | switchesReached .. | moveBegins .. | moveEnded .. => .trace
  | cycleMotors .. | phaseBegins .. | axisPlanned .. | phaseDone .. | axisHomed .. => .debug

/-- The part of the program that a note is about. -/
def source : Note α → NoteSource
  | noSwitches .. | cycleMotors .. | phaseBegins .. | failed .. | ambiguousLimits ..
  | cycleBegins .. | noCycles => .cycle
  | axisPlanned .. => .planner
  | prePulloffSkipped | switchesReached .. | phaseDone .. => .run
  | axisHomed .. => .positions
  | moveBegins .. | moveEnded .. => .simulator
  | homingComplete => .program

/-- The text of a note. Lengths have three places after the point, rates one. -/
def message : Note Float → String
  | noSwitches axes => s!"No limit switches on {axes}"
  | cycleMotors axes motors => s!"Homing cycle {axes} motors {motors.text}"
  | phaseBegins phase => phase.label
  | failed failure => failure.message
  | ambiguousLimits axes => s!"Ambiguous limit on {axes}"
  | cycleBegins number axes => s!"Homing cycle {number}: {axes}"
  | noCycles => HomingError.noCycles.message
  | axisPlanned axis target rate =>
    s!"{axis} target {Decimal.fixed 3 target} rate {Decimal.fixed 1 rate}"
  | prePulloffSkipped => "No switch engaged, skipping pre-pulloff"
  | switchesReached motors => s!"Switch reached {motors.text}"
  | phaseDone phase settle => s!"{phase.label} done, settled {settle} ms"
  | axisHomed axis reference low high =>
    s!"{axis} homed at {Decimal.fixed 3 reference}, " ++
      s!"travel [{Decimal.fixed 3 low}, {Decimal.fixed 3 high}]"
  | moveBegins index length feedRate approach =>
    s!"Move {index}: length {Decimal.fixed 3 length} feed {Decimal.fixed 1 feedRate} " ++
      s!"approach {approach}"
  | moveEnded index ticks onSwitches =>
    s!"Move {index} finished after {ticks} ticks" ++ if onSwitches then " on switches" else ""
  | homingComplete => "Homing complete"

end Note

end Homing
