/-!
# Phases of a homing cycle

A cycle backs its motors off any switch they stand on, seeks the switches fast,
backs off, finds the switch edge slowly, and backs off again; a last phase
squares the axes whose two motors have different pull-offs. `Phase.sequence` is
the order of the phases that every cycle has.
-/

namespace Homing

/-- One leg of a homing cycle. -/
inductive Phase where
  /-- Leave the switches that are engaged before anything moves. -/
  | prePulloff
  /-- Look for the switches at the seek rate. -/
  | fastApproach
  /-- Back off after the fast approach. -/
  | pulloff0
  /-- Find the switch edges at the feed rate. -/
  | slowApproach
  /-- Back off to the distance that the motors of an axis share. -/
  | pulloff1
  /-- Bring the motor with the longer pull-off to its own distance. -/
  | pulloff2
deriving DecidableEq, Repr

namespace Phase

/-- The phases of every cycle, in order. The differential one is added where it
is needed. -/
def sequence : List Phase := [prePulloff, fastApproach, pulloff0, slowApproach, pulloff1]

/-- The largest number of phases in a cycle. -/
def maxCount : Nat := sequence.length + 1

/-- The number of a phase. -/
def toNat : Phase → Nat
  | prePulloff => 0
  | fastApproach => 1
  | pulloff0 => 2
  | slowApproach => 3
  | pulloff1 => 4
  | pulloff2 => 5

/-- The phase of a number. -/
def ofNat? : Nat → Option Phase
  | 0 => some prePulloff
  | 1 => some fastApproach
  | 2 => some pulloff0
  | 3 => some slowApproach
  | 4 => some pulloff1
  | 5 => some pulloff2
  | _ => none

@[simp] theorem ofNat?_toNat (p : Phase) : ofNat? p.toNat = some p := by cases p <;> rfl

/-- Whether the phase moves toward the switches. -/
def isApproach : Phase → Bool
  | fastApproach | slowApproach => true
  | _ => false

/-- Whether the phase runs at the seek rate. -/
def isSeek : Phase → Bool
  | fastApproach => true
  | _ => false

/-- The name of a phase. -/
def name : Phase → String
  | prePulloff => "PrePulloff"
  | fastApproach => "FastApproach"
  | pulloff0 => "Pulloff0"
  | slowApproach => "SlowApproach"
  | pulloff1 => "Pulloff1"
  | pulloff2 => "Pulloff2"

/-- The words for a phase in a log line. -/
def label : Phase → String
  | prePulloff => "PrePulloff"
  | fastApproach => "Fast approach"
  | pulloff0 => "Pulloff0"
  | slowApproach => "Slow approach"
  | pulloff1 => "Pulloff1"
  | pulloff2 => "Differential pulloff"

end Phase

end Homing
