import Homing.MotorSet

/-!
# The state of a machine

What the homing engine reads from a machine and writes to it: the global state
with its latched alarm, the real-time signals that wait to be handled, and the
motors that stand on a limit switch. Each enumeration has its number, and each
signal its bit in a byte.
-/

namespace Homing

/-- The global state of a machine. -/
inductive MachineState where
  /-- Ready, nothing moves. -/
  | idle
  /-- A fault is latched and motion is locked out. -/
  | alarm
  /-- A homing request is running. -/
  | homing
  /-- Program motion is running. -/
  | cycle
  /-- Program motion is held. -/
  | hold
deriving DecidableEq, Repr, Inhabited

namespace MachineState

/-- The number of a state. -/
def toNat : MachineState → Nat
  | idle => 0
  | alarm => 1
  | homing => 2
  | cycle => 3
  | hold => 4

/-- The state of a number. -/
def ofNat? : Nat → Option MachineState
  | 0 => some idle
  | 1 => some alarm
  | 2 => some homing
  | 3 => some cycle
  | 4 => some hold
  | _ => none

@[simp] theorem ofNat?_toNat (s : MachineState) : ofNat? s.toNat = some s := by cases s <;> rfl

/-- The name of a state. -/
def name : MachineState → String
  | idle => "Idle"
  | alarm => "Alarm"
  | homing => "Homing"
  | cycle => "Cycle"
  | hold => "Hold"

end MachineState

/-- The fault that is latched with the alarm state. -/
inductive Alarm where
  /-- A switch tripped outside homing, or a motor reports both its limits. -/
  | hardLimit
  | homingFailReset
  | homingFailDoor
  | homingFailPulloff
  | homingFailApproach
deriving DecidableEq, Repr

namespace Alarm

/-- The code of an alarm. -/
def toNat : Alarm → Nat
  | hardLimit => 1
  | homingFailReset => 6
  | homingFailDoor => 7
  | homingFailPulloff => 8
  | homingFailApproach => 9

/-- The alarm of a code. -/
def ofNat? : Nat → Option Alarm
  | 1 => some hardLimit
  | 6 => some homingFailReset
  | 7 => some homingFailDoor
  | 8 => some homingFailPulloff
  | 9 => some homingFailApproach
  | _ => none

@[simp] theorem ofNat?_toNat (a : Alarm) : ofNat? a.toNat = some a := by cases a <;> rfl

/-- The name of an alarm. -/
def name : Alarm → String
  | hardLimit => "HardLimit"
  | homingFailReset => "HomingFailReset"
  | homingFailDoor => "HomingFailDoor"
  | homingFailPulloff => "HomingFailPulloff"
  | homingFailApproach => "HomingFailApproach"

end Alarm

/-- The real-time signals that wait to be handled. They are raised from outside
the engine at any moment. -/
structure Signals where
  /-- A status report is asked for. -/
  statusReport : Bool := false
  /-- A reset is asked for. -/
  reset : Bool := false
  /-- The safety door is open. -/
  safetyDoor : Bool := false
  /-- The planned motion has ended or was stopped. -/
  cycleStop : Bool := false
deriving DecidableEq, Repr, Inhabited

namespace Signals

instance : EmptyCollection Signals := ⟨{}⟩

/-- The signals in either set. -/
def union (s t : Signals) : Signals where
  statusReport := s.statusReport || t.statusReport
  reset := s.reset || t.reset
  safetyDoor := s.safetyDoor || t.safetyDoor
  cycleStop := s.cycleStop || t.cycleStop

instance : Union Signals := ⟨union⟩

/-- The signals of the first set that are not in the second. -/
def diff (s t : Signals) : Signals where
  statusReport := s.statusReport && !t.statusReport
  reset := s.reset && !t.reset
  safetyDoor := s.safetyDoor && !t.safetyDoor
  cycleStop := s.cycleStop && !t.cycleStop

instance : SDiff Signals := ⟨diff⟩

theorem union_def (s t : Signals) : s ∪ t = s.union t := rfl

theorem sdiff_def (s t : Signals) : s \ t = s.diff t := rfl

/-- The byte of a set of signals. -/
def toNat (s : Signals) : Nat :=
  s.statusReport.toNat + 2 * s.reset.toNat + 4 * s.safetyDoor.toNat + 8 * s.cycleStop.toNat

/-- The signals of a byte. Bits without a signal are dropped. -/
def ofNat (byte : Nat) : Signals where
  statusReport := byte.testBit 0
  reset := byte.testBit 1
  safetyDoor := byte.testBit 2
  cycleStop := byte.testBit 3

@[simp] theorem ofNat_toNat (s : Signals) : ofNat s.toNat = s := by
  obtain ⟨a, b, c, d⟩ := s
  cases a <;> cases b <;> cases c <;> cases d <;> decide

/-- Every signal. -/
def all : Signals := ⟨true, true, true, true⟩

/-- The request for a status report. -/
def status : Signals := { statusReport := true }

/-- The end of a motion. -/
def stop : Signals := { cycleStop := true }

end Signals

/-- The motors that stand on a limit switch. -/
structure Limits where
  positive : MotorSet := ∅
  negative : MotorSet := ∅
deriving DecidableEq, Inhabited

namespace Limits

/-- The motors at a limit of either side. -/
def active (l : Limits) : MotorSet := l.positive ∪ l.negative

/-- The motors that report both limits at once, which is a fault of the wiring. -/
def ambiguous (l : Limits) : MotorSet := l.positive ∩ l.negative

end Limits

end Homing
