import Homing.MotorSet
import Homing.Scalar

/-!
# Moves

A `Move` is one straight line handed to a machine: a target for each axis, the
rate along the line, and the motors that do not step in it. The blocked motors
belong to the move and vanish with it.
-/

namespace Homing

/-- One value for each possible axis. -/
abbrev PerAxis (α : Type u) : Type u := Vector α maxAxes

/-- What else holds of a motion: who planned it and which attachments run. -/
structure MotionFlags where
  /-- It was planned by the machine itself and not by a program line. -/
  systemMotion : Bool := false
  /-- The feed override does not change its rate. -/
  noFeedOverride : Bool := false
  /-- No line number is reported for it. -/
  noLineNumber : Bool := false
  spindleOn : Bool := false
  coolantMist : Bool := false
  coolantFlood : Bool := false
deriving DecidableEq, Repr

namespace MotionFlags

/-- The flags of a homing move: planned by the machine, with spindle and coolant
off. -/
def homing : MotionFlags :=
  { systemMotion := true, noFeedOverride := true, noLineNumber := true }

/-- Every flag. -/
def all : MotionFlags := ⟨true, true, true, true, true, true⟩

/-- The byte of a set of flags. -/
def toNat (f : MotionFlags) : Nat :=
  f.systemMotion.toNat + 2 * f.noFeedOverride.toNat + 4 * f.noLineNumber.toNat +
    8 * f.spindleOn.toNat + 16 * f.coolantMist.toNat + 32 * f.coolantFlood.toNat

/-- The flags of a byte. Bits without a flag are dropped. -/
def ofNat (byte : Nat) : MotionFlags where
  systemMotion := byte.testBit 0
  noFeedOverride := byte.testBit 1
  noLineNumber := byte.testBit 2
  spindleOn := byte.testBit 3
  coolantMist := byte.testBit 4
  coolantFlood := byte.testBit 5

@[simp] theorem ofNat_toNat (f : MotionFlags) : ofNat f.toNat = f := by
  obtain ⟨a, b, c, d, e, g⟩ := f
  cases a <;> cases b <;> cases c <;> cases d <;> cases e <;> cases g <;> decide

end MotionFlags

/-- The motors of a move that stand still while their axis travels. -/
structure Overrides where
  blocked : MotorSet := ∅
deriving DecidableEq, Inhabited

namespace Overrides

/-- Block one more motor. -/
def block (m : Motor) (o : Overrides) : Overrides := ⟨o.blocked.insert m⟩

/-- Whether every motor steps. -/
def isEmpty (o : Overrides) : Bool := o.blocked.isEmpty

/-- How far a motor goes for each unit that its axis goes: nothing when it is
blocked, and otherwise the whole of it. -/
def multiplier {α : Type u} [Scalar α] (o : Overrides) (m : Motor) : α :=
  if m ∈ o.blocked then 0.0 else 1.0

end Overrides

/-- One straight line for a machine. -/
structure Move (α : Type u) where
  /-- The position that each axis ends at. -/
  target : PerAxis α
  /-- The rate along the line. -/
  feedRate : α
  flags : MotionFlags
  /-- The move goes toward the switches, so each motor halts on its own one. -/
  approach : Bool
  overrides : Overrides

end Homing
