import Homing.Settings.Basic

/-!
# Sets of axes as text

A set of axes is printed as the names of its axes in ascending order, with
nothing between them, and is asked for as a text in which each character is the
whole name of an axis, up to the case of the letters `a` to `z`.
-/

namespace Homing

/-- The names of the axes by their numbers, where no settings give other ones. -/
def standardAxisNames : List Char := ['X', 'Y', 'Z', 'A', 'B', 'C']

/-- Whether two texts are the same up to the case of the letters `a` to `z`. -/
def sameUpToCase (s t : String) : Bool := s.toList.map Char.toLower == t.toList.map Char.toLower

namespace MachineSettings

variable {α : Type u}

/-- The name of one axis. -/
def axisName (m : MachineSettings α) (n : Nat) : String :=
  match m.axes[n]? with
  | some a => a.name
  | none => match standardAxisNames[n]? with
    | some c => c.toString
    | none => ""

/-- The names of the axes of a set. -/
def axisNames (m : MachineSettings α) (axes : AxisSet) : String :=
  String.join (axes.toList.map m.axisName)

/-- The number of the first axis that a character names. -/
def axisNamed? (m : MachineSettings α) (c : Char) : Option Nat :=
  m.axes.findIdx? fun a => sameUpToCase a.name c.toString

/-- The axes that a text asks for, or the first of its characters that names
none. -/
def axesNamed (m : MachineSettings α) (text : String) : Except Char AxisSet :=
  text.toList.foldlM (fun axes c =>
    match m.axisNamed? c with
    | some n => .ok (axes.insert n)
    | none => .error c) ∅

end MachineSettings

end Homing
