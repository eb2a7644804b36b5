import Homing.Settings.Basic

/-!
# Faults of settings

`MachineSettings.fault?` is the first thing that keeps settings from describing
a machine, and `none` when they do. The axes are looked at in order, and on each
axis the checks run in a fixed order, so that one fault is named whatever else
is wrong. A quantity that has to be positive is tested as "not above zero",
which also refuses what is not a number; a pull-off only must not be below zero.
-/

namespace Homing

variable {α : Type u} [Scalar α]

/-- What is wrong with a table of homing parameters. -/
inductive HomingFault (α : Type u) where
  | seekRate (rate : α)
  | feedRate (rate : α)
  | scalers (seek feed : α)
  | cycle (number axisCount : Nat)

/-- What is wrong with an axis. -/
inductive AxisFault (α : Type u) where
  | maxTravel (travel : α)
  | stepsPerMm (steps : α)
  | motorCount (count : Nat)
  | pulloff (distance : α)
  | homing (fault : HomingFault α)

/-- What is wrong with a machine. -/
inductive MachineFault (α : Type u) where
  | axisCount (count : Nat)
  | duplicateName (name : String)
  | axis (name : String) (fault : AxisFault α)

/-- The first fault of homing parameters on a machine with `axisCount` axes. -/
def HomingSettings.fault? (axisCount : Nat) (h : HomingSettings α) : Option (HomingFault α) :=
  if !Scalar.lt 0.0 h.seekRate then some (.seekRate h.seekRate)
  else if !Scalar.lt 0.0 h.feedRate then some (.feedRate h.feedRate)
  else if !Scalar.lt 0.0 h.seekScaler || !Scalar.lt 0.0 h.feedScaler then
    some (.scalers h.seekScaler h.feedScaler)
  else match h.cycle with
    | some n => if n = 0 ∨ axisCount < n then some (.cycle n axisCount) else none
    | none => none

/-- The first fault of one axis by itself. -/
def AxisSettings.fault? (axisCount : Nat) (a : AxisSettings α) : Option (AxisFault α) :=
  if !Scalar.lt 0.0 a.maxTravel then some (.maxTravel a.maxTravel)
  else if !Scalar.lt 0.0 a.stepsPerMm then some (.stepsPerMm a.stepsPerMm)
  else if a.motors.length = 0 ∨ maxMotorsPerAxis < a.motors.length then
    some (.motorCount a.motors.length)
  else match a.motors.find? (fun m => Scalar.lt m.pulloff 0.0) with
    | some m => some (.pulloff m.pulloff)
    | none => (a.homing.bind (·.fault? axisCount)).map .homing

/-- The first fault of a list of axes, when the axes before them have the names
`seen`. A name that comes again is a fault before all others of its axis. -/
def axesFault? (axisCount : Nat) (seen : List String) :
    List (AxisSettings α) → Option (MachineFault α)
  | [] => none
  | a :: rest =>
    if a.name ∈ seen then some (.duplicateName a.name)
    else match a.fault? axisCount with
      | some f => some (.axis a.name f)
      | none => axesFault? axisCount (a.name :: seen) rest

/-- The first fault of a machine. -/
def MachineSettings.fault? (m : MachineSettings α) : Option (MachineFault α) :=
  if m.axes.length = 0 ∨ maxAxes < m.axes.length then some (.axisCount m.axes.length)
  else axesFault? m.axes.length [] m.axes

/-- Accept settings that have no fault. -/
def MachineSettings.validate (m : MachineSettings α) : Except (MachineFault α) Unit :=
  match m.fault? with
  | some f => .error f
  | none => .ok ()

theorem MachineSettings.validate_eq_ok_iff {m : MachineSettings α} :
    m.validate = .ok () ↔ m.fault? = none := by
  unfold validate
  split <;> simp_all

end Homing
