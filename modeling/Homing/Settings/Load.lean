import Homing.Settings.AxisNames
import Homing.Settings.Fault
import Homing.Settings.Schema
import Homing.Toml.Document

/-!
# Loading settings

Settings come from a file: its bytes are a text, the text is a TOML document, the
document holds the records of a machine, and the machine has no fault. Each of
these steps can be where it ends, and `SettingsError` has a case for each.
-/

namespace Homing

/-- What there is where a file is looked for. -/
inductive FileContent where
  | missing
  /-- Something that can not be read, and the reason. -/
  | unreadable (reason : String)
  | bytes (content : ByteArray)

/-- Why there are no settings, or why they do not serve. -/
inductive SettingsError where
  | fileNotFound
  | unreadable (reason : String)
  | notText
  /-- The text is not well-formed TOML. -/
  | malformed (fault : Toml.Fault)
  | schema (error : SchemaError)
  | invalid (fault : MachineFault Float)
  /-- A request names an axis that there is not. -/
  | unknownAxis (c : Char)

/-- The text of a fault of homing parameters. -/
def HomingFault.message : HomingFault Float → String
  | seekRate rate => s!"seek_mpm {Decimal.shortest rate} must be positive"
  | feedRate rate => s!"feed_mpm {Decimal.shortest rate} must be positive"
  | scalers seek feed =>
    s!"scalers must be positive (seek {Decimal.shortest seek}, feed {Decimal.shortest feed})"
  | cycle number axisCount => s!"cycle {number} out of range [1, {axisCount}]"

/-- The text of a fault of an axis. -/
def AxisFault.message : AxisFault Float → String
  | maxTravel travel => s!"max_travel_mm {Decimal.shortest travel} must be positive"
  | stepsPerMm steps => s!"steps_per_mm {Decimal.shortest steps} must be positive"
  | motorCount count => s!"{count} motors, expected 1 or {maxMotorsPerAxis}"
  | pulloff distance => s!"pulloff_mm {Decimal.shortest distance} must not be negative"
  | homing fault => fault.message

/-- The text of a fault of a machine. -/
def MachineFault.message : MachineFault Float → String
  | axisCount count => s!"{count} axes out of range [1, {maxAxes}]"
  | duplicateName name => s!"duplicate axis name {name}"
  | axis name fault => s!"axis {name}: {fault.message}"

/-- The text of an error. -/
def SettingsError.message : SettingsError → String
  | fileNotFound => "Configuration file not found"
  | unreadable reason => s!"Failed to parse configuration: {reason}"
  | notText => "Failed to parse configuration: stream did not contain valid UTF-8"
  | malformed fault => s!"Failed to parse configuration: {fault.message}"
  | schema error => s!"Failed to parse configuration: {error.message}"
  | invalid fault => s!"Configuration validation failed: {fault.message}"
  | unknownAxis c => s!"Configuration validation failed: unknown axis '{c}'"

namespace MachineSettings

/-- The settings that a text of TOML holds. -/
def ofToml (text : String) : Except SettingsError (MachineSettings Float) :=
  match Toml.parse text with
  | .error fault => .error (.malformed fault)
  | .ok entries =>
    match ofTable entries with
    | .error e => .error (.schema e)
    | .ok m => match m.fault? with
      | some f => .error (.invalid f)
      | none => .ok m

/-- The settings that a file holds. -/
def load (file : FileContent) : Except SettingsError (MachineSettings Float) :=
  match file with
  | .missing => .error .fileNotFound
  | .unreadable reason => .error (.unreadable reason)
  | .bytes content =>
    match String.fromUTF8? content with
    | none => .error .notText
    | some text => ofToml text

/-- The axes that a text asks for. -/
def parseAxes (m : MachineSettings Float) (text : String) : Except SettingsError AxisSet :=
  (m.axesNamed text).mapError .unknownAxis

end MachineSettings

end Homing
