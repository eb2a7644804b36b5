import Homing.CommandLine.Options
import Homing.Engine.Cycle
import Homing.Log.Filter
import Homing.Log.Line
import Homing.Settings.Load
import Homing.Simulator.Basic

/-!
# The program

The program homes a simulated machine and reports where its axes are afterwards.
`homedAxes` is what it takes to have been homed, and `axisReports` what it says of
each such axis. `run` is all of the program: from its arguments, the setting of
the log filter and the files there are, to an exit code and the lines it writes.
-/

namespace Homing.CommandLine

section Reports

variable {α : Type u} [Scalar α]

/-- The request that a text makes. -/
def requestOf (m : MachineSettings α) (text : String) : Except Char Request :=
  if sameUpToCase text "all" then .ok .all else (m.axesNamed text).map .axes

/-- The simulator that the program homes. The skew is given to every axis with two
motors. -/
def simulatorOf (m : MachineSettings α) (tickMs skew : α) : Simulator α :=
  let s := (Simulator.ofSettings m).withTickMs tickMs
  if Scalar.eq skew 0.0 then s
  else m.axes.zipIdx.foldl (fun s (a, n) => if a.isSquared then s.withSkew n skew else s) s

/-- The axes that a request has homed, when it succeeded. -/
def homedAxes (m : MachineSettings α) : Request → AxisSet
  | .all => (cycleNumbers.map m.axesInCycle).foldl (· ∪ ·) ∅
  | .axes axes => axes ∩ m.homingAxes

/-- What the program says of one axis. -/
structure AxisReport (α : Type u) where
  axis : Nat
  name : String
  position : α
  low : α
  high : α
  /-- How far the secondary motor is from the primary one, on a squared axis. -/
  offset : Option α

/-- What the program says of an axis of a machine. -/
def axisReport (m : MachineSettings α) (s : Simulator α) (n : Nat) : Option (AxisReport α) :=
  m.axes[n]?.map fun a =>
    let (low, high) := a.travelLimits
    { axis := n, name := a.name, position := a.positionAt (s.steps n), low, high
      offset :=
        if a.isSquared then
          match s.motorPosition? ⟨n, .primary⟩, s.motorPosition? ⟨n, .secondary⟩ with
          | some p, some q => some (q - p)
          | _, _ => none
        else none }

/-- What the program says of the axes that a request has homed. -/
def axisReports (m : MachineSettings α) (request : Request) (s : Simulator α) :
    List (AxisReport α) :=
  (homedAxes m request).toList.filterMap (axisReport m s)

end Reports

/-- A line that the program itself has for the log. -/
def programLine (level : Level) (message : String) : LogLine :=
  ⟨level, NoteSource.program.path, message⟩

/-- The version of the program. -/
def version : String := "0.1.0"

/-- The lines about one axis. -/
def AxisReport.lines (r : AxisReport Float) : List LogLine :=
  programLine .info
      (s!"{r.name}: mpos {Decimal.fixed 3 r.position} " ++
        s!"travel [{Decimal.fixed 3 r.low}, {Decimal.fixed 3 r.high}]") ::
    match r.offset with
    | some d => [programLine .info s!"{r.name}: motor offset after squaring {Decimal.fixed 3 d}"]
    | none => []

/-- The lines of a run that succeeded, after those of the engine. -/
def closingLines (m : MachineSettings Float) (request : Request) (s : Simulator Float) :
    List LogLine :=
  (axisReports m request s).flatMap AxisReport.lines ++
    [programLine .info s!"{s.totals.moves.length} moves, {s.totals.dwell} ms settle"]

/-- The lines of homing a machine, and whether it succeeded. Without turns enough
there is no answer. -/
def homingLines (budget : Nat) (o : Options) (m : MachineSettings Float) :
    Option (Bool × List LogLine) :=
  match requestOf m o.axes with
  | .error c => some (false, [fatal (SettingsError.unknownAxis c).message])
  | .ok request =>
    let opening := programLine .info
      s!"Config OK: {m.axes.length} axes, homing {m.axisNames m.homingAxes}"
    (home budget m request (simulatorOf m o.tickMs o.skew)).map fun (result, s) =>
      let lines := opening :: s.notes.map LogLine.ofNote
      match result with
      | .error e => (false, lines ++ [fatal e.message])
      | .ok () => (true, lines ++ closingLines m request s.machine)
where
  /-- The line of an error that ends the program. -/
  fatal (message : String) : LogLine := programLine .error s!"FATAL: {message}"

/-- The filter of the log. The option to show more comes first, then the setting
from outside unless it is blank, then the level of the machine's settings. -/
def filterOf (verbose : Bool) (fromOutside : Option String) (least : Level) : Filter :=
  if verbose then .ofLevel .debug
  else match fromOutside with
    | some text => if text.toList.all Text.isBlank then .ofLevel least else .ofText text
    | none => .ofLevel least

/-- How a run of the program ended. -/
structure Ended where
  exit : Nat
  /-- The log is written as objects. -/
  json : Bool
  /-- The lines that are no log. -/
  plain : List String
  /-- The lines of the log that are shown. -/
  log : List LogLine

/-- Everything that is written, line by line. -/
def Ended.lines (e : Ended) : List String :=
  e.plain ++ e.log.map fun l => if e.json then l.object else l.plain

/-- What the program says about itself when it is asked to. -/
def helpText : List String := [
  "Run a homing cycle against a simulated CNC machine",
  "",
  "Usage: cnc_homing [OPTIONS]",
  "",
  "Options:",
  "  -c, --config <CONFIG>    Machine configuration TOML [default: config/machine.toml]",
  "  -a, --axes <AXES>        Axis letters to home as one cycle, or \"all\" for every " ++
    "configured cycle [default: all]",
  "      --skew <SKEW>        Offset the secondary switch of every squared axis [mm] [default: 0]",
  "      --tick-ms <TICK_MS>  Simulation tick [ms] [default: 1]",
  "  -v, --verbose            Enable verbose logging (DEBUG level)",
  "      --json               Output logs in JSON format",
  "  -h, --help               Print help",
  "  -V, --version            Print version"]

/-- Run the program with its options. -/
def runWith (budget : Nat) (o : Options) (fromOutside : Option String) (file : FileContent) :
    Option Ended :=
  match MachineSettings.load file with
  | .error e =>
    let line := programLine .error s!"FATAL: {o.settings}: {e.message}"
    some (ended o .info fromOutside 1 [line])
  | .ok m =>
    let opening := programLine .info s!"CNC Homing v{version} starting..."
    (homingLines budget o m).map fun (success, lines) =>
      ended o m.logLevel fromOutside (if success then 0 else 1) (opening :: lines)
where
  /-- The end of a run, with the lines that its filter shows. -/
  ended (o : Options) (least : Level) (fromOutside : Option String) (exit : Nat)
      (lines : List LogLine) : Ended :=
    let filter := filterOf o.verbose fromOutside least
    { exit, json := o.json, plain := [], log := lines.filter fun l => filter.shows l.level l.path }

/-- Run the program: its arguments, the setting of the log filter from outside,
and what there is at a path. -/
def run (budget : Nat) (args : List String) (fromOutside : Option String)
    (fileAt : String → FileContent) : Option Ended :=
  match Options.parse args with
  | .error .help => some ⟨0, false, helpText, []⟩
  | .error .version => some ⟨0, false, [s!"cnc_homing {version}"], []⟩
  | .error .misuse => some ⟨2, false, [], []⟩
  | .ok o => runWith budget o fromOutside (fileAt o.settings)

end Homing.CommandLine
