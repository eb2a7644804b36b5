import Homing.CommandLine.Program

/-!
# The command-line program

`main` fetches what the program needs from outside (its arguments, the setting of
the log filter, the file of settings), runs it, and writes its lines.
-/

namespace Homing.CommandLine

/-- The number of turns that a phase is given. No run comes near it. -/
def turnBudget : Nat := 1000000000000000

/-- What there is at a path. -/
def fileAt (path : String) : IO FileContent := do
  try
    return .bytes (← IO.FS.readBinFile path)
  catch
    | .noFileOrDirectory .. => return .missing
    | e => return .unreadable (toString e)

/-- Write what a run of the program has to say. -/
def Ended.write (e : Ended) : IO Unit := do
  for line in e.lines do
    IO.println line

/-- Run the program with its arguments and answer with its exit code. -/
def perform (args : List String) : IO UInt32 := do
  let fromOutside ← IO.getEnv "RUST_LOG"
  let file ← match Options.parse args with
    | .error _ => pure FileContent.missing
    | .ok o => fileAt o.settings
  match run turnBudget args fromOutside fun _ => file with
  | none => return 1
  | some e =>
    e.write
    return e.exit.toUInt32

end Homing.CommandLine

/-- The command-line program. -/
def main (args : List String) : IO UInt32 := Homing.CommandLine.perform args
