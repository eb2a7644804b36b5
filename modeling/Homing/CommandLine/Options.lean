import Homing.Decimal.Read

/-!
# Options of the command line

`Options.parse` reads the arguments of the program from left to right and stops
at the first that it can not use, or that asks for the help or the version. An
option may be given once. Its value follows as the next argument, or after a sign
of equality, or directly after a short option; several short options may share one
dash. A value that is an argument of its own can not begin with a dash, unless the
dash is all of it.
-/

namespace Homing.CommandLine

/-- What the program was asked to do. -/
structure Options where
  /-- The path of the settings of the machine. -/
  settings : String
  /-- The axes to home, or the word for all cycles. -/
  axes : String
  /-- How much further away the secondary switches are. -/
  skew : Float
  /-- The milliseconds of a tick. -/
  tickMs : Float
  /-- The log shows more. -/
  verbose : Bool
  /-- The log is written as objects. -/
  json : Bool

/-- Why the program does not get to work. -/
inductive Stop where
  | help
  | version
  /-- The arguments can not be used. -/
  | misuse
deriving DecidableEq, Repr

/-- The options that take a value. -/
inductive Valued where
  | settings
  | axes
  | skew
  | tickMs
deriving DecidableEq

/-- The options that take none. -/
inductive Flag where
  | verbose
  | json
  | help
  | version
deriving DecidableEq

/-- What an argument can name. -/
inductive Name where
  | valued (v : Valued)
  | flag (f : Flag)

/-- The option of a long name. -/
def longName? : String → Option Name
  | "config" => some (.valued .settings)
  | "axes" => some (.valued .axes)
  | "skew" => some (.valued .skew)
  | "tick-ms" => some (.valued .tickMs)
  | "verbose" => some (.flag .verbose)
  | "json" => some (.flag .json)
  | "help" => some (.flag .help)
  | "version" => some (.flag .version)
  | _ => none

/-- The option of a single letter. -/
def shortName? : Char → Option Name
  | 'c' => some (.valued .settings)
  | 'a' => some (.valued .axes)
  | 'v' => some (.flag .verbose)
  | 'h' => some (.flag .help)
  | 'V' => some (.flag .version)
  | _ => none

/-- The options that have been given so far. -/
structure Given where
  settings : Option String := none
  axes : Option String := none
  skew : Option Float := none
  tickMs : Option Float := none
  verbose : Bool := false
  json : Bool := false

namespace Given

/-- Give an option its value. -/
def set (v : Valued) (value : String) (g : Given) : Except Stop Given :=
  match v with
  | .settings =>
    if g.settings.isSome || value.isEmpty then .error .misuse
    else .ok { g with settings := some value }
  | .axes => if g.axes.isSome then .error .misuse else .ok { g with axes := some value }
  | .skew =>
    match g.skew, Decimal.read? value with
    | none, some x => .ok { g with skew := some x }
    | _, _ => .error .misuse
  | .tickMs =>
    match g.tickMs, Decimal.read? value with
    | none, some x => .ok { g with tickMs := some x }
    | _, _ => .error .misuse

/-- Give a flag. -/
def raise (f : Flag) (g : Given) : Except Stop Given :=
  match f with
  | .verbose => if g.verbose then .error .misuse else .ok { g with verbose := true }
  | .json => if g.json then .error .misuse else .ok { g with json := true }
  | .help => .error .help
  | .version => .error .version

/-- The options, with the defaults of those that were not given. -/
def options (g : Given) : Options where
  settings := g.settings.getD "config/machine.toml"
  axes := g.axes.getD "all"
  skew := g.skew.getD 0.0
  tickMs := g.tickMs.getD 1.0
  verbose := g.verbose
  json := g.json

end Given

/-- Whether an argument can be the value of the option before it. -/
def isValue (arg : String) : Bool := arg = "-" || arg.toList.head? != some '-'

/-- What is left to read after some arguments. -/
inductive Wanted where
  /-- Any argument. -/
  | argument
  /-- The value of an option. -/
  | value (v : Valued)
  /-- Nothing: two dashes by themselves have ended the options. -/
  | nothing

/-- Read the letters of an argument with one dash. -/
def letters : List Char → Given → Except Stop (Wanted × Given)
  | [], g => .ok (.argument, g)
  | c :: cs, g =>
    match shortName? c with
    | none => .error .misuse
    | some (.flag f) => (g.raise f).bind (letters cs)
    | some (.valued v) =>
      match cs with
      | [] => .ok (.value v, g)
      | '=' :: value => (g.set v (String.ofList value)).map (.argument, ·)
      | value => (g.set v (String.ofList value)).map (.argument, ·)

/-- Read an argument with two dashes, which are not part of the text. -/
def word (cs : List Char) (g : Given) : Except Stop (Wanted × Given) :=
  let name := String.ofList (cs.takeWhile (· != '='))
  match longName? name, cs.dropWhile (· != '=') with
  | some (.flag f), [] => (g.raise f).map (.argument, ·)
  | some (.valued v), [] => .ok (.value v, g)
  | some (.valued v), _ :: value => (g.set v (String.ofList value)).map (.argument, ·)
  | _, _ => .error .misuse

/-- Read one argument. The program takes none that is not an option. -/
def argument (wanted : Wanted) (arg : String) (g : Given) : Except Stop (Wanted × Given) :=
  match wanted with
  | .nothing => .error .misuse
  | .value v => if isValue arg then (g.set v arg).map (.argument, ·) else .error .misuse
  | .argument =>
    match arg.toList with
    | ['-', '-'] => .ok (.nothing, g)
    | '-' :: '-' :: cs => word cs g
    | '-' :: c :: cs => letters (c :: cs) g
    | _ => .error .misuse

/-- The options that arguments give. -/
def Options.parse (args : List String) : Except Stop Options := do
  let (wanted, g) ← args.foldlM (fun (wanted, g) arg => argument wanted arg g)
    (Wanted.argument, ({} : Given))
  match wanted with
  | .value _ => .error .misuse
  | _ => .ok g.options

end Homing.CommandLine
