import Homing.Decimal.Shortest
import Homing.Settings.Basic
import Homing.Text.Quoted
import Homing.Toml.Value

/-!
# Settings from a tree

`MachineSettings.ofTable` reads the settings of a machine from the tree of a TOML
document. Each of the four kinds of record has its fields listed by name. A field
that is not listed is refused, a field that is left out takes its default or is
missed, and a value has to have the type of its field, where an integer may also
stand for a float.

The fields of a table are read in the order of their names, whatever order they
were written in, and the first one that does not fit is the error. Only then are
the fields that are missing looked for. A list may stand for a record as well: its
values are those of the fields in the order in which the record lists them.
-/

namespace Homing

open Toml (Value Entries)

/-- What was found in the place of another type. -/
inductive Found where
  | boolean (b : Bool)
  | integer (n : Int)
  /-- An integer that 64 bits do not hold. -/
  | wideInteger (n : Int)
  | float (x : Float)
  | string (s : String)
  | sequence
  | map

/-- Why a tree does not hold settings. -/
inductive SchemaError where
  | missingField (name : String)
  | unknownField (name : String) (known : List String)
  | unknownVariant (name : String) (known : List String)
  | invalidType (found : Found) (expected : String)
  | invalidValue (n : Int) (expected : String)
  /-- A list that stands for a record is too short. -/
  | invalidLength (length : Nat) (expected : String)
  | integerOverflow
  | floatOverflow
  /-- A log level is neither a string nor a table. -/
  | notAVariant
  /-- A table in the place of a log level does not have exactly one key. -/
  | notOneVariant (count : Nat)
  /-- A log level in the form of a table carries something. -/
  | variantWithContent

/-- The number two to a power. -/
def powerOfTwo (k : Nat) : Nat := 1 <<< k

/-- Whether a word of so many bits holds an integer, with a sign or without. -/
def fitsWord (bits : Nat) (n : Int) : Bool :=
  decide (-(powerOfTwo (bits - 1) : Int) ≤ n) && decide (n < powerOfTwo bits)

/-- The description of what was found. -/
def Found.text : Found → String
  | boolean b => s!"boolean `{b}`"
  | integer n => s!"integer `{n}`"
  | wideInteger n => s!"integer `{n}` as " ++ if n < powerOfTwo 127 then "i128" else "u128"
  | float x => s!"floating point `{Decimal.shortestWithPoint x}`"
  | string s => s!"string {Text.quoted s}"
  | sequence => "sequence"
  | map => "map"

/-- The names that would have been known, as a choice. -/
def choiceText (names : List String) : String :=
  let quoted := names.map fun n => s!"`{n}`"
  match quoted with
  | [] => ""
  | [a] => s!"`{a}`"
  | [a, b] => s!"{a} or {b}"
  | all => "one of " ++ ", ".intercalate all

/-- The text of an error. -/
def SchemaError.message : SchemaError → String
  | missingField name => s!"missing field `{name}`"
  | unknownField name known => s!"unknown field `{name}`, expected {choiceText known}"
  | unknownVariant name known => s!"unknown variant `{name}`, expected {choiceText known}"
  | invalidType found expected => s!"invalid type: {found.text}, expected {expected}"
  | invalidValue n expected => s!"invalid value: integer `{n}`, expected {expected}"
  | invalidLength length expected => s!"invalid length {length}, expected {expected}"
  | integerOverflow => "integer number overflowed"
  | floatOverflow => "floating-point number overflowed"
  | notAVariant => "wanted string or table"
  | notOneVariant count =>
    if count = 0 then "wanted exactly 1 element, found 0 elements"
    else "wanted exactly 1 element, more than 1 element"
  | variantWithContent => "expected empty table"

namespace Schema

/-- The error of a value that does not have the type of its field. -/
def mismatch (v : Value) (expected : String) : SchemaError :=
  match v with
  | .boolean b => .invalidType (.boolean b) expected
  | .integer n =>
    if fitsWord 64 n then .invalidType (.integer n) expected
    else if fitsWord 128 n then .invalidType (.wideInteger n) expected
    else .integerOverflow
  | .malformedInteger => .integerOverflow
  | .float x => .invalidType (.float x) expected
  | .overflow => .floatOverflow
  | .string s => .invalidType (.string s) expected
  | .datetime => .invalidType .map expected
  | .array .. => .invalidType .sequence expected
  | .table .. => .invalidType .map expected

/-- A float. An integer that 64 bits hold, with a sign or without, is one too. -/
def float (v : Value) : Except SchemaError Float :=
  match v with
  | .float x => .ok x
  | .integer n =>
    if fitsWord 64 n then .ok (Float.ofInt n) else .error (mismatch v "f64")
  | v => .error (mismatch v "f64")

/-- A whole number below `bound`. -/
def natural (bound : Nat) (expected : String) (v : Value) : Except SchemaError Nat :=
  match v with
  | .integer n =>
    if 0 ≤ n ∧ n < bound then .ok n.toNat
    else if fitsWord 64 n then .error (.invalidValue n expected)
    else .error (mismatch v expected)
  | v => .error (mismatch v expected)

/-- A number of a cycle. -/
def cycle : Value → Except SchemaError Nat := natural (powerOfTwo 8) "u8"

/-- A number of milliseconds. -/
def milliseconds : Value → Except SchemaError Nat := natural (powerOfTwo 32) "u32"

/-- A boolean. -/
def boolean (v : Value) : Except SchemaError Bool :=
  match v with
  | .boolean b => .ok b
  | v => .error (mismatch v "a boolean")

/-- A string. -/
def string (v : Value) : Except SchemaError String :=
  match v with
  | .string s => .ok s
  | v => .error (mismatch v "a string")

/-- A list whose items are all read alike. -/
def list {β : Type} (item : Value → Except SchemaError β) (v : Value) :
    Except SchemaError (List β) :=
  match v with
  | .array _ vs => vs.mapM item
  | v => .error (mismatch v "a sequence")

/-- The level that a word names. -/
def levelWord (word : String) : Except SchemaError Level :=
  match Level.ofWord? word with
  | some l => .ok l
  | none => .error (.unknownVariant word (Level.all.map Level.word))

/-- A log level: its word, or a table whose one key is the word and has nothing
in it. -/
def level (v : Value) : Except SchemaError Level :=
  match v with
  | .string s => levelWord s
  | .table _ [(word, content)] =>
    match levelWord word, content with
    | .error e, _ => .error e
    | .ok l, .table _ [] => .ok l
    | .ok l, .array _ [] => .ok l
    | .ok _, _ => .error .variantWithContent
  | .table _ entries => .error (.notOneVariant entries.length)
  | _ => .error .notAVariant

/-- A kind of record: its name, the names of its fields in order, what is known of
it before any field is read, how a field changes that, and what is made of it in
the end. -/
structure Record (δ β : Type) where
  name : String
  fields : List String
  start : δ
  /-- Read the value of a field. It is asked for no other fields than those
  listed. -/
  field : String → Value → δ → Except SchemaError δ
  /-- The record, or the name of the first field that is missing. -/
  finish : δ → Except String β

namespace Record

variable {δ β : Type}

/-- Read one key of a table. -/
def entry (r : Record δ β) (draft : δ) (e : String × Value) : Except SchemaError δ :=
  if e.1 ∈ r.fields then r.field e.1 e.2 draft else .error (.unknownField e.1 r.fields)

/-- The entries of a table in the order of their keys. -/
def sorted (entries : Entries) : Entries := entries.mergeSort fun a b => a.1 ≤ b.1

/-- The record of a table. -/
def ofEntries (r : Record δ β) (entries : Entries) : Except SchemaError β := do
  let draft ← (sorted entries).foldlM r.entry r.start
  (r.finish draft).mapError .missingField

/-- The record of a list. Values beyond the last field are passed over. -/
def ofItems (r : Record δ β) (items : List Value) : Except SchemaError β := do
  let draft ← (r.fields.zip items).foldlM r.entry r.start
  (r.finish draft).mapError fun name =>
    .invalidLength (r.fields.idxOf name)
      s!"struct {r.name} with {r.fields.length} elements"

/-- The key under which a date or a time would be a table of its own. -/
def datetimeKey : String := "$__toml_private_datetime"

/-- The record of a value. -/
def read (r : Record δ β) (v : Value) : Except SchemaError β :=
  match v with
  | .table _ entries => r.ofEntries entries
  | .array _ items => r.ofItems items
  | .datetime => .error (.unknownField datetimeKey r.fields)
  | v => .error (mismatch v ("struct " ++ r.name))

end Record

/-- The record of a motor. Each key that is left out has the value it starts with. -/
def motor : Record (MotorSettings Float) (MotorSettings Float) where
  name := "MotorConfig"
  fields := ["pulloff_mm", "limit_switch"]
  start := { pulloff := 1.0, limitSwitch := true }
  field name v m :=
    match name with
    | "pulloff_mm" => (float v).map fun x => { m with pulloff := x }
    | _ => (boolean v).map fun b => { m with limitSwitch := b }
  finish := .ok

/-- The record of homing parameters. Each key that is left out has the value it starts with. -/
def homing : Record (HomingSettings Float) (HomingSettings Float) where
  name := "HomingConfig"
  fields := ["cycle", "seek_mpm", "feed_mpm", "settle_ms", "positive_direction", "mpos_mm",
    "seek_scaler", "feed_scaler"]
  start :=
    { cycle := none
      seekRate := 200.0
      feedRate := 50.0
      settle := 250
      positiveDirection := true
      reference := 0.0
      seekScaler := 1.1
      feedScaler := 1.1 }
  field name v h :=
    match name with
    | "cycle" => (cycle v).map fun n => { h with cycle := some n }
    | "seek_mpm" => (float v).map fun x => { h with seekRate := x }
    | "feed_mpm" => (float v).map fun x => { h with feedRate := x }
    | "settle_ms" => (milliseconds v).map fun n => { h with settle := n }
    | "positive_direction" => (boolean v).map fun b => { h with positiveDirection := b }
    | "mpos_mm" => (float v).map fun x => { h with reference := x }
    | "seek_scaler" => (float v).map fun x => { h with seekScaler := x }
    | _ => (float v).map fun x => { h with feedScaler := x }
  finish := .ok

/-- What is known of an axis while its fields are read. -/
structure AxisDraft where
  name : Option String := none
  maxTravel : Option Float := none
  stepsPerMm : Option Float := none
  homing : Option (HomingSettings Float) := none
  motors : List (MotorSettings Float) := [.default]

/-- The record of an axis. -/
def axis : Record AxisDraft (AxisSettings Float) where
  name := "AxisConfig"
  fields := ["name", "max_travel_mm", "steps_per_mm", "homing", "motors"]
  start := {}
  field name v a :=
    match name with
    | "name" => (string v).map fun s => { a with name := some s }
    | "max_travel_mm" => (float v).map fun x => { a with maxTravel := some x }
    | "steps_per_mm" => (float v).map fun x => { a with stepsPerMm := some x }
    | "homing" => (homing.read v).map fun h => { a with homing := some h }
    | _ => (list motor.read v).map fun ms => { a with motors := ms }
  finish a :=
    match a.name, a.maxTravel, a.stepsPerMm with
    | none, _, _ => .error "name"
    | _, none, _ => .error "max_travel_mm"
    | _, _, none => .error "steps_per_mm"
    | some name, some maxTravel, some stepsPerMm =>
      .ok { name, maxTravel, stepsPerMm, homing := a.homing, motors := a.motors }

/-- What is known of a machine while its fields are read. -/
structure MachineDraft where
  logLevel : Level := .info
  axes : Option (List (AxisSettings Float)) := none

/-- The record of a machine. -/
def machine : Record MachineDraft (MachineSettings Float) where
  name := "MachineConfig"
  fields := ["log_level", "axes"]
  start := {}
  field name v m :=
    match name with
    | "log_level" => (level v).map fun l => { m with logLevel := l }
    | _ => (list axis.read v).map fun axes => { m with axes := some axes }
  finish m :=
    match m.axes with
    | none => .error "axes"
    | some axes => .ok { logLevel := m.logLevel, axes }

end Schema

/-- The settings that a table holds. -/
def MachineSettings.ofTable (entries : Entries) : Except SchemaError (MachineSettings Float) :=
  Schema.machine.ofEntries entries

end Homing
