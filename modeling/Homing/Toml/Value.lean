/-!
# Trees of a TOML document

A TOML document is a table, and a table is a list of keys with their values in
the order in which they were first written. No key comes twice. The way in which
a table or a list of tables was written is kept with it, because that decides
what later lines of the document may still add to it; it has no part in what the
document means.
-/

namespace Homing.Toml

/-- How a table was written. -/
inductive Origin where
  /-- In braces, as the value of a key. -/
  | inline
  /-- Under a header of its own. -/
  | header
  /-- As a step on the way to the table of a header. -/
  | implicit
  /-- As a step on the way of a dotted key. -/
  | dotted
deriving DecidableEq, Repr, Inhabited

/-- A value of a TOML document. -/
inductive Value where
  | string (s : String)
  | integer (n : Int)
  /-- A word in the form of an integer that writes none. -/
  | malformedInteger
  | float (x : Float)
  /-- A float that is too large to be held. -/
  | overflow
  | boolean (b : Bool)
  | datetime
  /-- A list of values. One that was written with headers can be added to. -/
  | array (openEnded : Bool) (items : List Value)
  | table (origin : Origin) (entries : List (String × Value))
deriving Inhabited

/-- The keys of a table with their values. -/
abbrev Entries := List (String × Value)

namespace Entries

/-- Change the value of a key, or give the key a value at the end of the table.
The change sees the value that the key has, and can refuse. -/
def alter (key : String) (f : Option Value → Option Value) : Entries → Option Entries
  | [] => (f none).map fun v => [(key, v)]
  | (k, v) :: rest =>
    if k = key then (f (some v)).map fun v => (k, v) :: rest
    else (alter key f rest).map ((k, v) :: ·)

@[simp] theorem alter_nil (key : String) (f : Option Value → Option Value) :
    alter key f [] = (f none).map fun v => [(key, v)] := rfl

/-- Change the table that a value is, or the last one of a list of tables. -/
def alterTable (f : Origin → Entries → Option Entries) : Value → Option Value
  | .table .inline _ => none
  | .table origin entries => (f origin entries).map (.table origin)
  | .array true items =>
    match items.getLast? with
    | some (.table origin entries) =>
      (f origin entries).map fun es => .array true (items.dropLast ++ [.table origin es])
    | _ => none
  | _ => none

/-- Write a key of one or more parts into a table. Every part but the last leads
into a table, and new tables are made on the way. A table that has a header of
its own can not be entered this way, and the last part has to be new. `top` says
that the table is the one that the key is written in, and `dotted` that it was
made by a dotted key. -/
def write (value : Value) : List String → Bool → Bool → Entries → Option Entries
  | [], _, _, _ => none
  | [key], top, dotted, entries =>
    if top = dotted then none
    else entries.alter key fun
      | none => some value
      | some _ => none
  | key :: rest, _, _, entries =>
    entries.alter key fun
      | none => (write value rest false true []).map (.table .dotted)
      | some (.table .header _) => none
      | some v => alterTable (fun origin es => write value rest false (origin == .dotted) es) v

/-- Change the table at the end of a path, and make the tables that are missing
on the way. -/
def atPath (f : Entries → Option Entries) : List String → Entries → Option Entries
  | [], entries => f entries
  | key :: rest, entries =>
    entries.alter key fun
      | none => (atPath f rest []).map (.table .implicit)
      | some v => alterTable (fun _ es => atPath f rest es) v

/-- Begin a table under a header. A table that so far was only on the way to
others is made the header's own. -/
def beginTable (key : String) (entries : Entries) : Option Entries :=
  entries.alter key fun
    | none => some (.table .header [])
    | some (.table .implicit es) => some (.table .header es)
    | some _ => none

/-- Add one more table to a list that is written with headers. -/
def addItem (item : Entries) (key : String) (entries : Entries) : Option Entries :=
  entries.alter key fun
    | none => some (.array true [.table .header item])
    | some (.array true items) => some (.array true (items ++ [.table .header item]))
    | some _ => none

/-- Change the table that holds the key at the end of a path. -/
def atKey (f : String → Entries → Option Entries) (path : List String) (entries : Entries) :
    Option Entries :=
  path.getLast?.bind fun key => atPath (f key) path.dropLast entries

end Entries

end Homing.Toml
