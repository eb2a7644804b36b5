import Homing.Toml.Outline
import Homing.Toml.Scalar
import Homing.Toml.Text

/-!
# Reading a TOML document

`Toml.parse` is the table that a text of TOML stands for, or what is wrong with the
text. A document is read in two steps: its outline is found, and then its pieces are
read in the order in which they were written. A header chooses the table that the
lines after it write into, and every other line gives a key its value. What is wrong
is the first thing that is wrong, and a text without an outline has no piece that
could be.
-/

namespace Homing.Toml

/-- What there is of an optional value, where nothing is a fault of the form. -/
def orForm {β : Type} : Option β → Except Fault β
  | some x => .ok x
  | none => .error .form

/-- The value of a piece. -/
def Piece.value (p : Piece) : Except Fault Value :=
  match p.style with
  | .bare => orForm (Value.ofToken? p.text)
  | _ => p.string.map .string

mutual

/-- The value of a node of an outline. -/
def Node.value : Node → Except Fault Value
  | .piece p => p.value
  | .array items => (Node.values items).map (.array false)
  | .table entries => (Node.entries [] entries).map (.table .inline)

/-- The values of nodes. -/
def Node.values : List Node → Except Fault (List Value)
  | [] => .ok []
  | n :: ns => do
    let v ← n.value
    let vs ← Node.values ns
    return v :: vs

/-- The entries of a table in braces, after some that are `done`. -/
def Node.entries (done : Entries) : List (List Piece × Node) → Except Fault Entries
  | [] => .ok done
  | (key, n) :: rest => do
    let key ← keyTexts key
    let v ← n.value
    Node.entries (← orForm (done.write v key true false)) rest

end

/-- Where the entries of a document are written to. -/
inductive Place where
  /-- The table at the end of a path. -/
  | table (path : List String)
  /-- A table by itself, which joins the list at the end of a path when it is complete. -/
  | item (path : List String) (entries : Entries)

/-- A document while it is read. -/
structure Draft where
  root : Entries
  place : Place

namespace Draft

/-- Give a key its value in the table that is being written. -/
def write (key : List String) (v : Value) (d : Draft) : Option Draft :=
  match d.place with
  | .table path =>
    (Entries.atPath (Entries.write v key true false) path d.root).map fun root => { d with root }
  | .item path entries =>
    (Entries.write v key true false entries).map fun es => { d with place := .item path es }

/-- The document when the table that is being written is complete. -/
def complete (d : Draft) : Option Entries :=
  match d.place with
  | .table _ => some d.root
  | .item path entries => d.root.atKey (Entries.addItem entries) path

/-- The document with the table of a header, or with one more table of a list. A list
is looked for only when its new table is complete. -/
def ofHeader (item : Bool) (path : List String) (root : Entries) : Option Draft :=
  if item then some ⟨root, .item path []⟩
  else (root.atKey Entries.beginTable path).map (⟨·, .table path⟩)

/-- Read a line. -/
def line (d : Draft) : Line → Except Fault Draft
  | .header item path => do
    let root ← orForm d.complete
    orForm (ofHeader item (← keyTexts path) root)
  | .entry key value => do
    let key ← keyTexts key
    let v ← value.value
    orForm (d.write key v)

end Draft

/-- The table that a text stands for. -/
def parse (text : String) : Except Fault Entries := do
  let lines ← orForm (outline? text)
  let d ← lines.foldlM Draft.line ⟨[], .table []⟩
  orForm d.complete

end Homing.Toml
