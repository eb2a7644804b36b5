import Homing.Toml.Piece

/-!
# Outlines of a TOML document

The outline of a document is how its pieces stand to each other: what is a header,
what is a key and what its value, and how values nest in brackets and braces. It is
found without a look into the pieces, so a text can have an outline and still not be
well formed, and a text without one has no other fault than that.

Some pieces may be left out in an outline: a part of a key, the value of an entry where
a line or a pair of braces ends, and the key of a header, with all that would follow it.
In their place is the empty piece, which never is well formed.

Values nest in up to `maxDepth` brackets and braces. Both of these may go over several
lines and end with a comma.
-/

namespace Homing.Toml

/-- A value in an outline. -/
inductive Node where
  | piece (p : Piece)
  | array (items : List Node)
  | table (entries : List (List Piece × Node))

/-- A line of a document. A value may make it a long one. -/
inductive Line where
  /-- The header of a table, or of one more table of a list. -/
  | header (item : Bool) (path : List Piece)
  /-- A key with its value. -/
  | entry (key : List Piece) (value : Node)

/-- The number of brackets and braces that may be open at once. -/
def maxDepth : Nat := 80

namespace Node

/-- The rest of a list in brackets, where `item` reads one value. The number
bounds the values, and `done` holds those that were read, backwards. -/
def arrayRest? (item : List Char → Option (Node × List Char)) :
    Nat → List Node → List Char → Option (Node × List Char)
  | 0, _, _ => none
  | n + 1, done, cs =>
    match skipGaps false cs with
    | none => none
    | some (']' :: rest) => some (.array done.reverse, rest)
    | some cs =>
      match item cs with
      | none => none
      | some (v, rest) =>
        match skipGaps false rest with
        | some (',' :: rest) => arrayRest? item n (v :: done) rest
        | some (']' :: rest) => some (.array (v :: done).reverse, rest)
        | _ => none

/-- A key, the sign of equality and a value in a table in braces. The table may end
after the key or the sign. -/
def entry? (item : List Char → Option (Node × List Char)) (cs : List Char) :
    Option ((List Piece × Node) × List Char) := do
  let (key, rest) := key cs
  match ← skipGaps false rest with
  | '\x7d' :: rest => return ((key, .piece .missing), '\x7d' :: rest)
  | '=' :: rest =>
    match ← skipGaps false rest with
    | '\x7d' :: rest => return ((key, .piece .missing), '\x7d' :: rest)
    | rest =>
      let (v, rest) ← item rest
      return ((key, v), rest)
  | _ => none

/-- The rest of a table in braces, where `item` reads one value. Lines may end
anywhere but within a key. The number bounds the entries, and `done` holds those that
were read, backwards. -/
def tableRest? (item : List Char → Option (Node × List Char)) :
    Nat → List (List Piece × Node) → List Char → Option (Node × List Char)
  | 0, _, _ => none
  | n + 1, done, cs =>
    match skipGaps false cs with
    | none => none
    | some ('\x7d' :: rest) => some (.table done.reverse, rest)
    | some cs =>
      match entry? item cs with
      | none => none
      | some (e, rest) =>
        match skipGaps false rest with
        | some (',' :: rest) => tableRest? item n (e :: done) rest
        | some ('\x7d' :: rest) => some (.table (e :: done).reverse, rest)
        | _ => none

/-- A piece as a value among others, where it can not be left out. -/
def ofPiece? (cs : List Char) : Option (Node × List Char) :=
  let (p, rest) := valuePiece cs
  if p = .missing then none else some (.piece p, rest)

/-- A value at the front of a text within brackets or braces, where so many more of
them may be opened. -/
def inner? : Nat → List Char → Option (Node × List Char)
  | 0, cs => ofPiece? cs
  | depth + 1, cs =>
    match cs with
    | '[' :: rest => arrayRest? (inner? depth) (rest.length + 1) [] rest
    | '\x7b' :: rest => tableRest? (inner? depth) (rest.length + 1) [] rest
    | cs => ofPiece? cs

/-- The value of a line at the front of a text. Its piece is empty where the line
ends before it. -/
def outer? (cs : List Char) : Option (Node × List Char) :=
  match cs with
  | '[' :: _ | '\x7b' :: _ => inner? maxDepth cs
  | cs =>
    let (p, rest) := valuePiece cs
    some (.piece p, rest)

end Node

namespace Line

/-- A header without the brackets that close it. The last part of its key has to be
left out, and then whatever else is in the line is left out as well. -/
def openHeader? (item : Bool) (path : List Piece) (rest : List Char) :
    Option (Line × List Char) :=
  if path.getLast? = some .missing then some (.header item path, skipLine rest.length rest)
  else none

/-- The line at the front of a text, without its end. -/
def read? (cs : List Char) : Option (Line × List Char) :=
  match cs with
  | '[' :: '[' :: rest =>
    match key rest with
    | (path, ']' :: ']' :: rest) => some (.header true path, rest)
    | (_, ']' :: _) => none
    | (path, rest) => openHeader? true path rest
  | '[' :: rest =>
    match key rest with
    | (path, ']' :: rest) => some (.header false path, rest)
    | (path, rest) => openHeader? false path rest
  | cs =>
    match key cs with
    | (key, '=' :: rest) =>
      (Node.outer? (skipBlanks rest)).map fun (v, rest) => (.entry key v, rest)
    | _ => none

/-- The lines of a text. The number bounds them. -/
def readAll? : Nat → List Char → Option (List Line)
  | 0, _ => none
  | n + 1, cs =>
    match skipGaps false cs with
    | none => none
    | some [] => some []
    | some cs =>
      match read? cs with
      | none => none
      | some (line, rest) =>
        match skipLineEnd false rest with
        | none => none
        | some rest => (readAll? n rest).map (line :: ·)

end Line

/-- The lines of a document. A mark of the byte order at its front is passed over. -/
def outline? (text : String) : Option (List Line) :=
  let cs := match text.toList with
    | '\ufeff' :: cs => cs
    | cs => cs
  Line.readAll? (cs.length + 1) cs

end Homing.Toml
