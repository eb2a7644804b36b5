import Homing.Decimal.Read

/-!
# Pieces of a TOML document

The smallest parts of a document that carry a meaning are its pieces: a string with
its quotes, a word in a key, or a word in the place of a value. Here they are only
cut out. Where a piece ends does not depend on whether it is well formed: a string
ends with its quotes, or where the line or the text ends before them, and a word ends
at a mark that has a meaning of its own.

The text between the pieces is passed over by `skipBlanks`, `skipGaps` and
`skipLineEnd`. Apart from a tab no control character may stand in a comment, and a
line ends with a line feed that a carriage return may precede.
-/

namespace Homing.Toml

/-- Why a text is not a TOML document. -/
inductive Fault where
  /-- It does not have the form of one. -/
  | form
  /-- The first thing wrong with it is an escape with a number that is no character. -/
  | codePoint
deriving DecidableEq, Repr

/-- The text of a fault. -/
def Fault.message : Fault → String
  | form => "TOML parse error"
  | codePoint => "invalid value, expected unicode hexadecimal value"

/-- How a piece is written. -/
inductive Style where
  /-- Without quotes. -/
  | bare
  | basic
  | literal
  /-- In three double quotes. -/
  | longBasic
  /-- In three single quotes. -/
  | longLiteral
deriving DecidableEq, Repr

/-- A piece of a document. -/
structure Piece where
  style : Style
  /-- The characters of the piece. Those of a string begin after the quotes that open
  it, and the quotes that close it are among them. -/
  text : List Char
deriving DecidableEq, Repr

/-! ## Between the pieces -/

/-- Whether a character may not stand in a string or a comment. -/
def isControl (c : Char) : Bool := (c.toNat < 32 && c != '\t') || c.toNat == 127

/-- Whether a character is a blank within a line. -/
def isBlank (c : Char) : Bool := c == ' ' || c == '\t'

/-- The text after the blanks at its front. -/
def skipBlanks (cs : List Char) : List Char := cs.dropWhile isBlank

/-- The text after blanks, line ends and comments. `inComment` says whether it
begins within a comment. -/
def skipGaps (inComment : Bool) : List Char → Option (List Char)
  | [] => some []
  | '\n' :: cs => skipGaps false cs
  | '\r' :: '\n' :: cs => skipGaps false cs
  | c :: cs =>
    if inComment then if isControl c then none else skipGaps true cs
    else if c = '#' then skipGaps true cs
    else if isBlank c then skipGaps false cs
    else some (c :: cs)

/-- The text after the end of a line, with an optional comment before it. The
text may also end there. -/
def skipLineEnd (inComment : Bool) : List Char → Option (List Char)
  | [] => some []
  | '\n' :: cs => some cs
  | '\r' :: '\n' :: cs => some cs
  | c :: cs =>
    if inComment then if isControl c then none else skipLineEnd true cs
    else if c = '#' then skipLineEnd true cs
    else if isBlank c then skipLineEnd false cs
    else none

/-! ## Strings -/

/-- Cut a string in single quotes from the text after its opening quote. -/
def cutLiteral (done : List Char) : List Char → List Char × List Char
  | [] => (done.reverse, [])
  | c :: cs =>
    if c = '\'' then ((c :: done).reverse, cs)
    else if c = '\n' then (done.reverse, c :: cs)
    else cutLiteral (c :: done) cs

/-- Cut a string in double quotes from the text after its opening quote. `escaped`
says that a backslash came just before, after which a quote does not close. -/
def cutBasic (escaped : Bool) (done : List Char) : List Char → List Char × List Char
  | [] => (done.reverse, [])
  | c :: cs =>
    if c = '"' ∧ escaped = false then ((c :: done).reverse, cs)
    else if c = '\n' then (done.reverse, c :: cs)
    else cutBasic (!escaped && c == '\\') (c :: done) cs

/-- The number of quotes that close a string when so many stand in a row. Up to two
of them may belong to the string itself. -/
def closingQuotes (inRow : Nat) : Nat := min inRow 5

/-- Cut a string in three quotes from the text after those that open it. With
`escapes`, a quote after a backslash does not close. `skip` is the number of characters
that are already known not to close. -/
def cutLong (quote : Char) (escapes : Bool) (skip : Nat) (done : List Char) :
    List Char → List Char × List Char
  | [] => (done.reverse, [])
  | c :: cs =>
    match skip with
    | skip + 1 => cutLong quote escapes skip (c :: done) cs
    | 0 =>
      let inRow := ((c :: cs).takeWhile (· == quote)).length
      if 3 ≤ inRow then
        let n := closingQuotes inRow
        (done.reverse ++ List.replicate n quote, cs.drop (n - 1))
      else if escapes ∧ c = '\\' ∧ (cs.head?.any fun e => e == quote || e == '\\') then
        cutLong quote escapes 1 (c :: done) cs
      else cutLong quote escapes 0 (c :: done) cs

/-- A string at the front of a text. -/
def string? : List Char → Option (Piece × List Char)
  | '"' :: '"' :: '"' :: cs =>
    let (text, rest) := cutLong '"' true 0 [] cs
    some (⟨.longBasic, text⟩, rest)
  | '"' :: cs =>
    let (text, rest) := cutBasic false [] cs
    some (⟨.basic, text⟩, rest)
  | '\'' :: '\'' :: '\'' :: cs =>
    let (text, rest) := cutLong '\'' false 0 [] cs
    some (⟨.longLiteral, text⟩, rest)
  | '\'' :: cs =>
    let (text, rest) := cutLiteral [] cs
    some (⟨.literal, text⟩, rest)
  | _ => none

/-! ## Words -/

/-- Whether a character has a meaning of its own outside of strings. -/
def isMark (c : Char) : Bool :=
  isBlank c || ['\n', '\r', '.', ',', '=', '#', '[', ']', '\x7b', '\x7d'].contains c

/-- Whether a word may begin with a character. Later on it may also hold quotes. -/
def beginsWord (c : Char) : Bool := !isMark c && c != '"' && c != '\''

/-- Cut the words of a value from the front of a text. Points between them belong to
the value, and so do blanks that another word follows, as between a date and a time.
`within` says whether a word has begun. -/
def cutWords (within : Bool) (done : List Char) : List Char → List Char × List Char
  | [] => (done.reverse, [])
  | c :: cs =>
    if c = '.' then cutWords false (c :: done) cs
    else if isBlank c then
      if (skipBlanks cs).head?.any beginsWord then cutWords false (c :: done) cs
      else (done.reverse, c :: cs)
    else if beginsWord c || (within && !isMark c) then cutWords true (c :: done) cs
    else (done.reverse, c :: cs)

/-- The piece in the place of a value at the front of a text. It is empty where a
mark stands there. -/
def valuePiece (cs : List Char) : Piece × List Char :=
  match string? cs with
  | some cut => cut
  | none =>
    let (text, rest) := cutWords false [] cs
    (⟨.bare, text⟩, rest)

/-- One part of a key at the front of a text. It is empty where a mark stands there. -/
def keyPiece (cs : List Char) : Piece × List Char :=
  match string? cs with
  | some cut => cut
  | none => (⟨.bare, cs.takeWhile (!isMark ·)⟩, cs.dropWhile (!isMark ·))

/-- A key at the front of a text, which is parts with points between them, with the
blanks around them. The number bounds the parts. -/
def keyPieces : Nat → List Char → List Piece × List Char
  | 0, cs => ([], cs)
  | n + 1, cs =>
    let (part, rest) := keyPiece (skipBlanks cs)
    match skipBlanks rest with
    | '.' :: more =>
      let (parts, rest) := keyPieces n more
      (part :: parts, rest)
    | rest => ([part], rest)

/-- A piece that was left out. -/
def Piece.missing : Piece := ⟨.bare, []⟩

/-- The text from the next comment or line end on. Strings are passed over as a whole,
so one of several lines leads to the last of them. The number bounds the pieces. -/
def skipLine : Nat → List Char → List Char
  | 0, cs => cs
  | n + 1, cs =>
    match cs with
    | [] => []
    | c :: more =>
      if c = '#' ∨ c = '\n' ∨ c = '\r' then cs
      else if isMark c then skipLine n more
      else skipLine n (keyPiece cs).2

/-- A key at the front of a text. -/
def key (cs : List Char) : List Piece × List Char := keyPieces (cs.length + 1) cs

end Homing.Toml
