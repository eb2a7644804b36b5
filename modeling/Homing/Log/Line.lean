import Homing.Log.Note
import Homing.Text.Quoted

/-!
# Lines of the log

A line of the log has a level, the path of the part of the program that it comes
from, and a message. It is written in one of two forms: as plain text, or as an
object of JSON on a single line. A plain line gives a terminal nothing to obey: the
characters of the message that a terminal takes for orders are written by their code.
-/

namespace Homing

/-- A line of the log. -/
structure LogLine where
  level : Level
  path : String
  message : String
deriving DecidableEq, Repr

namespace LogLine

/-- The line of a note. -/
def ofNote (n : Note Float) : LogLine := ⟨n.level, n.source.path, n.message⟩

/-- A character of a message in plain text. -/
def plainChar (c : Char) : String :=
  match c with
  | '\x07' => "\\x07"
  | '\x08' => "\\x08"
  | '\x0c' => "\\x0c"
  | '\x1b' => "\\x1b"
  | '\x7f' => "\\x7f"
  | c => if 0x80 ≤ c.toNat ∧ c.toNat ≤ 0x9f then Text.codePointText c else c.toString

/-- The line as plain text. -/
def plain (l : LogLine) : String :=
  s!"{l.level.heading} {l.path}: " ++ String.join (l.message.toList.map plainChar)

/-- A character within a string of JSON. -/
def objectChar (c : Char) : String :=
  match c with
  | '"' => "\\\""
  | '\\' => "\\\\"
  | '\x08' => "\\b"
  | '\t' => "\\t"
  | '\n' => "\\n"
  | '\x0c' => "\\f"
  | '\r' => "\\r"
  | c =>
    if c.toNat < 32 then
      let digits := Nat.toDigits 16 c.toNat
      "\\u" ++ String.ofList (List.replicate (4 - digits.length) '0' ++ digits)
    else c.toString

/-- A text as a string of JSON. -/
def objectString (s : String) : String :=
  "\"" ++ String.join (s.toList.map objectChar) ++ "\""

/-- The line as an object of JSON. -/
def object (l : LogLine) : String :=
  "\x7b\"level\":" ++ objectString l.level.heading ++
    ",\"fields\":\x7b\"message\":" ++ objectString l.message ++
    "\x7d,\"target\":" ++ objectString l.path ++ "\x7d"

end LogLine

end Homing
