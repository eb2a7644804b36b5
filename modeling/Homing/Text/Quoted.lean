import Homing.Text.Hidden

/-!
# Quoted text

`quoted` writes a text between double quotes so that every character of it can be
seen. A quote and a backslash get a backslash before them, the usual control
characters have a letter, and any other character that would not show as itself is
written by its code point in hexadecimal.
-/

namespace Homing.Text

/-- The text of a code point in hexadecimal. -/
def codePointText (c : Char) : String :=
  "\\u\x7b" ++ String.ofList (Nat.toDigits 16 c.toNat) ++ "\x7d"

/-- A character as it is written within quotes. -/
def quotedChar (c : Char) : String :=
  match c with
  | '"' => "\\\""
  | '\\' => "\\\\"
  | '\n' => "\\n"
  | '\r' => "\\r"
  | '\t' => "\\t"
  | '\x00' => "\\0"
  | c => if isHidden c then codePointText c else c.toString

/-- A text between quotes. -/
def quoted (s : String) : String := "\"" ++ String.join (s.toList.map quotedChar) ++ "\""

end Homing.Text
