import Homing.Decimal.Read
import Homing.Text.Blank

/-!
# Items of a pattern

A pattern describes texts. Its smallest parts are its items: a character by itself or
by an escape, a class that has a letter, the edge of a word, the beginning or the end.
`escape?` reads what follows a backslash, and `Item.fits` says which items a mode
admits.

A pattern is about characters or about bytes. There are no tables of the scripts here,
so a pattern about characters can not use what would need them: the classes that have
a letter, the edges of words, and letters whose case is ignored. A pattern about bytes
has these for ASCII, but it can not use what would match a part of a character.
-/

namespace Homing.Pattern

/-- How the characters of a pattern are taken. -/
structure Mode where
  /-- The pattern is about characters, and not about bytes. -/
  unicode : Bool := true
  /-- The case of letters is ignored. -/
  anyCase : Bool := false
  /-- Blanks and comments are passed over. -/
  spaced : Bool := false
deriving DecidableEq, Repr

/-- The text after blanks and comments. `inComment` says whether it begins within a
comment, which goes to the end of a line. -/
def skipSpaces (inComment : Bool) : List Char → List Char
  | [] => []
  | c :: cs =>
    if inComment then skipSpaces (c != '\n') cs
    else if Text.isBlank c then skipSpaces false cs
    else if c = '#' then skipSpaces true cs
    else c :: cs

/-- The text after what a mode passes over. -/
def Mode.skip (m : Mode) (cs : List Char) : List Char :=
  if m.spaced then skipSpaces false cs else cs

/-- An item of a pattern. -/
inductive Item where
  /-- A character. `byte` says that it was written as a byte, by two digits. -/
  | literal (c : Char) (byte : Bool)
  /-- The digits, the blanks or the characters of words, or all but these. -/
  | letterClass (negated : Bool)
  /-- Any character of a line. -/
  | any
  /-- The beginning or the end of a text or a line. -/
  | anchor
  /-- A place where a word begins or ends, or where none does. -/
  | wordEdge
deriving DecidableEq, Repr

/-- Whether an item can be used in a mode. -/
def Item.fits (m : Mode) : Item → Bool
  | .literal c byte => if m.unicode then !m.anyCase else !byte || c.toNat < 0x80
  | .letterClass negated => !m.unicode && !negated
  | .any => m.unicode
  | .anchor => true
  | .wordEdge => !m.unicode

/-- The number that exactly so many hexadecimal digits write. -/
def hexDigits? (m : Mode) : Nat → Nat → List Char → Option (Nat × List Char)
  | 0, value, cs => some (value, cs)
  | _ + 1, _, [] => none
  | n + 1, value, c :: cs =>
    match Decimal.digit? 16 c with
    | some d => hexDigits? m n (16 * value + d) (m.skip cs)
    | none => none

/-- The character whose number so many hexadecimal digits write. -/
def numbered? (m : Mode) (count : Nat) (cs : List Char) : Option (Item × List Char) :=
  match hexDigits? m count 0 (m.skip cs) with
  | some (n, rest) =>
    if n.isValidChar then some (.literal (Char.ofNat n) (count == 2), rest) else none
  | none => none

/-- Whether a backslash before a character leaves it as it is. -/
def isEscapable (c : Char) : Bool :=
  c.toNat < 0x80 && !c.isAlphanum && c != '<' && c != '>'

/-- The item that a letter after a backslash stands for by itself. -/
def letter? : Char → Option Item
  | 'a' => some (.literal '\x07' false)
  | 'f' => some (.literal '\x0c' false)
  | 'n' => some (.literal '\n' false)
  | 'r' => some (.literal '\r' false)
  | 't' => some (.literal '\t' false)
  | 'v' => some (.literal '\x0b' false)
  | 'd' | 's' | 'w' => some (.letterClass false)
  | 'D' | 'S' | 'W' => some (.letterClass true)
  | 'A' | 'z' => some .anchor
  | 'b' | 'B' | '<' | '>' => some .wordEdge
  | _ => none

/-- The item of an escape, from the text after its backslash. -/
def escape? (m : Mode) : List Char → Option (Item × List Char)
  | [] => none
  | 'x' :: cs => numbered? m 2 cs
  | 'u' :: cs => numbered? m 4 cs
  | 'U' :: cs => numbered? m 8 cs
  | 'b' :: '\x7b' :: _ => none
  | c :: cs =>
    if isEscapable c then some (.literal c false, cs) else (letter? c).map (·, cs)

end Homing.Pattern
