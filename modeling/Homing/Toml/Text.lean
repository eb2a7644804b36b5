import Homing.Toml.Piece

/-!
# Strings and keys of TOML

`Piece.string` is the text that a string stands for, and `Piece.keyText` the one that
a part of a key stands for. Apart from a tab no control character may stand in a
string. A string of several lines holds its line ends as they were written, but not
the one that directly follows the quotes which open it. In double quotes a backslash
begins an escape, and at the end of a line it leaves out the blanks and line ends that
follow.
-/

namespace Homing.Toml

/-- The character of a code point that `count` hexadecimal digits write at the
front of a text. -/
def codePoint (count : Nat) (cs : List Char) : Except Fault Char :=
  let digits := cs.take count
  if digits.length = count ∧ digits.all (fun c => (Decimal.digit? 16 c).isSome) = true then
    let n := Decimal.ofDigitChars 16 digits
    if n.isValidChar then .ok (Char.ofNat n) else .error .codePoint
  else .error .form

/-- The character that a letter after a backslash stands for. -/
def escape? : Char → Option Char
  | 'b' => some '\x08'
  | 't' => some '\t'
  | 'n' => some '\n'
  | 'f' => some '\x0c'
  | 'r' => some '\r'
  | 'e' => some '\x1b'
  | '"' => some '"'
  | '\\' => some '\\'
  | _ => none

/-- The number of hexadecimal digits that follow a letter after a backslash. -/
def escapeDigits? : Char → Option Nat
  | 'x' => some 2
  | 'u' => some 4
  | 'U' => some 8
  | _ => none

/-- The character of an escape, with the number of characters that it takes after the
backslash. -/
def escape : List Char → Except Fault (Char × Nat)
  | [] => .error .form
  | e :: cs =>
    match escape? e, escapeDigits? e with
    | some x, _ => .ok (x, 1)
    | none, some n => (codePoint n cs).map (·, n + 1)
    | none, none => .error .form

/-- The text within double quotes. `skip` is the number of characters that an escape
before has already used, and `done` holds what was read, backwards. -/
def basicText (skip : Nat) (done : List Char) : List Char → Except Fault String
  | [] => .ok (String.ofList done.reverse)
  | c :: cs =>
    match skip with
    | skip + 1 => basicText skip done cs
    | 0 =>
      if isControl c then .error .form
      else if c ≠ '\\' then basicText 0 (c :: done) cs
      else match escape cs with
        | .error e => .error e
        | .ok (x, n) => basicText n (x :: done) cs

/-- What a backslash at the end of a line does to the text after it. -/
inductive Trim where
  /-- Nothing: there was no such backslash. -/
  | none
  /-- The line has yet to end. -/
  | line
  /-- Blanks and line ends are passed over. -/
  | gap
deriving DecidableEq

/-- The text within three double quotes. -/
def longBasicText (skip : Nat) (trim : Trim) (done : List Char) : List Char → Except Fault String
  | [] => if trim = .line then .error .form else .ok (String.ofList done.reverse)
  | c :: cs =>
    match skip with
    | skip + 1 => longBasicText skip trim done cs
    | 0 =>
      if c = '\n' then
        if trim = .none then longBasicText 0 .none (c :: done) cs
        else longBasicText 0 .gap done cs
      else if c = '\r' then
        if cs.head? ≠ some '\n' then .error .form
        else if trim = .none then longBasicText 0 .none (c :: done) cs
        else longBasicText 0 trim done cs
      else if trim ≠ .none ∧ isBlank c = true then longBasicText 0 trim done cs
      else if trim = .line ∨ isControl c = true then .error .form
      else if c ≠ '\\' then longBasicText 0 .none (c :: done) cs
      else if cs.head?.any (fun e => isBlank e || e == '\n' || e == '\r') then
        longBasicText 0 .line done cs
      else match escape cs with
        | .error e => .error e
        | .ok (x, n) => longBasicText n .none (x :: done) cs

/-- The text within single quotes, which knows no escapes. -/
def literalText (cs : List Char) : Except Fault String :=
  if cs.any isControl then .error .form else .ok (String.ofList cs)

/-- Whether a text may stand within three single quotes. -/
def isLongLiteral : List Char → Bool
  | [] => true
  | '\n' :: cs => isLongLiteral cs
  | '\r' :: cs => cs.head? == some '\n' && isLongLiteral cs
  | c :: cs => !isControl c && isLongLiteral cs

/-- The text after a line end at its front, which a string in triple quotes does
not hold. -/
def skipFirstLineEnd : List Char → List Char
  | '\n' :: cs => cs
  | '\r' :: '\n' :: cs => cs
  | cs => cs

/-- The text before the quotes that close a string, if so many of them are there. -/
def beforeQuotes (quote : Char) (count : Nat) (cs : List Char) : Except Fault (List Char) :=
  let n := cs.length - count
  if cs.drop n = List.replicate count quote then .ok (cs.take n) else .error .form

/-- The text that a string stands for. -/
def Piece.string (p : Piece) : Except Fault String := do
  match p.style with
  | .bare => .error .form
  | .basic => basicText 0 [] (← beforeQuotes '"' 1 p.text)
  | .literal => literalText (← beforeQuotes '\'' 1 p.text)
  | .longBasic => longBasicText 0 .none [] (skipFirstLineEnd (← beforeQuotes '"' 3 p.text))
  | .longLiteral =>
    let cs := skipFirstLineEnd (← beforeQuotes '\'' 3 p.text)
    if isLongLiteral cs then .ok (String.ofList cs) else .error .form

/-- Whether a character may stand in a key without quotes. -/
def isBare (c : Char) : Bool := c.isAlphanum || c == '_' || c == '-'

/-- The text that a part of a key stands for. A string in three quotes is none. -/
def Piece.keyText (p : Piece) : Except Fault String :=
  match p.style with
  | .bare =>
    if p.text.isEmpty || !p.text.all isBare then .error .form else .ok (String.ofList p.text)
  | .basic | .literal => p.string
  | .longBasic | .longLiteral => .error .form

/-- The number of parts that a key may have. -/
def maxKeyParts : Nat := 80

/-- The texts of the parts of a key. -/
def keyTexts (parts : List Piece) : Except Fault (List String) := do
  let texts ← parts.mapM Piece.keyText
  if maxKeyParts < texts.length then .error .form else return texts

end Homing.Toml
