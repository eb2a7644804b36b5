import Homing.Decimal.Read
import Homing.Toml.Value

/-!
# Values without brackets or quotes

`Value.ofToken?` reads a word that stands for a value by itself: a boolean, an
integer, a float, or a date or time. What kind of number a word is shows in what
follows its first digits, and only then is it read as such a number. In a number
single underscores may stand between digits, and a decimal number does not begin
with a zero that another digit follows.

The digits of an integer are looked at twice. The word itself only has to keep the
rules of underscores, for which every hexadecimal digit counts; whether it writes
an integer is a question for whoever asks for its value. A word that does not is
`Value.malformedInteger`.
-/

namespace Homing.Toml

open Decimal (digit? ofDigitChars splitSign withSign ofParts)

/-- Whether every underscore of a text stands between two digits. `after` says
whether a digit came just before. -/
def isSeparated (isDigit : Char → Bool) (after : Bool) : List Char → Bool
  | [] => true
  | '_' :: cs => after && cs.head?.any isDigit && isSeparated isDigit false cs
  | c :: cs => isSeparated isDigit (isDigit c) cs

/-- A text without its underscores. -/
def joined (cs : List Char) : List Char := cs.filter (· != '_')

/-- Whether a character is a hexadecimal digit. -/
def isHexDigit (c : Char) : Bool := (digit? 16 c).isSome

/-- The integer that digits to a base write. Without any digits it is malformed. -/
def based? (base : Nat) (digits : List Char) : Option Value :=
  if isSeparated isHexDigit false digits &&
      (joined digits).all fun c => (digit? base c).isSome then
    if digits.isEmpty then some .malformedInteger else some (.integer (ofDigitChars base digits))
  else none

/-- Whether digits begin with a zero that is not alone. `count` is the number of
the digits. -/
def hasLeadingZero (cs : List Char) (count : Nat) : Bool := cs.head? == some '0' && 1 < count

/-- The decimal integer of a sign and what follows it. -/
def decimal? (negative : Bool) (cs : List Char) : Option Value :=
  if cs.isEmpty || hasLeadingZero cs cs.length || !isSeparated isHexDigit false cs then none
  else if (joined cs).all Char.isDigit then
    let n : Int := ofDigitChars 10 cs
    some (.integer (if negative then -n else n))
  else some .malformedInteger

/-- The exponent part of a float, from its `e` on. -/
def exponentPart? : List Char → Option Int
  | [] => some 0
  | e :: cs => if e = 'e' ∨ e = 'E' then Decimal.exponent? cs else none

/-- The magnitude of a float, from its digits before the point and the text after
them. -/
def magnitude? (whole : List Char) : List Char → Option Float
  | '.' :: cs =>
    let fraction := cs.takeWhile Char.isDigit
    if fraction.isEmpty then none
    else (exponentPart? (cs.dropWhile Char.isDigit)).map (ofParts whole fraction)
  | cs => (exponentPart? cs).map (ofParts whole [])

/-- The float of a sign and what follows it. -/
def float? (negative : Bool) (cs : List Char) : Option Value :=
  let plain := joined cs
  let whole := plain.takeWhile Char.isDigit
  if whole.isEmpty || hasLeadingZero cs whole.length then none
  else if !isSeparated Char.isDigit false cs then none
  else (magnitude? whole (plain.dropWhile Char.isDigit)).map fun x =>
    if x.isInf then .overflow else .float (withSign negative x)

/-- The number that exactly `count` digits at the front of a text write, with what
follows them. -/
def fixedDigits (count : Nat) (cs : List Char) : Option (Nat × List Char) :=
  let digits := cs.take count
  if digits.length = count ∧ digits.all Char.isDigit = true then
    some (ofDigitChars 10 digits, cs.drop count)
  else none

/-- The number of days of a month. -/
def daysInMonth (year month : Nat) : Nat :=
  if month = 2 then
    if year % 4 = 0 ∧ (year % 100 ≠ 0 ∨ year % 400 = 0) then 29 else 28
  else if month ∈ [4, 6, 9, 11] then 30 else 31

/-- What follows a date at the front of a text. -/
def afterDate? (cs : List Char) : Option (List Char) :=
  match fixedDigits 4 cs with
  | some (year, '-' :: cs) =>
    match fixedDigits 2 cs with
    | some (month, '-' :: cs) =>
      match fixedDigits 2 cs with
      | some (day, cs) =>
        if 1 ≤ month ∧ month ≤ 12 ∧ 1 ≤ day ∧ day ≤ daysInMonth year month then some cs else none
      | none => none
    | _ => none
  | _ => none

/-- What follows the fraction of a second, if there is one. -/
def afterFraction? : List Char → Option (List Char)
  | '.' :: cs => if (cs.head?.any Char.isDigit) then some (cs.dropWhile Char.isDigit) else none
  | cs => some cs

/-- What follows a time at the front of a text. The seconds may be left out. -/
def afterTime? (cs : List Char) : Option (List Char) :=
  match fixedDigits 2 cs with
  | some (hour, ':' :: cs) =>
    match fixedDigits 2 cs with
    | some (minute, rest) =>
      if 23 < hour ∨ 59 < minute then none
      else match rest with
        | ':' :: cs =>
          match fixedDigits 2 cs with
          | some (second, cs) => if second ≤ 60 then afterFraction? cs else none
          | none => none
        | cs => some cs
    | none => none
  | _ => none

/-- Whether a text is the offset of a time zone, or nothing. -/
def isOffset : List Char → Bool
  | [] | ['Z'] | ['z'] => true
  | s :: cs =>
    (s == '+' || s == '-') &&
      match fixedDigits 2 cs with
      | some (hour, ':' :: cs) =>
        match fixedDigits 2 cs with
        | some (minute, []) => hour ≤ 23 && minute ≤ 59
        | _ => false
      | _ => false

/-- Whether a text is a date, a time, or both with an optional offset. -/
def isDatetime (cs : List Char) : Bool :=
  match afterDate? cs with
  | some [] => true
  | some (t :: cs) => (t == 'T' || t == 't' || t == ' ') && (afterTime? cs).any isOffset
  | none => afterTime? cs == some []

/-- The number, or the date or time, that a word writes. A plain blank is only found
between a date and a time. -/
def number? (cs : List Char) : Option Value :=
  let (negative, body) := splitSign cs
  if body = ['i', 'n', 'f'] then some (.float (withSign negative (1.0 / 0.0)))
  else if body = ['n', 'a', 'n'] then some (.float (0.0 / 0.0))
  else
    let rest := body.dropWhile Char.isDigit
    if rest.head? = some '-' ∨ rest.head? = some ':' then
      if isDatetime cs then some .datetime else none
    else if rest.contains ' ' then none
    else if rest.any (['.', 'e', 'E'].contains ·) then float? negative body
    else if rest.isEmpty ∨ rest.head? = some '_' then decimal? negative body
    else none

/-- The value that a word stands for. -/
def Value.ofToken? (cs : List Char) : Option Value :=
  if cs = "true".toList then some (.boolean true)
  else if cs = "false".toList then some (.boolean false)
  else match cs with
    | '0' :: 'x' :: digits => based? 16 digits
    | '0' :: 'o' :: digits => based? 8 digits
    | '0' :: 'b' :: digits => based? 2 digits
    | cs => number? cs

end Homing.Toml
