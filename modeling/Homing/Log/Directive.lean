import Homing.Decimal.Read
import Homing.Log.Level
import Homing.Pattern.Basic
import Homing.Text.Blank
import Homing.Text.Bytes
import Homing.Text.Word

/-!
# Directives of a log filter

A directive gives the parts of the program below a path the least level that they
show, or turns them off. It is written as a path, a bracket and a level after a sign
of equality, and any of these can be left out:

* without a path it is for every part of the program;
* the bracket narrows it down to the lines with a field, as in `[{message}]`, or to
  what goes on within a stretch of work that has a name or a field of some value, as
  in `[homing]` or `[{axis=X}]`. A line of this program has a message and no other
  field, and belongs to no stretch of work;
* without a level it shows everything, and a level that stands alone is a level and
  no path.

Blanks before a directive are a part of it, but the places of its other parts are
counted as if they were not there. So its path begins with a blank and it is for
nothing, no level can follow it, and its field is the text that stands so many bytes
before the one that was written.
-/

namespace Homing

/-- Which lines below its path a directive is for. -/
inductive Scope where
  /-- All of them. -/
  | lines
  /-- Those with a field of this name. -/
  | field (name : String)
  /-- Those within a stretch of work. -/
  | stretch
deriving DecidableEq, Repr

/-- One rule of a filter. -/
structure Directive where
  /-- The beginning of the paths that the rule is for, or all of them. -/
  path : Option String
  scope : Scope
  /-- The least level that is shown, or nothing at all. -/
  least : Option Level
deriving DecidableEq, Repr

/-- The name of the field that every line has. -/
def messageField : String := "message"

namespace Directive

/-- The least level that a number asks for: from 0 for none at all to 5 for the most
talkative one. -/
def leastOfNumber? : Nat → Option (Option Level)
  | 0 => some none
  | 1 => some (some .error)
  | 2 => some (some .warn)
  | 3 => some (some .info)
  | 4 => some (some .debug)
  | 5 => some (some .trace)
  | _ => none

/-- The number that digits write, which a plus may precede. -/
def number? (cs : List Char) : Option Nat :=
  let digits := match cs with
    | '+' :: digits => digits
    | digits => digits
  if digits.isEmpty || !digits.all Char.isDigit then none
  else some (Decimal.ofDigitChars 10 digits)

/-- The least level that a word asks for: a number, or a level or `off` in any case. -/
def leastOfWord? (cs : List Char) : Option (Option Level) :=
  match number? cs with
  | some n => leastOfNumber? n
  | none =>
    let word := String.ofList (cs.map Char.toLower)
    if word = "off" then some none else (Level.ofWord? word).map some

/-- The least level that stands after the sign of equality. -/
def leastAfterSign? (cs : List Char) : Option (Option Level) :=
  if cs.isEmpty then some (some .trace) else leastOfWord? cs

/-- Whether a text can be asked for as the value of a field: a number or a pattern. -/
def isFieldValue (cs : List Char) : Bool :=
  (Decimal.read? (String.ofList cs)).isSome || Pattern.isPattern cs

/-- What a field of a bracket narrows a directive down to. `named` says that the
stretch of work has a name as well. -/
def field? (named : Bool) (cs : List Char) : Option Scope :=
  if cs.isEmpty then none
  else match cs.dropWhile (· != '=') with
    | [] => some (if named then .stretch else .field (String.ofList cs))
    | _ :: value => if isFieldValue (value.takeWhile (· != '=')) then some .stretch else none

/-- What a bracket holds, with the text after it. `cs` is the text within the bracket
and on. Its field is cut out of `whole`, where `place` bytes come before `cs`. -/
def bracket? (whole : List Char) (place : Nat) (cs : List Char) : Option (Scope × List Char) :=
  let ends (c : Char) := c == ']' || c == '\x7b'
  let name := cs.takeWhile (!ends ·)
  match cs.dropWhile (!ends ·) with
  | ']' :: rest => some (.stretch, rest)
  | '\x7b' :: inner =>
    match inner.dropWhile (· != '\x7d') with
    | '\x7d' :: ']' :: rest =>
      let place := place + Text.byteSize name + 1
      let size := Text.byteSize (inner.takeWhile (· != '\x7d'))
      (field? (!name.isEmpty) (Text.sliceBytes place size whole)).map (·, rest)
    | _ => none
  | _ => none

/-- Whether a directive may begin with a character. -/
def beginsWith (c : Char) : Bool := ['[', '-', '_', ':'].contains c || Text.isWord c

/-- The directive that a text writes. -/
def ofText? (text : String) : Option Directive :=
  let cs := text.toList
  let blanks := cs.takeWhile Text.isBlank
  let body := cs.dropWhile Text.isBlank
  let name := body.takeWhile fun c => c != '=' && c != '['
  let path := blanks ++ name
  let path? := if path.isEmpty then none else some (String.ofList path)
  let levelled (scope : Scope) (word : List Char) : Option Directive :=
    if blanks.isEmpty then (leastAfterSign? word).map (⟨path?, scope, ·⟩) else none
  if !body.head?.any beginsWith then none
  else match body.dropWhile fun c => c != '=' && c != '[' with
    | '=' :: word => levelled .lines word
    | '[' :: inner =>
      match bracket? cs (Text.byteSize name + 1) inner with
      | some (scope, '=' :: word) => levelled scope word
      | some (scope, rest) =>
        if rest.all Text.isBlank then some ⟨path?, scope, some .trace⟩ else none
      | none => none
    | _ =>
      match leastOfWord? path with
      | some least => some ⟨none, .lines, least⟩
      | none => some ⟨path?, .lines, some .trace⟩

/-- Whether a directive is for the lines from a path. -/
def isFor (d : Directive) (path : String) : Bool :=
  let below := match d.path with
    | none => true
    | some p => p.toList.isPrefixOf path.toList
  below && match d.scope with
    | .lines => true
    | .field name => name == messageField
    | .stretch => false

/-- How special a directive is: the longer its path the more, and of two with one
path the one that asks for a field. -/
def rank (d : Directive) : Nat :=
  let ofPath := match d.path with
    | none => 0
    | some p => p.length + 1
  let ofScope := match d.scope with
    | .lines => 0
    | _ => 1
  2 * ofPath + ofScope

end Directive

end Homing
