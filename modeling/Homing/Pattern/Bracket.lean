import Homing.Pattern.Item

/-!
# Brackets of a pattern

A bracket is a class of characters: characters, ranges, and other brackets, between
which two ampersands, dashes or tildes make a common part or a difference. A bracket
that begins with a circumflex is everything else. `bracket?` finds the end of a
bracket, and how deep it is.
-/

namespace Homing.Pattern

/-- The depth of several parts that make up one: a part by itself is no deeper than it
was. -/
def together : List Nat → Nat
  | [] => 0
  | [d] => d
  | ds => 1 + ds.foldl max 0

/-- The names of the classes of ASCII. -/
def classNames : List String := ["alnum", "alpha", "ascii", "blank", "cntrl", "digit", "graph",
  "lower", "print", "punct", "space", "upper", "word", "xdigit"]

/-- A class with a name, from the text after the bracket that opens it, and whether it
is negated. -/
def namedClass? : List Char → Option (Bool × List Char)
  | ':' :: cs =>
    let negated := cs.head? = some '^'
    let cs := if negated then cs.tail else cs
    match cs.dropWhile (· != ':') with
    | ':' :: ']' :: rest =>
      if classNames.contains (String.ofList (cs.takeWhile (· != ':'))) then some (negated, rest)
      else none
    | _ => none
  | _ => none

/-- An item of a bracket. -/
def bracketItem? (m : Mode) : List Char → Option (Item × List Char)
  | [] => none
  | '\\' :: cs => escape? m cs
  | c :: cs => some (.literal c false, cs)

/-- Whether an item can stand in a bracket. A pattern about bytes has only those of
ASCII there, and one about characters none whose case would be ignored. -/
def Item.fitsBracket (m : Mode) : Item → Bool
  | .literal c _ => if m.unicode then !m.anyCase else c.toNat < 0x80
  | .letterClass negated => !m.unicode && !negated
  | _ => false

/-- The text after an item or a range of a bracket. -/
def range? (m : Mode) (cs : List Char) : Option (List Char) :=
  match bracketItem? m cs with
  | none => none
  | some (first, rest) =>
    let single := if first.fitsBracket m then some (m.skip rest) else none
    match m.skip rest with
    | '-' :: more =>
      if (m.skip more).head? = some ']' ∨ (m.skip more).head? = some '-' then single
      else match first, bracketItem? m (m.skip more) with
        | .literal a _, some (.literal b byte, rest) =>
          if a ≤ b ∧ first.fitsBracket m ∧ (Item.literal b byte).fitsBracket m then some rest
          else none
        | _, _ => none
    | _ => single

/-- The dashes at the front of a bracket, which are characters of it. -/
def skipDashes (m : Mode) : Nat → Nat → List Char → Nat × List Char
  | 0, found, cs => (found, cs)
  | n + 1, found, cs =>
    match cs with
    | '-' :: cs => skipDashes m n (found + 1) (m.skip cs)
    | cs => (found, cs)

/-- How a bracket begins, after the mark that opens it: the number of characters that
stand for themselves there, with the text after them, if such characters fit at all. A
bracket about bytes can not be negated, since it would match a part of a character. -/
def opening? (m : Mode) (cs : List Char) : Option (Nat × List Char) :=
  let afterSign : Option (List Char) := match m.skip cs with
    | '^' :: cs => if m.unicode then some (m.skip cs) else none
    | cs => some cs
  match afterSign with
  | none => none
  | some cs =>
    let (found, rest) := match skipDashes m cs.length 0 cs with
      | (0, ']' :: rest) => (1, m.skip rest)
      | front => front
    if found = 0 ∨ (Item.literal '-' false).fitsBracket m then some (found, rest) else none

/-- The depth of what stands in a bracket: the sets before the last sign between sets,
if there are any, and the depths of the parts after it. -/
def setDepth (before : Option Nat) (parts : List Nat) : Nat :=
  match before with
  | none => together parts
  | some d => 1 + max d (together parts)

/-- The depth of a bracket, with the text after it, from the text after its opening.
The first number bounds the parts. -/
def bracketRest? (m : Mode) : Nat → Option Nat → List Nat → List Char → Option (Nat × List Char)
  | 0, _, _, _ => none
  | n + 1, before, parts, cs =>
    match m.skip cs with
    | [] => none
    | ']' :: rest => some (1 + setDepth before parts, rest)
    | '&' :: '&' :: rest | '-' :: '-' :: rest | '~' :: '~' :: rest =>
      bracketRest? m n (some (setDepth before parts)) [] rest
    | '[' :: rest =>
      match namedClass? rest with
      | some (negated, rest) =>
        let fits := if m.unicode then !m.anyCase else !negated
        if fits then bracketRest? m n before (0 :: parts) rest else none
      | none =>
        match opening? m rest with
        | none => none
        | some (found, rest) =>
          match bracketRest? m n none (List.replicate found 0) rest with
          | none => none
          | some (d, rest) => bracketRest? m n before (d :: parts) rest
    | cs =>
      match range? m cs with
      | none => none
      | some rest => bracketRest? m n before (0 :: parts) rest

/-- The depth of a bracket, with the text after it, from the text after the mark that
opens it. -/
def bracket? (m : Mode) (cs : List Char) : Option (Nat × List Char) :=
  match opening? m cs with
  | none => none
  | some (found, rest) => bracketRest? m (cs.length + 1) none (List.replicate found 0) rest

end Homing.Pattern
