import Homing.Pattern.Bracket
import Homing.Text.Number

/-!
# Patterns

`isPattern` decides whether a text is a pattern. A pattern is a choice between
sequences of parts, and a part is an item, a bracket or a group, and can be repeated. A
group has a name or none, or it changes the mode of what stands in it; a change of mode
can also stand by itself, and then it holds up to the end of the group around it.

Patterns are read where neither a comma nor a closing brace can be part of them, so
what takes a brace to close it is never well formed.
-/

namespace Homing.Pattern

/-- The number of parts that may stand within each other. -/
def maxDepth : Nat := 250

/-- A part of a sequence. -/
structure Part where
  /-- How many parts stand within each other in it. -/
  depth : Nat
  /-- Whether it can be repeated. A change of the mode can not. -/
  repeatable : Bool
deriving DecidableEq, Repr

/-- The depth of a choice between a sequence and others that were read before. -/
def choiceDepth (others : List Nat) (parts : List Part) : Nat :=
  together (together (parts.map Part.depth) :: others)

/-- The letters that change a mode. Those that do not change what a pattern may hold
are known as well. -/
def modeLetters : List Char := ['i', 'm', 's', 'R', 'U', 'u', 'x']

/-- A mode with one letter set or unset. -/
def Mode.set (m : Mode) (letter : Char) (on : Bool) : Mode :=
  match letter with
  | 'i' => { m with anyCase := on }
  | 'u' => { m with unicode := on }
  | 'x' => { m with spaced := on }
  | _ => m

/-- A change of the mode: letters that set it, and a dash before those that unset it.
What comes back is the new mode and whether anything was changed, with the text from
the mark on that ends the change. `seen` holds the letters and the dash so far. -/
def modeChange? (m : Mode) (seen : List Char) : List Char → Option (Mode × Bool × List Char)
  | [] => none
  | c :: cs =>
    if c = ':' ∨ c = ')' then
      if seen.head? = some '-' then none else some (m, !seen.isEmpty, c :: cs)
    else if seen.contains c then none
    else if c = '-' then modeChange? m (c :: seen) cs
    else if modeLetters.contains c then modeChange? (m.set c (!seen.contains '-')) (c :: seen) cs
    else none

/-- Whether a name can be that of a group. It begins with a letter, and points, brackets
and numbers may follow. -/
def isGroupName : List Char → Bool
  | [] => false
  | c :: cs =>
    (c == '_' || Text.isLetter c) &&
      cs.all fun c => ['_', '.', '[', ']'].contains c || Text.isWord c

/-- How a group begins. -/
inductive Opening where
  /-- With what stands in it, under a mode, where a name may have been given. -/
  | group (mode : Mode) (name : Option (List Char))
  /-- It does not: it is a change of the mode by itself. -/
  | change (mode : Mode)

/-- The beginning of a group, from the text after the mark that opens it. -/
def group? (m : Mode) (cs : List Char) : Option (Opening × List Char) :=
  match m.skip cs with
  | '?' :: 'P' :: '<' :: cs | '?' :: '<' :: cs =>
    let name := cs.takeWhile (· != '>')
    match cs.dropWhile (· != '>') with
    | _ :: rest => if isGroupName name then some (.group m (some name), rest) else none
    | [] => none
  | '?' :: cs =>
    match modeChange? m [] cs with
    | some (m, _, ':' :: rest) => some (.group m none, rest)
    | some (m, true, _ :: rest) => some (.change m, rest)
    | _ => none
  | cs => some (.group m none, cs)

/-- The text after a sign of repetition. A question mark after it makes it lazy. -/
def skipLazy : List Char → List Char
  | '?' :: cs => cs
  | cs => cs

/-- The depth of a choice, with the names of the groups so far and the text from its
end on, which is the end of a group or of the text. `others` holds the depths of the
sequences before, and `parts` the parts of the sequence that is being read, both
backwards. The number bounds the steps. -/
def choice? : Nat → Mode → List (List Char) → List Nat → List Part → List Char →
    Option (Nat × List (List Char) × List Char)
  | 0, _, _, _, _, _ => none
  | n + 1, m, names, others, parts, cs =>
    match m.skip cs with
    | [] => some (choiceDepth others parts, names, [])
    | ')' :: rest => some (choiceDepth others parts, names, ')' :: rest)
    | '|' :: rest => choice? n m names (together (parts.map Part.depth) :: others) [] rest
    | '(' :: rest =>
      match group? m rest with
      | none => none
      | some (.change m, rest) => choice? n m names others (⟨0, false⟩ :: parts) rest
      | some (.group inner name, rest) =>
        if name.any names.contains then none
        else match choice? n inner (name.toList ++ names) [] [] rest with
          | some (d, names, ')' :: rest) =>
            choice? n m names others (⟨d + 1, true⟩ :: parts) rest
          | _ => none
    | '[' :: rest =>
      match bracket? m rest with
      | none => none
      | some (d, rest) => choice? n m names others (⟨d, true⟩ :: parts) rest
    | '?' :: rest | '*' :: rest | '+' :: rest =>
      match parts with
      | ⟨d, true⟩ :: parts => choice? n m names others (⟨d + 1, true⟩ :: parts) (skipLazy rest)
      | _ => none
    | '\x7b' :: _ => none
    | '\\' :: rest =>
      match escape? m rest with
      | none => none
      | some (item, rest) =>
        if item.fits m then choice? n m names others (⟨0, true⟩ :: parts) rest else none
    | c :: rest =>
      let item : Item :=
        if c = '.' then .any else if c = '^' ∨ c = '$' then .anchor else .literal c false
      if item.fits m then choice? n m names others (⟨0, true⟩ :: parts) rest else none

/-- Whether a text is a pattern. -/
def isPattern (cs : List Char) : Bool :=
  match choice? (cs.length + 1) {} [] [] [] cs with
  | some (d, _, []) => d ≤ maxDepth
  | _ => false

end Homing.Pattern
