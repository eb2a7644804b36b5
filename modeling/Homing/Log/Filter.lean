import Homing.Log.Directive

/-!
# Log filters

A filter decides which lines of the log are shown. It is a list of directives. For
a line the most special of the directives that are for it counts, and of two that
are as special the later one. Where no directive is for a line, it is not shown.
-/

namespace Homing

/-- Which lines of the log are shown. -/
abbrev Filter := List Directive

namespace Filter

/-- The filter that shows lines from a level on. -/
def ofLevel (l : Level) : Filter := [⟨none, .lines, some l⟩]

/-- The filter of directives with commas between them. Those that are not well
formed are passed over, and where none is left only errors are shown. -/
def ofText (text : String) : Filter :=
  match (text.splitOn ",").filterMap Directive.ofText? with
  | [] => ofLevel .error
  | ds => ds

/-- The directive that counts for a path. -/
def directive? (f : Filter) (path : String) : Option Directive :=
  f.foldl (fun best d =>
    if !d.isFor path then best
    else match best with
      | some b => if d.rank < b.rank then best else some d
      | none => some d) none

/-- Whether a line of a level is shown. -/
def shows (f : Filter) (level : Level) (path : String) : Bool :=
  match (f.directive? path).bind (·.least) with
  | some least => least.weight ≤ level.weight
  | none => false

end Filter

end Homing
