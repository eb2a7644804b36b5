/-!
# Log levels

The five levels of a log line, from the most to the least talkative. A level
has a lower-case word, in which a machine's settings name it, and an upper-case
one, which a line of the log opens with.
-/

namespace Homing

/-- How much a log line matters. -/
inductive Level where
  | trace
  | debug
  | info
  | warn
  | error
deriving DecidableEq, Repr

namespace Level

/-- The levels, the most talkative first. -/
def all : List Level := [trace, debug, info, warn, error]

/-- The word for a level in a settings document. -/
def word : Level → String
  | trace => "trace"
  | debug => "debug"
  | info => "info"
  | warn => "warn"
  | error => "error"

/-- The word for a level in a line of the log. -/
def heading : Level → String
  | trace => "TRACE"
  | debug => "DEBUG"
  | info => "INFO"
  | warn => "WARN"
  | error => "ERROR"

/-- The weight of a level: the higher it is, the more the line matters. -/
def weight : Level → Nat
  | trace => 0
  | debug => 1
  | info => 2
  | warn => 3
  | error => 4

/-- The level that a word names. -/
def ofWord? (s : String) : Option Level := all.find? (·.word == s)

@[simp] theorem ofWord?_word (l : Level) : ofWord? l.word = some l := by
  cases l <;> decide

end Level

end Homing
