/-
Log levels, from the most to the least urgent.
-/

namespace ScriptedModel.Logging

/-- How urgent an event is. -/
inductive Level
  | error
  | warn
  | info
  | debug
  | trace
  deriving DecidableEq, Repr

namespace Level

/-- All levels, the most urgent first. -/
def all : List Level := [.error, .warn, .info, .debug, .trace]

/-- The name of a level, as options and filters spell it. -/
def name : Level → String
  | .error => "error"
  | .warn => "warn"
  | .info => "info"
  | .debug => "debug"
  | .trace => "trace"

/-- The name of a level, as log lines spell it. -/
def heading (l : Level) : String := l.name.map Char.toUpper

/-- The level of a lower-case name. -/
def ofName? (s : String) : Option Level := all.find? (fun l => l.name == s)

/-- How verbose a level is: a filter at a level lets through what is at most as verbose. -/
def verbosity : Level → Nat
  | .error => 1
  | .warn => 2
  | .info => 3
  | .debug => 4
  | .trace => 5

end Level

end ScriptedModel.Logging
