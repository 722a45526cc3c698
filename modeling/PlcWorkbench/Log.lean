/-!
# Log entries

What a run reports on its way: a level, a message, and for some entries the file that it is about.
-/

namespace PlcWorkbench

/-- How much a log entry matters. -/
inductive LogLevel where
  | debug
  | info
  | warn
  | error
deriving DecidableEq, Repr

/-- The name of a level. -/
def LogLevel.name : LogLevel → String
  | .debug => "debug"
  | .info => "info"
  | .warn => "warn"
  | .error => "error"

/-- One log entry. -/
structure LogEntry where
  level : LogLevel
  message : String
  file : Option String := none
deriving DecidableEq, Repr

end PlcWorkbench
