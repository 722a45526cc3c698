import PlcWorkbench.Failure
import PlcWorkbench.Text.Alphanumeric

/-!
# Configuration

The settings of the two pipelines with their defaults, and the check that the pipelines can work
with them.
-/

namespace PlcWorkbench

/-- Settings for merging definitions into a project. -/
structure MergeConfig where
  /-- The project that definitions are merged into. -/
  inputProject : String := "unittest.L5X"
  /-- The project that is written. -/
  outputProject : String := "out.L5X"
  /-- The extension of export files, without its dot. -/
  extension : String := "L5X"
deriving DecidableEq, Repr, Inhabited

/-- Settings for applying patterns and annotating state machines. -/
structure PatternConfig where
  /-- The extension of pattern files, without its dot. -/
  extension : String := "umlt"
  /-- The last character of a pattern that is applied once for each scan mode. -/
  multiplicityMarker : Char := '_'
  /-- The predefined package, which is never the target. -/
  primitivePackage : String := "UML Types"
  /-- The module that defines the stereotype. -/
  moduleName : String := "LogixUML"
  /-- The stereotype of every state machine. -/
  stereotypeName : String := "StateMachineAoi"
  /-- The event queue size of every state machine. -/
  eventQueueSize : Nat := 2
deriving DecidableEq, Repr, Inhabited

/-- All settings. -/
structure Config where
  aoi : MergeConfig := {}
  patterns : PatternConfig := {}
deriving DecidableEq, Repr, Inhabited

/-- Refuse settings that the pipelines cannot work with: a queue size out of range, then a marker
that could be part of a scan mode's name, then an empty extension. -/
def Config.validate (c : Config) : Except Failure Unit :=
  if c.patterns.eventQueueSize < minQueueSize ∨ maxQueueSize < c.patterns.eventQueueSize then
    .error (.config (.queueSize c.patterns.eventQueueSize))
  else if Text.isAlphanumeric c.patterns.multiplicityMarker then
    .error (.config (.marker c.patterns.multiplicityMarker))
  else if c.aoi.extension.isEmpty || c.patterns.extension.isEmpty then
    .error (.config .emptyExtension)
  else .ok ()

end PlcWorkbench
