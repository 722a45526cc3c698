import PlcWorkbench.Pattern.Annotation
import PlcWorkbench.Pattern.Instantiation

/-!
# A pattern run

Instantiating the patterns of a directory, then annotating every state machine of the session.
-/

namespace PlcWorkbench.Pattern

/-- What a run did. -/
structure RunReport where
  instantiation : InstantiationReport
  annotations : List Annotation
deriving DecidableEq, Repr

/-- Do a task on the model of a session. -/
def onModel {α : Type} (t : Task Session.Model α) : Task Session α :=
  t.onPart (·.model) fun s model => { s with model }

/-- Instantiate every pattern, then annotate every state machine. -/
def run (config : PatternConfig) (w : Workspace) (directory : Path) : Task Session RunReport := do
  let instantiation ← instantiate config w directory
  let annotations ← onModel (annotateAll config)
  return ⟨instantiation, annotations⟩

end PlcWorkbench.Pattern
