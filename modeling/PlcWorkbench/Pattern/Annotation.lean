import PlcWorkbench.Config.Basic
import PlcWorkbench.Session.Property
import PlcWorkbench.Task

/-!
# Annotating state machines

Every state machine gets the configured stereotype, the configured event queue size, and the scan
mode that its name carries after the multiplicity marker. Annotating again overwrites.
-/

namespace PlcWorkbench.Pattern

open Session (Model Machine Stereotype)

/-- What was written to one state machine. -/
structure Annotation where
  name : String
  eventQueueSize : Nat
  scanMode : ScanMode
deriving DecidableEq, Repr

/-- The stereotype that a configuration asks for. -/
def stereotype (config : PatternConfig) : Stereotype :=
  ⟨config.moduleName, config.stereotypeName⟩

/-- Annotate the state machine with this id and name. -/
def annotate (config : PatternConfig) (id name : String) : Task Model Annotation := do
  let mode := ScanMode.ofNameWith name config.multiplicityMarker
  let s := stereotype config
  Task.modify fun m => m.addStereotype id s
  Task.step fun m => m.setProperty ⟨id, s, Session.queueSizeKey⟩ (toString config.eventQueueSize)
  Task.step fun m => m.setProperty ⟨id, s, Session.scanModeKey⟩ mode.token
  Task.log
    { level := .debug, message := "State machine '" ++ name ++ "': scan mode " ++ mode.token }
  return ⟨name, config.eventQueueSize, mode⟩

/-- Annotate state machines one after the other. -/
def annotateEach (config : PatternConfig) : List Machine → Task Model (List Annotation)
  | [] => return []
  | machine :: rest => do
    let annotation ← annotate config machine.id machine.name
    let annotations ← annotateEach config rest
    return annotation :: annotations

/-- Annotate every state machine of the model. -/
def annotateAll (config : PatternConfig) : Task Model (List Annotation) := do
  let m ← Task.get
  let annotations ← annotateEach config m.machines
  Task.log {
    level := .info
    message := "Annotated " ++ toString annotations.length ++ " state machines" }
  return annotations

end PlcWorkbench.Pattern
