import PlcWorkbench.Dictionary
import PlcWorkbench.Path
import PlcWorkbench.Session.Model

/-!
# The pattern catalog of a session

Pattern files are registered under their stem and then applied to the model. Applying a pattern
creates one state machine in the package that is bound under the pattern's own name.
-/

namespace PlcWorkbench

namespace Session

/-- The value that a pattern parameter is bound to. -/
inductive Binding where
  | package (package : Package)
  | text (text : String)
deriving DecidableEq, Repr

/-- The parameters of one application. -/
abbrev Bindings := Dictionary Binding

/-- The parameter that carries the name of the machine to be created. -/
def nameParameter : String := "$(name)"

/-- One application of a pattern that was made. -/
structure Applied where
  pattern : String
  bindings : Bindings
deriving DecidableEq, Repr

end Session

/-- A modeling session: its model, and the catalog of patterns with the record of what was done with
it. -/
structure Session where
  model : Session.Model := {}
  /-- The file of each registered pattern. -/
  catalog : Dictionary Path := []
  /-- Every registration, in order. -/
  registrations : List Path := []
  /-- Every application, in order. -/
  applied : List Session.Applied := []
deriving DecidableEq, Repr

namespace Session

/-- Register a pattern file. A file that is registered again counts as another registration. -/
def addPattern (s : Session) (path : Path) : Session × Except Failure Unit :=
  match path.fileStem? with
  | none => (s, .error (.session (.unnamedPattern path.text)))
  | some pattern =>
    ({ s with
        catalog := Dictionary.set s.catalog pattern path
        registrations := s.registrations ++ [path] }, .ok ())

/-- The name of the machine that an application creates: the text bound for it, else the pattern's
name. -/
def machineName (pattern : String) (bindings : Bindings) : String :=
  match Dictionary.get? bindings nameParameter with
  | some (.text name) => name
  | _ => pattern

/-- Apply a registered pattern. -/
def applyPattern (s : Session) (pattern : String) (bindings : Bindings) :
    Session × Except Failure Unit :=
  if (Dictionary.get? s.catalog pattern).isSome then
    match Dictionary.get? bindings pattern with
    | some (.package package) =>
      match s.model.addMachine package.id (machineName pattern bindings) with
      | (model, .error cause) => ({ s with model }, .error cause)
      | (model, .ok _) => ({ s with model, applied := s.applied ++ [⟨pattern, bindings⟩] }, .ok ())
    | _ => (s, .error (.session (.unboundPattern pattern)))
  else (s, .error (.session (.unregisteredPattern pattern)))

end Session

end PlcWorkbench
