import PlcWorkbench.Pattern.Plan
import PlcWorkbench.Task
import PlcWorkbench.Workspace.Scan

/-!
# Instantiating the patterns of a directory

Every pattern file of a directory is registered and applied into the one package that is not
predefined. A failure part way leaves what was applied before.
-/

namespace PlcWorkbench.Pattern

/-- What an instantiation did. -/
structure InstantiationReport where
  targetPackage : Option String := none
  registered : List Path := []
  applications : List Application := []
deriving DecidableEq, Repr

/-- The pattern files of a directory, in ascending order. -/
def files (config : PatternConfig) (w : Workspace) (directory : Path) : List Path :=
  w.filesWithExtension directory config.extension

/-- The one package that is not the predefined one; none or several is a failure. -/
def selectPackage (config : PatternConfig) (m : Session.Model) : Except Failure Session.Package :=
  match m.packages.filter (·.name != config.primitivePackage) with
  | [package] => .ok package
  | candidates => .error (.targetPackage (candidates.map (·.name)))

/-- Make one planned application of the pattern in a file. -/
def apply (path : Path) (application : Application) : Task Session Unit := do
  Task.step fun s => s.applyPattern application.pattern application.bindings
  Task.log {
    level := .info
    message := "Applied pattern '" ++ application.pattern ++ "'"
      ++ (match application.generatedName with
        | some name => " as '" ++ name ++ "'"
        | none => "")
    file := some path.text }

/-- Make planned applications one after the other. -/
def applyAll (path : Path) : List Application → Task Session Unit
  | [] => return ()
  | application :: rest => do
    apply path application
    applyAll path rest

/-- Register the pattern in a file and apply it as planned. -/
def instantiateFile (config : PatternConfig) (package : Session.Package)
    (report : InstantiationReport) (path : Path) : Task Session InstantiationReport := do
  match path.fileStem? with
  | none => return report
  | some pattern =>
    Task.step fun s => s.addPattern path
    let applications := plan config pattern package
    applyAll path applications
    return { report with
      registered := report.registered ++ [path]
      applications := report.applications ++ applications }

/-- Register and apply files one after the other. -/
def instantiateFiles (config : PatternConfig) (package : Session.Package)
    (report : InstantiationReport) :
    List Path → Task Session InstantiationReport
  | [] => return report
  | path :: rest => do
    let report ← instantiateFile config package report path
    instantiateFiles config package report rest

/-- Register and apply every pattern file of a directory. -/
def instantiate (config : PatternConfig) (w : Workspace) (directory : Path) :
    Task Session InstantiationReport := do
  let s ← Task.get
  let package ← Task.ofExcept (selectPackage config s.model)
  Task.log { level := .info, message := "Target package: '" ++ package.name ++ "'" }
  instantiateFiles config package { targetPackage := some package.name } (files config w directory)

end PlcWorkbench.Pattern
