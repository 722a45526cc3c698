import PlcWorkbench.Config.Basic
import PlcWorkbench.Project
import PlcWorkbench.Task
import PlcWorkbench.Workspace.Scan

/-!
# Importing a directory

Merging every export file of a directory into one project. Files are taken in ascending order; a
file that carries something else is skipped and reported, and any failure ends the import. The whole
run opens the input project, imports the directory and writes the output project, and it writes
nothing unless every merge succeeded.
-/

namespace PlcWorkbench

/-- One definition that was merged. -/
structure MergedFile where
  path : Path
  name : String
  outcome : MergeOutcome
deriving DecidableEq, Repr

/-- One file that was passed over. -/
structure SkippedFile where
  path : Path
  reason : SkipReason
deriving DecidableEq, Repr

/-- What an import did, file by file. -/
structure ImportReport where
  /-- The project that was written, if one was. -/
  output : Option Path := none
  merged : List MergedFile := []
  skipped : List SkippedFile := []
deriving DecidableEq, Repr

namespace ImportReport

/-- How many merged definitions replaced another. -/
def replacedCount (r : ImportReport) : Nat :=
  (r.merged.filter (·.outcome == .replaced)).length

/-- The report with one more definition merged. -/
def addMerged (r : ImportReport) (file : MergedFile) : ImportReport :=
  { r with merged := r.merged ++ [file] }

/-- The report with one more file skipped. -/
def addSkipped (r : ImportReport) (file : SkippedFile) : ImportReport :=
  { r with skipped := r.skipped ++ [file] }

end ImportReport

namespace Import

/-- The export files of a directory, in ascending order. -/
def candidates (config : MergeConfig) (w : Workspace) (directory : Path) : List Path :=
  w.filesWithExtension directory config.extension

/-- Load one file and merge what it carries. -/
def importFile (w : Workspace) (report : ImportReport) (path : Path) :
    Task Project ImportReport := do
  match ← Task.ofExcept (w.load .addOnInstruction path) with
  | .loaded artifact =>
    let outcome ← Task.step fun project => project.merge artifact
    Task.log {
      level := .info
      message := "Merged AOI '" ++ artifact.identity ++ "' (" ++ outcome.title ++ ")"
      file := some path.text }
    return report.addMerged ⟨path, artifact.identity, outcome⟩
  | .skipped reason =>
    Task.log { level := .warn, message := "Skipping '" ++ path.text ++ "': " ++ reason.message }
    return report.addSkipped ⟨path, reason⟩

/-- Load and merge files one after the other. -/
def importFiles (w : Workspace) (report : ImportReport) : List Path → Task Project ImportReport
  | [] => return report
  | path :: rest => do
    let report ← importFile w report path
    importFiles w report rest

/-- Merge every loadable file of a directory into a project. -/
def importDirectory (config : MergeConfig) (w : Workspace) (directory : Path) :
    Task Project ImportReport :=
  importFiles w {} (candidates config w directory)

/-- Open the input project of a directory, merge the directory into it, and write the output
project. -/
def run (config : MergeConfig) (directory : Path) : Task Workspace ImportReport := do
  let input := directory.join config.inputProject
  let output := directory.join config.outputProject
  Task.log { level := .info, message := "Opening project '" ++ input.text ++ "'" }
  let w ← Task.get
  let project ← Task.ofExcept (Project.read w input)
  let (report, project) ← importInto w project
  Task.step fun w =>
    match project.save w output with
    | .error cause => (w, .error cause)
    | .ok w => (w, .ok ())
  Task.log {
    level := .info
    message := "Wrote '" ++ output.text ++ "' (" ++ toString report.merged.length ++ " merged, "
      ++ toString report.skipped.length ++ " skipped)" }
  return { report with output := some output }
where
  /-- Import the directory into a project that is on no file yet. -/
  importInto (w : Workspace) (project : Project) : Task Workspace (ImportReport × Project) :=
    ⟨fun s =>
      let outcome := (importDirectory config w directory).run project
      ⟨s, outcome.log, outcome.result.map fun report => (report, outcome.state)⟩⟩

end Import

end PlcWorkbench
