import PlcWorkbench.CommandLine.Report
import PlcWorkbench.CommandLine.Request
import PlcWorkbench.Config.File

/-!
# Running a command line

What a command line does to a workspace and what it prints. The configuration is read first. Exit
codes are zero for success, one for a failure, which is reported as an error, and two for arguments
that make no sense.
-/

namespace PlcWorkbench.CommandLine

/-- How a run ends. -/
structure Completion where
  code : Nat
  /-- What is printed. -/
  output : String := ""
  /-- What is reported as an error. -/
  complaint : String := ""
deriving DecidableEq, Repr

namespace Request

/-- The configuration that a request names, or the default. -/
def config (r : Request) (w : Workspace) : Except Failure Config :=
  match r.configFile with
  | some path => Config.read w path
  | none => .ok {}

end Request

namespace Command

/-- A session with the predefined package and one more. -/
def session (config : PatternConfig) (package : String) : Session :=
  { model := ((({} : Session.Model).addPackage config.primitivePackage).1.addPackage package).1 }

/-- Apply the patterns of a directory in a session that is not kept. -/
def runPatterns (config : PatternConfig) (directory : Path) (package : String) :
    Task Workspace Pattern.RunReport :=
  ⟨fun w =>
    let outcome := (Pattern.run config w directory).run (session config package)
    ⟨w, outcome.log, outcome.result⟩⟩

/-- Do what a command says. -/
def run (config : Config) : Command → Task Workspace Report
  | .merge directory => return (← Import.run config.aoi directory).report
  | .patterns directory package =>
    return (← runPatterns config.patterns directory package).report config.patterns
  | .scanModes names =>
    return .ofModes (names.map fun name =>
      (name, ScanMode.ofNameWith name config.patterns.multiplicityMarker))

end Command

/-- Do what is asked for; gives the text to be printed. -/
def Request.run (r : Request) : Task Workspace String := do
  let w ← Task.get
  let config ← Task.ofExcept (r.config w)
  let report ← r.command.run config
  return report.text r.json

namespace Completion

/-- How a request ends that had this result. -/
def ofResult : Except Failure String → Completion
  | .ok output => { code := 0, output }
  | .error cause => { code := 1, complaint := "Error: " ++ cause.message }

/-- How to call the program. -/
def usage : String :=
  "Usage: logixuml [-c FILE] [--json] COMMAND\n\n"
    ++ "  aoi [DIRECTORY]                merge definitions into a project\n"
    ++ "  patterns [-p NAME] [DIRECTORY] apply patterns and annotate state machines\n"
    ++ "  scan-mode NAME...              tell the scan modes of names\n"

/-- The name and version of the program. -/
def version : String := "logixuml 0.1.0\n"

/-- How a command line ends that is answered with a notice. -/
def ofNotice : Notice → Completion
  | .help => { code := 0, output := usage }
  | .version => { code := 0, output := version }
  | .misuse => { code := 2, complaint := usage }

end Completion

/-- Run a command line on a workspace. -/
def run (arguments : List String) (w : Workspace) : Workspace × Completion :=
  match Request.ofArguments arguments with
  | .error notice => (w, .ofNotice notice)
  | .ok request =>
    let outcome := request.run.run w
    (outcome.state, .ofResult outcome.result)

end PlcWorkbench.CommandLine
