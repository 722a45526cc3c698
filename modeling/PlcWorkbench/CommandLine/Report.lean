import PlcWorkbench.Import
import PlcWorkbench.Json.Printer
import PlcWorkbench.Pattern.Run

/-!
# Reports

How the command line shows what a command did: in lines for people, and as a JSON value.
-/

namespace PlcWorkbench

/-- What can be shown to the user. -/
structure CommandLine.Report where
  lines : List String
  json : Json

namespace CommandLine.Report

/-- The text that is printed. -/
def text (r : Report) (inJson : Bool) : String :=
  let lines := if inJson then [r.json.pretty] else r.lines
  String.join (lines.map (· ++ "\n"))

end CommandLine.Report

/-- A reason as a JSON value. -/
def SkipReason.toJson : SkipReason → Json
  | .wrongKind found => .object [("reason", .ofText "wrongArtifactKind"), ("found", .ofText? found)]
  | .missingDefinition => .object [("reason", .ofText "missingDefinition")]
  | .missingIdentity => .object [("reason", .ofText "missingIdentity")]

namespace ImportReport

/-- One line for each file and one for the project that was written. -/
def lines (r : ImportReport) : List String :=
  (r.merged.map fun file => "✓ " ++ file.name ++ " (" ++ file.outcome.title ++ ")")
    ++ (r.skipped.map fun file => "- " ++ file.path.text ++ " skipped: " ++ file.reason.message)
    ++ r.output.toList.map fun output =>
      "Wrote " ++ output.text ++ " (" ++ toString r.merged.length ++ " merged, "
        ++ toString r.replacedCount ++ " replaced, " ++ toString r.skipped.length ++ " skipped)"

/-- The report as a JSON value. -/
def toJson (r : ImportReport) : Json :=
  .object [
    ("output", .ofText? (r.output.map Path.text)),
    ("merged", .array (r.merged.map fun file => .object [
      ("path", .ofText file.path.text),
      ("name", .ofText file.name),
      ("outcome", .ofText file.outcome.token)])),
    ("skipped", .array (r.skipped.map fun file => .object [
      ("path", .ofText file.path.text),
      ("reason", file.reason.toJson)]))]

/-- How an import is shown. -/
def report (r : ImportReport) : CommandLine.Report := ⟨r.lines, r.toJson⟩

end ImportReport

namespace Pattern.RunReport

/-- One line for each application and one for each annotation, with the stereotype that was
written. -/
def lines (r : RunReport) (s : Session.Stereotype) : List String :=
  (r.instantiation.applications.map fun application =>
    "apply " ++ application.pattern
      ++ (match application.generatedName with
        | some name => " as " ++ name
        | none => ""))
    ++ r.annotations.map fun annotation =>
      "✓ " ++ annotation.name ++ " " ++ s.moduleName ++ "::" ++ s.name
        ++ " " ++ Session.queueSizeKey ++ "=" ++ toString annotation.eventQueueSize
        ++ " " ++ Session.scanModeKey ++ "=" ++ annotation.scanMode.token

/-- The report as a JSON value. -/
def toJson (r : RunReport) : Json :=
  .object [
    ("instantiation", .object [
      ("targetPackage", .ofText? r.instantiation.targetPackage),
      ("registered", .array (r.instantiation.registered.map fun path => .ofText path.text)),
      ("applications", .array (r.instantiation.applications.map fun application => .object [
        ("patternName", .ofText application.pattern),
        ("generatedName", .ofText? application.generatedName)]))]),
    ("annotations", .array (r.annotations.map fun annotation => .object [
      ("name", .ofText annotation.name),
      ("eventQueueSize", .ofNat annotation.eventQueueSize),
      ("scanMode", .ofText annotation.scanMode.token)]))]

/-- How a pattern run with this configuration is shown. -/
def report (r : RunReport) (config : PatternConfig) : CommandLine.Report :=
  ⟨r.lines (stereotype config), r.toJson⟩

end Pattern.RunReport

/-- How names with their scan modes are shown. -/
def CommandLine.Report.ofModes (modes : List (String × ScanMode)) : CommandLine.Report where
  lines := modes.map fun (name, mode) => name ++ ": " ++ mode.token
  json := .array (modes.map fun (name, mode) => .object [
    ("name", .ofText name),
    ("scan_mode", .ofText mode.token)])

end PlcWorkbench
