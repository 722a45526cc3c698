import PlcWorkbench.Config.Basic
import PlcWorkbench.ScanMode
import PlcWorkbench.Session.Catalog

/-!
# Planning the applications of a pattern

A pattern whose name ends in the multiplicity marker is applied once for each scan mode, every
variant named by the pattern's name followed by the mode; the marker is then the separator by which
the mode is read back. Any other pattern is applied once, under its own name.
-/

namespace PlcWorkbench.Pattern

/-- One application of a pattern, planned or made. -/
structure Application where
  pattern : String
  /-- The name given to this variant, for patterns that are applied once for each scan mode. -/
  generatedName : Option String
  bindings : Session.Bindings
deriving DecidableEq, Repr

/-- The bindings that every application of a pattern has: the target package under the pattern's
name. -/
def packageBinding (pattern : String) (package : Session.Package) : Session.Bindings :=
  [(pattern, .package package)]

/-- The application of a pattern for one scan mode. -/
def variant (pattern : String) (package : Session.Package) (mode : ScanMode) : Application :=
  let name := pattern ++ mode.token
  { pattern
    generatedName := some name
    bindings := Dictionary.set (packageBinding pattern package) Session.nameParameter (.text name) }

/-- The applications that one pattern needs. -/
def plan (config : PatternConfig) (pattern : String) (package : Session.Package) :
    List Application :=
  if pattern.toList.getLast? = some config.multiplicityMarker then
    ScanMode.all.map (variant pattern package)
  else [{ pattern, generatedName := none, bindings := packageBinding pattern package }]

end PlcWorkbench.Pattern
