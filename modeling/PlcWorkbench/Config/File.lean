import PlcWorkbench.Config.Json
import PlcWorkbench.Config.Yaml
import PlcWorkbench.Workspace

/-!
# Configuration files

A configuration file is YAML if its name ends in `.yaml` or `.yml`, and JSON otherwise. What is read
is validated.
-/

namespace PlcWorkbench.Config

/-- Read a configuration in the format that the name of its file tells. -/
def decode (path : Path) (source : String) : Except Failure Config :=
  if path.extension? = some "yaml" ∨ path.extension? = some "yml" then ofYaml source
  else ofJson source

/-- Read a configuration file. -/
def read (w : Workspace) (path : Path) : Except Failure Config :=
  match w.readText path with
  | .error cause => .error (.file cause)
  | .ok source => do
    let config ← decode path source
    config.validate
    return config

end PlcWorkbench.Config
