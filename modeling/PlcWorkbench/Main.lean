import PlcWorkbench.CommandLine.Run

/-!
# The program

The command line on the file system: the files that a request looks at are taken up into a
workspace, the request runs there, and the files that it changed are written back.
-/

namespace PlcWorkbench.CommandLine

/-- The locations on the way along names, with its start and its end. -/
def wayFrom (here : Location) : List String → List Location
  | [] => [here]
  | name :: rest => here :: wayFrom (Workspace.advance here name) rest

/-- The absolute path of a location. -/
def pathTo (location : Location) : String := "/" ++ "/".intercalate location

/-- What stands at a location of the file system. -/
def entryAt (location : Location) : IO (Option Entry) := do
  try
    let path ← IO.FS.realPath (pathTo location)
    if ← path.isDir then return some .directory
    let bytes ← IO.FS.readBinFile path
    return some <| match String.fromUTF8? bytes with
      | some text => .text text
      | none => .binary bytes.toList
  catch _ => return none

/-- The names of what stands in a directory of the file system. -/
def namesAt (location : Location) : IO (List String) := do
  try
    let path ← IO.FS.realPath (pathTo location)
    return (← path.readDir).toList.map (·.fileName)
  catch _ => return []

/-- Take up what stands on the way along a path. -/
def takeUp (w : Workspace) (path : Path) : IO Workspace := do
  let mut w := w
  for location in wayFrom (w.start path) path.components do
    if let some entry ← entryAt location then
      w := w.put location entry
  return w

/-- Take up the files of a directory that have an extension. -/
def takeUpFiles (w : Workspace) (directory : Path) (extension : String) : IO Workspace := do
  let mut w ← takeUp w directory
  let (ending, below) :=
    match (Path.mk extension).components with
    | [] => ("", [])
    | ending :: below => (ending, below)
  for name in ← namesAt (directory.components.foldl Workspace.advance (w.start directory)) do
    if Workspace.hasExtension ending name then
      w ← takeUp w (directory.join ("/".intercalate (name :: below)))
  return w

/-- Take up what a request looks at. -/
def gather (w : Workspace) (request : Request) : IO Workspace := do
  let w ← match request.configFile with
    | some path => takeUp w path
    | none => pure w
  match request.config w, request.command with
  | .ok config, .merge directory => do
    let w ← takeUp w (directory.join config.aoi.inputProject)
    let w ← takeUp w (directory.join config.aoi.outputProject)
    takeUpFiles w directory config.aoi.extension
  | .ok config, .patterns directory _ => takeUpFiles w directory config.patterns.extension
  | _, _ => return w

/-- Write the text files back that are not what they were before. -/
def writeBack (before after : Workspace) : IO Unit := do
  for (location, entry) in after.entries do
    if before.entry? location ≠ some entry then
      if let .text content := entry then
        IO.FS.writeFile (pathTo location) content

/-- Run a command line in the current directory; gives the exit code. -/
def program (arguments : List String) : IO UInt32 := do
  let here : Path := ⟨(← IO.currentDir).toString⟩
  let w ← takeUp {} here
  let w := { w with current := here.components.foldl Workspace.advance [] }
  let w ← match Request.ofArguments arguments with
    | .ok request => gather w request
    | .error _ => pure w
  let (after, completion) := run arguments w
  writeBack w after
  IO.print completion.output
  if ¬completion.complaint.isEmpty then
    IO.eprintln completion.complaint
  return completion.code.toUInt32

end PlcWorkbench.CommandLine

/-- The program. -/
def main (arguments : List String) : IO UInt32 :=
  PlcWorkbench.CommandLine.program arguments
