import PlcWorkbench.Failure
import PlcWorkbench.Path

/-!
# Workspaces

The files that the tools work on, as a value: which locations hold a directory, a text file, or a
file whose bytes are no text. `Workspace.resolve` follows a path to a location, `readText` and
`writeText` are all the access to files that the tools need, and `place` and `remove` arrange a
workspace.
-/

namespace PlcWorkbench

/-- Where a file or directory stands: the names on the way to it from the root. -/
abbrev Location := List String

/-- What stands at a location. -/
inductive Entry where
  | directory
  | text (content : String)
  | binary (bytes : List UInt8)
deriving DecidableEq

/-- Whether an entry is a file. -/
def Entry.isFile : Entry → Bool
  | .directory => false
  | _ => true

/-- A tree of files, and the location at which relative paths start. -/
structure Workspace where
  entries : List (Location × Entry) := []
  current : Location := []
deriving DecidableEq

namespace Workspace

/-- What stands at a location; the root is always a directory. -/
def entry? (w : Workspace) (location : Location) : Option Entry :=
  if location = [] then some .directory else w.entries.lookup location

/-- Put an entry at a location in place of what stands there. -/
def put (w : Workspace) (location : Location) (entry : Entry) : Workspace :=
  { w with entries := (location, entry) :: w.entries.filter (·.1 != location) }

/-! ## Following paths -/

/-- The longest name of a file or directory, in bytes. -/
def maxNameLength : Nat := 255

/-- One step along a path. Empty names and single dots stay, two dots go back. -/
def advance (location : Location) (name : String) : Location :=
  if name = "" ∨ name = "." then location
  else if name = ".." then location.dropLast
  else location ++ [name]

/-- Follow names from a location. Each step has to start from a directory. -/
def walk (w : Workspace) : Location → List String → Except FileError Location
  | location, [] => .ok location
  | location, name :: rest =>
    match w.entry? location with
    | none => .error .notFound
    | some .directory =>
      if name.utf8ByteSize > maxNameLength then .error .nameTooLong
      else walk w (advance location name) rest
    | some _ => .error .notADirectory

/-- The location at which a path starts. -/
def start (w : Workspace) (path : Path) : Location :=
  if path.isAbsolute then [] else w.current

/-- Whether no file can have this path, whatever stands where: it is empty or holds a NUL
character. -/
def refuse (path : Path) : Except FileError Unit :=
  if path.text.isEmpty then .error .notFound
  else if path.text.toList.contains '\x00' then .error .nulInName
  else .ok ()

/-- Follow a path to a location, at which nothing may stand. -/
def resolve (w : Workspace) (path : Path) : Except FileError Location :=
  match refuse path with
  | .error cause => .error cause
  | .ok () => w.walk (w.start path) path.components

/-- What a path leads to. -/
def find? (w : Workspace) (path : Path) : Option Entry :=
  match w.resolve path with
  | .error _ => none
  | .ok location => w.entry? location

/-! ## Reading and writing -/

/-- The text of a file. -/
def readText (w : Workspace) (path : Path) : Except FileError String :=
  match w.resolve path with
  | .error cause => .error cause
  | .ok location =>
    match w.entry? location with
    | none => .error .notFound
    | some .directory => .error .isADirectory
    | some (.text content) => .ok content
    | some (.binary _) => .error .notText

/-- Where a file of this path would be created or replaced: in a directory, under a name that is no
directory's and that no slash follows. -/
def target (w : Workspace) (path : Path) : Except FileError Location :=
  match refuse path with
  | .error cause => .error cause
  | .ok () =>
    let names := (path.components.reverse.dropWhile (· == "")).reverse
    match names.getLast? with
    | none => .error .isADirectory
    | some name =>
      match w.walk (w.start path) names.dropLast with
      | .error cause => .error cause
      | .ok parent =>
        match w.entry? parent with
        | none => .error .notFound
        | some .directory =>
          if name = "." ∨ name = ".." ∨ names.length < path.components.length
            then .error .isADirectory
          else if name.utf8ByteSize > maxNameLength then .error .nameTooLong
          else if w.entry? (parent ++ [name]) = some .directory then .error .isADirectory
          else .ok (parent ++ [name])
        | some _ => .error .notADirectory

/-- Write a text file, replacing it if it exists; directories are not created. -/
def writeText (w : Workspace) (path : Path) (content : String) : Except FileError Workspace :=
  match w.target path with
  | .error cause => .error cause
  | .ok location => .ok (w.put location (.text content))

/-! ## Arranging a workspace -/

/-- Create the directories on the way along `names` from `location`, where nothing stands yet. -/
def makeDirectories (w : Workspace) : Location → List String → Workspace
  | _, [] => w
  | location, name :: rest =>
    let here := location ++ [name]
    if (w.entry? here).isSome then makeDirectories w here rest
    else makeDirectories (w.put here .directory) here rest

/-- Put an entry at a location, creating the directories around it. -/
def place (w : Workspace) (location : Location) (entry : Entry) : Workspace :=
  (w.makeDirectories [] location.dropLast).put location entry

/-- Remove what stands at a location and below it. -/
def remove (w : Workspace) (location : Location) : Workspace :=
  { w with entries := w.entries.filter fun (l, _) => !location.isPrefixOf l }

/-- The names of the entries of a directory, in ascending order. -/
def namesIn (w : Workspace) (directory : Location) : List String :=
  let names := w.entries.filterMap fun (location, _) =>
    if location.dropLast = directory then location.getLast? else none
  names.mergeSort

/-- The paths of all that stands below a directory, relative to it, in ascending order; a slash ends
the path of a directory. -/
def listBelow (w : Workspace) (directory : Location) : List String :=
  let paths := w.entries.filterMap fun (location, entry) =>
    if directory.isPrefixOf location && directory.length < location.length then
      some ("/".intercalate (location.drop directory.length) ++ (if entry.isFile then "" else "/"))
    else none
  paths.mergeSort

end Workspace

end PlcWorkbench
