import PlcWorkbench.Workspace

/-!
# Scanning a directory

Finding the files of a directory by their extension. Every character of the directory's path and of
the extension stands for itself. The paths found are spelled by the way to them: from the current
directory a name stands alone, and a directory's path is walked component by component.
-/

namespace PlcWorkbench.Workspace

/-- The path of `name` in the directory that was reached as `here`. -/
def spell (here : Path) (name : String) : Path :=
  if here.text = "." then ⟨name⟩ else here.join name

/-- Go on from the path reached so far; every component has to lead to something. -/
def descend? (w : Workspace) : Path → List String → Option Path
  | here, [] => some here
  | here, name :: rest =>
    if name = "." ∨ name = ".." then
      if w.find? here = some .directory then descend? w (spell here name) rest else none
    else if (w.find? (spell here name)).isSome then descend? w (spell here name) rest
    else none

/-- The spelling under which the entries of a directory are found. -/
def searchDirectory? (w : Workspace) (directory : Path) : Option Path :=
  match directory.components with
  | "" :: rest => descend? w ⟨"/"⟩ rest
  | names => descend? w ⟨"."⟩ names

/-- The names of the entries of the directory that a path leads to; anything else has no entries. -/
def namesAt (w : Workspace) (path : Path) : List String :=
  match w.resolve path with
  | .error _ => []
  | .ok location => if w.entry? location = some .directory then w.namesIn location else []

/-- Whether a name ends in a dot and the extension. -/
def hasExtension (extension name : String) : Bool :=
  ('.' :: extension.toList).isSuffixOf name.toList

/-- The files of a directory whose name ends in a dot and the extension, in ascending order.
Directories are left out, hidden files are not; a directory that does not exist holds no files. What
follows a slash in the extension is looked for below the entries that match what comes before it. -/
def filesWithExtension (w : Workspace) (directory : Path) (extension : String) : List Path :=
  match w.searchDirectory? directory, (Path.mk extension).components with
  | some here, ending :: below =>
    let names := (w.namesAt here).filter (hasExtension ending)
    let paths := names.filterMap fun name => w.descend? (spell here name) below
    paths.filter fun path => (w.find? path).any Entry.isFile
  | _, _ => []

end PlcWorkbench.Workspace
