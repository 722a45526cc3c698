import PlcWorkbench.Text.Segment

/-!
# Paths

A path is kept as it is written, since messages show it so. Slashes divide it into components; those
that are empty or a single dot do not change where it leads.
-/

namespace PlcWorkbench

/-- A path as written. -/
structure Path where
  text : String
deriving DecidableEq, Repr, Inhabited

namespace Path

/-- The texts between the slashes. -/
def components (p : Path) : List String :=
  (Text.segments '/' p.text.toList).map String.ofList

/-- Whether the path starts at the root. -/
def isAbsolute (p : Path) : Bool :=
  p.text.toList.head? == some '/'

/-- A path that starts from another one: an absolute path stays what it is. -/
def join (base : Path) (path : String) : Path :=
  if (Path.mk path).isAbsolute || base.text.isEmpty then ⟨path⟩
  else if base.text.toList.getLast? = some '/' then ⟨base.text ++ path⟩
  else ⟨base.text ++ "/" ++ path⟩

/-- The last component that names something; a path that ends in two dots has none. -/
def fileName? (p : Path) : Option String :=
  match (p.components.filter fun name => name ≠ "" ∧ name ≠ ".").getLast? with
  | some name => if name = ".." then none else some name
  | none => none

/-- A file name's parts before and after its last dot; a dot in front divides nothing. -/
def splitName (name : String) : String × Option String :=
  let characters := name.toList
  let after := Text.lastSegment '.' characters
  let before := characters.take (characters.length - after.length - 1)
  if characters.length = after.length ∨ before.isEmpty then (name, none)
  else (String.ofList before, some (String.ofList after))

/-- The file name without its extension. -/
def fileStem? (p : Path) : Option String :=
  p.fileName?.map fun name => (splitName name).1

/-- The part of the file name after its last dot. -/
def extension? (p : Path) : Option String :=
  p.fileName?.bind fun name => (splitName name).2

end Path

end PlcWorkbench
