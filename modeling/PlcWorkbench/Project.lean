import PlcWorkbench.Artifact
import PlcWorkbench.Xml.Render

/-!
# Projects

The controller project that definitions are merged into. Merging takes the first definition with the
artifact's identity out of wherever it stands and adds the artifact at the end of the container, so
a project is a map from identities to definitions in which a merged definition moves to the end.
-/

namespace PlcWorkbench

/-- A controller project. -/
structure Project where
  document : Xml.Document
deriving DecidableEq, Repr

/-- What a merge did to the container. -/
inductive MergeOutcome where
  /-- No definition had the artifact's identity. -/
  | inserted
  /-- A definition with the same identity was taken out first. -/
  | replaced
deriving DecidableEq, Repr

/-- The word for an outcome in running text. -/
def MergeOutcome.title : MergeOutcome → String
  | .inserted => "Inserted"
  | .replaced => "Replaced"

/-- The word for an outcome in a report. -/
def MergeOutcome.token : MergeOutcome → String
  | .inserted => "inserted"
  | .replaced => "replaced"

namespace Project

/-- Open the project in a file. -/
def read (w : Workspace) (path : Path) : Except Failure Project :=
  (w.readDocument path).map Project.mk

/-- Write the project to a file. -/
def save (p : Project) (w : Workspace) (path : Path) : Except Failure Workspace :=
  match w.writeText path p.document.render with
  | .error cause => .error (.file cause)
  | .ok w => .ok w

/-- The element that collects the definitions of a kind. -/
def container (p : Project) (kind : ArtifactKind) : Except Failure Xml.Element :=
  match p.document.root.findFirst? kind.containerTag with
  | some e => .ok e
  | none => .error (.containerNotFound kind.containerTag)

/-- The first definition with this identity anywhere in the project. -/
def find? (p : Project) (kind : ArtifactKind) (identity : String) : Option Xml.Element :=
  (p.document.root.findAll kind.tag).find? fun e => e.attribute? kind.identityKey == some identity

/-- The identities of the definitions in the container, in order. -/
def names (p : Project) (kind : ArtifactKind) : Except Failure (List String) :=
  (p.container kind).map fun e =>
    (e.content.children.filter fun child => child.name == kind.tag).filterMap
      fun child => child.attribute? kind.identityKey

/-- The same project around another root. -/
def withRoot (p : Project) (root : Xml.Element) : Project :=
  ⟨{ p.document with root }⟩

/-- Replace or insert an artifact. A project without a container is left as it is; the container may
also be lost together with the definition taken out, which is a failure too. -/
def merge (p : Project) (a : Artifact) : Project × Except Failure MergeOutcome :=
  match p.container a.kind with
  | .error cause => (p, .error cause)
  | .ok _ =>
    let (root, outcome) :=
      match p.document.root.removeFirst? (a.kind.isDefinition a.identity) with
      | some (_, root) => (root, MergeOutcome.replaced)
      | none => (p.document.root, .inserted)
    match root.updateFirst? a.kind.containerTag fun e => ((), e.pushChild a.payload) with
    | some (_, root) => (p.withRoot root, .ok outcome)
    | none => (p.withRoot root, .error (.containerNotFound a.kind.containerTag))

end Project

end PlcWorkbench
