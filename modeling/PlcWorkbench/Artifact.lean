import PlcWorkbench.Workspace
import PlcWorkbench.Xml.Document
import PlcWorkbench.Xml.Search

/-!
# Artifacts

A portable definition, lifted out of an export document. The root of an export declares by
an attribute what kind of definition it carries; a document that declares something else, holds no
definition or leaves it unnamed is skipped for that reason, which is no failure.
-/

namespace PlcWorkbench

/-- Where definitions of one kind stand and how they are told apart. -/
structure ArtifactKind where
  /-- The name of a definition's element, which is also what the root of an export declares. -/
  tag : String
  /-- The name of the element that collects the definitions. -/
  containerTag : String
  /-- The attribute that names a definition. -/
  identityKey : String
  /-- The attribute of the root that declares what an export carries. -/
  discriminatorKey : String
deriving DecidableEq, Repr

/-- Add-on instruction definitions of a controller project. -/
def ArtifactKind.addOnInstruction : ArtifactKind where
  tag := "AddOnInstructionDefinition"
  containerTag := "AddOnInstructionDefinitions"
  identityKey := "Name"
  discriminatorKey := "TargetType"

/-- A definition apart from the document that it came from. -/
structure Artifact where
  kind : ArtifactKind
  identity : String
  payload : Xml.Element
deriving DecidableEq, Repr

/-- Why a document is passed over. -/
inductive SkipReason where
  /-- The root declares another kind of content, or none. -/
  | wrongKind (found : Option String)
  /-- The root declares the kind, but there is no definition. -/
  | missingDefinition
  /-- The definition has no name. -/
  | missingIdentity
deriving DecidableEq, Repr

/-- The wording of a reason. -/
def SkipReason.message : SkipReason → String
  | .wrongKind (some found) => "wrong artifact kind '" ++ found ++ "'"
  | .wrongKind none => "no artifact kind declared"
  | .missingDefinition => "no definition element"
  | .missingIdentity => "definition has no name"

/-- What comes of loading a document. -/
inductive LoadOutcome where
  | loaded (artifact : Artifact)
  | skipped (reason : SkipReason)
deriving DecidableEq, Repr

namespace ArtifactKind

/-- Whether an element is the definition of this kind with this identity. -/
def isDefinition (kind : ArtifactKind) (identity : String) (e : Xml.Element) : Bool :=
  e.name == kind.tag && e.attribute? kind.identityKey == some identity

/-- Lift the first definition out of an export document. Its name is taken as it is written. -/
def load (kind : ArtifactKind) (d : Xml.Document) : LoadOutcome :=
  let declared := d.root.attribute? kind.discriminatorKey
  if declared = some kind.tag then
    match d.root.findFirst? kind.tag with
    | none => .skipped .missingDefinition
    | some definition =>
      match definition.attribute? kind.identityKey with
      | none => .skipped .missingIdentity
      | some identity => .loaded ⟨kind, identity, definition⟩
  else .skipped (.wrongKind declared)

end ArtifactKind

namespace Workspace

/-- Read a document from a file. -/
def readDocument (w : Workspace) (path : Path) : Except Failure Xml.Document :=
  match w.readText path with
  | .error cause => .error (.file cause)
  | .ok source =>
    match Xml.Document.parse source with
    | .error cause => .error (.xml (some path.text) cause)
    | .ok d => .ok d

/-- Load a definition from a file. A file that cannot be read or is no document is a failure. -/
def load (w : Workspace) (kind : ArtifactKind) (path : Path) : Except Failure LoadOutcome :=
  (w.readDocument path).map kind.load

end Workspace

end PlcWorkbench
