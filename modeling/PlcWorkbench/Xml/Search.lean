import PlcWorkbench.Xml.Basic

/-!
# Searching and editing a tree

Three searches go through a tree in document order, the element itself included: `findFirst?` stops
at the first element of a name, `findAll` lists them all, and `updateFirst?` edits the first.
`removeFirst?` detaches the first proper descendant that meets a condition. `elements` is the
listing that they all follow.
-/

namespace PlcWorkbench.Xml

namespace Content

/-- Every element in document order, at any depth. -/
def elements : Content → List Element
  | .empty => []
  | .leaf _ next => next.elements
  | .element tag inner next => ⟨tag, inner⟩ :: (inner.elements ++ next.elements)

/-- The first element with this name. -/
def findFirst? (name : String) : Content → Option Element
  | .empty => none
  | .leaf _ next => next.findFirst? name
  | .element tag inner next =>
    if tag.name = name then some ⟨tag, inner⟩
    else (inner.findFirst? name).or (next.findFirst? name)

/-- Every element with this name. -/
def findAll (name : String) : Content → List Element
  | .empty => []
  | .leaf _ next => next.findAll name
  | .element tag inner next =>
    let below := inner.findAll name ++ next.findAll name
    if tag.name = name then ⟨tag, inner⟩ :: below else below

/-- Edit the first element with this name, and give what the edit answers. -/
def updateFirst? {α : Type} (name : String) (edit : Element → α × Element) :
    Content → Option (α × Content)
  | .empty => none
  | .leaf l next => (next.updateFirst? name edit).map fun (answer, next) => (answer, .leaf l next)
  | .element tag inner next =>
    if tag.name = name then
      let (answer, e) := edit ⟨tag, inner⟩
      some (answer, .element e.toTag e.content next)
    else match inner.updateFirst? name edit with
      | some (answer, inner) => some (answer, .element tag inner next)
      | none =>
        (next.updateFirst? name edit).map fun (answer, next) => (answer, .element tag inner next)

/-- Detach the first element that meets the condition; give it and what is left. -/
def removeFirst? (condition : Element → Bool) : Content → Option (Element × Content)
  | .empty => none
  | .leaf l next => (next.removeFirst? condition).map fun (found, next) => (found, .leaf l next)
  | .element tag inner next =>
    if condition ⟨tag, inner⟩ then some (⟨tag, inner⟩, next)
    else match inner.removeFirst? condition with
      | some (found, inner) => some (found, .element tag inner next)
      | none =>
        (next.removeFirst? condition).map fun (found, next) => (found, .element tag inner next)

end Content

namespace Element

/-- The element and all elements inside it, in document order. -/
def elements (e : Element) : List Element := e :: e.content.elements

/-- The first element with this name, the element itself included. -/
def findFirst? (e : Element) (name : String) : Option Element :=
  if e.name = name then some e else e.content.findFirst? name

/-- Every element with this name, the element itself included. -/
def findAll (e : Element) (name : String) : List Element :=
  if e.name = name then e :: e.content.findAll name else e.content.findAll name

/-- Edit the first element with this name, the element itself included. -/
def updateFirst? {α : Type} (e : Element) (name : String) (edit : Element → α × Element) :
    Option (α × Element) :=
  if e.name = name then some (edit e)
  else (e.content.updateFirst? name edit).map fun (answer, content) => (answer, { e with content })

/-- Detach the first proper descendant that meets the condition; later ones stay. -/
def removeFirst? (e : Element) (condition : Element → Bool) : Option (Element × Element) :=
  (e.content.removeFirst? condition).map fun (found, content) => (found, { e with content })

end Element

end PlcWorkbench.Xml
