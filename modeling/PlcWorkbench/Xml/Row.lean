import PlcWorkbench.Xml.Basic

/-!
# Listing a tree in rows

The document-order listing of a tree: one row for each item, with its depth. Two trees with the same
rows are the same tree, and the rows of an element stand together.
-/

namespace PlcWorkbench.Xml

/-- What one row shows: a tag, or a leaf. -/
inductive Row.Item where
  | element (tag : Tag)
  | leaf (leaf : Leaf)
deriving DecidableEq, Repr

/-- An item of a tree and its depth. -/
structure Row where
  depth : Nat
  item : Row.Item
deriving DecidableEq, Repr

/-- The rows of a content whose items stand at `depth`. -/
def Content.rows (depth : Nat) : Content → List Row
  | .empty => []
  | .leaf l next => ⟨depth, .leaf l⟩ :: next.rows depth
  | .element tag inner next => ⟨depth, .element tag⟩ :: (inner.rows (depth + 1) ++ next.rows depth)

/-- The rows of an element, itself first at depth zero. -/
def Element.rows (e : Element) : List Row :=
  ⟨0, .element e.toTag⟩ :: e.content.rows 1

end PlcWorkbench.Xml
