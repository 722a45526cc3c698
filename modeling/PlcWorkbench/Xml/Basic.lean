import PlcWorkbench.Dictionary

/-!
# Elements and documents

The tree of a document in memory. An element is a tag together with its content; content is a
sequence, in document order, of leaves (character data, comments, processing instructions) and child
elements. Content is kept as a chain, each item followed by the rest, so that one recursion visits a
whole tree in document order.

Attributes form a dictionary, so setting one keeps the order in which the keys were first set.
-/

namespace PlcWorkbench.Xml

/-- Attributes in document order, each a key and its unescaped value. -/
abbrev Attributes := Dictionary String

/-! ## Content -/

/-- What an element says about itself: its name and its attributes. -/
structure Tag where
  name : String
  attributes : Attributes := []
deriving DecidableEq, Repr, Inhabited

/-- An item without content of its own. Text is held unescaped, the others as written. -/
inductive Leaf where
  | text (characters : String)
  | cdata (characters : String)
  | comment (characters : String)
  | instruction (characters : String)
deriving DecidableEq, Repr, Inhabited

/-- A sequence of leaves and child elements in document order. -/
inductive Content where
  | empty
  | leaf (leaf : Leaf) (next : Content)
  | element (tag : Tag) (inner next : Content)
deriving DecidableEq, Repr, Inhabited

/-- A tag with the content between it and its end tag. -/
structure Element extends Tag where
  content : Content := .empty
deriving DecidableEq, Repr, Inhabited

namespace Content

/-- One content after another. -/
def append : Content → Content → Content
  | .empty, other => other
  | .leaf l next, other => .leaf l (append next other)
  | .element tag inner next, other => .element tag inner (append next other)

/-- The content that is a single leaf. -/
def ofLeaf (l : Leaf) : Content := .leaf l .empty

/-- The content that is a single element. -/
def ofElement (e : Element) : Content := .element e.toTag e.content .empty

/-- The number of items, those inside child elements not counted. -/
def length : Content → Nat
  | .empty => 0
  | .leaf _ next => next.length + 1
  | .element _ _ next => next.length + 1

/-- The child elements in order; leaves are passed over. -/
def children : Content → List Element
  | .empty => []
  | .leaf _ next => next.children
  | .element tag inner next => ⟨tag, inner⟩ :: next.children

end Content

namespace Element

/-- The value of the attribute `key`. -/
def attribute? (e : Element) (key : String) : Option String :=
  Dictionary.get? e.attributes key

/-- Set an attribute, in place if the element has it already. -/
def setAttribute (e : Element) (key value : String) : Element :=
  { e with attributes := Dictionary.set e.attributes key value }

/-- Add content after the last item. -/
def push (e : Element) (more : Content) : Element :=
  { e with content := e.content.append more }

/-- Add a leaf after the last item. -/
def pushLeaf (e : Element) (l : Leaf) : Element := e.push (.ofLeaf l)

/-- Add a child element after the last item. -/
def pushChild (e : Element) (child : Element) : Element := e.push (.ofElement child)

end Element

/-! ## Documents -/

/-- The values of an XML declaration, as written between their quotes. -/
structure Declaration where
  version : String
  encoding : Option String := none
  standalone : Option String := none
deriving DecidableEq, Repr, Inhabited

/-- A document: its declaration, the comments and processing instructions ahead of the root, and the
root. -/
structure Document where
  declaration : Option Declaration
  prolog : List Leaf
  root : Element
deriving DecidableEq, Repr, Inhabited

/-- A new document around `root`, declared as standalone version 1.0 in UTF-8. -/
def Document.ofRoot (root : Element) : Document where
  declaration := some ⟨"1.0", some "UTF-8", some "yes"⟩
  prolog := []
  root := root

end PlcWorkbench.Xml
