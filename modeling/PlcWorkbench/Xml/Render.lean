import PlcWorkbench.Xml.Basic
import PlcWorkbench.Xml.Escape

/-!
# Writing a document

`Document.render` gives the text of a document. Text and attribute values are escaped, CDATA
sections, comments and processing instructions are written as they are, and an element without
content is written as one tag. The declaration and each item ahead of the root stand on a line of
their own.
-/

namespace PlcWorkbench.Xml

/-- A value between double quotes, after its key and an equals sign. -/
def renderPair (key : String) (value : List Char) : List Char :=
  key.toList ++ ['=', '\x22'] ++ value ++ ['\x22']

/-- The attributes, each after a space. -/
def Attributes.render (attributes : Attributes) : List Char :=
  attributes.flatMap fun (key, value) => ' ' :: renderPair key (escape value.toList)

/-- The name and attributes as they stand in a start tag. -/
def Tag.render (tag : Tag) : List Char :=
  tag.name.toList ++ tag.attributes.render

/-- A leaf between its delimiters. -/
def Leaf.render : Leaf → List Char
  | .text characters => escape characters.toList
  | .cdata characters => "<![CDATA[".toList ++ characters.toList ++ "]]>".toList
  | .comment characters => "<!--".toList ++ characters.toList ++ "-->".toList
  | .instruction characters => "<?".toList ++ characters.toList ++ "?>".toList

/-- An element whose content is already written; without content it is one tag. -/
def renderElement (tag : Tag) (inner : List Char) (isEmpty : Bool) : List Char :=
  if isEmpty then '<' :: (tag.render ++ ['/', '>'])
  else '<' :: (tag.render ++ ['>'] ++ inner ++ ['<', '/'] ++ tag.name.toList ++ ['>'])

/-- Whether there is no item. -/
def Content.isEmpty : Content → Bool
  | .empty => true
  | _ => false

/-- The items one after the other. -/
def Content.render : Content → List Char
  | .empty => []
  | .leaf l next => l.render ++ next.render
  | .element tag inner next => renderElement tag inner.render inner.isEmpty ++ next.render

/-- An element from its start tag to its end tag. -/
def Element.render (e : Element) : List Char :=
  renderElement e.toTag e.content.render e.content.isEmpty

/-- A declaration between its delimiters; absent parts are left out. -/
def Declaration.render (d : Declaration) : List Char :=
  "<?xml ".toList ++ renderPair "version" d.version.toList
    ++ (match d.encoding with
      | some encoding => ' ' :: renderPair "encoding" encoding.toList
      | none => [])
    ++ (match d.standalone with
      | some standalone => ' ' :: renderPair "standalone" standalone.toList
      | none => [])
    ++ "?>".toList

/-- The text of a document. -/
def Document.render (d : Document) : String :=
  String.ofList <|
    (match d.declaration with
      | some declaration => declaration.render ++ ['\n']
      | none => [])
    ++ d.prolog.flatMap (fun l => l.render ++ ['\n'])
    ++ d.root.render

end PlcWorkbench.Xml
