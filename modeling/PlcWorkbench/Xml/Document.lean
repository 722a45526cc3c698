import PlcWorkbench.Xml.Reader

/-!
# Reading a document

`Document.parse` assembles a tree from the pieces that a reader gives. The assembly keeps the open
elements with the content that they have so far; an end tag closes the innermost and attaches it to
the one around it, or makes it the root. Text outside the root is dropped, and so are comments and
processing instructions after it.
-/

namespace PlcWorkbench.Xml

/-- A document in the making: the open elements stand innermost first. -/
structure Assembly where
  declaration : Option Declaration := none
  prolog : List Leaf := []
  openElements : List Element := []
  root : Option Element := none
deriving DecidableEq, Repr

namespace Assembly

/-- Attach a complete element: to the innermost open element, else as the root, of which there is
one. -/
def attach (a : Assembly) (e : Element) : Except Error Assembly :=
  match a.openElements with
  | parent :: outer => .ok { a with openElements := parent.pushChild e :: outer }
  | [] =>
    match a.root with
    | none => .ok { a with root := some e }
    | some _ => .error (.secondRoot e.name)

/-- Put down a comment or a processing instruction; after the root it is dropped. -/
def putDown (a : Assembly) (l : Leaf) : Assembly :=
  match a.openElements with
  | parent :: outer => { a with openElements := parent.pushLeaf l :: outer }
  | [] => if a.root.isNone then { a with prolog := a.prolog ++ [l] } else a

/-- Take one piece of the text into the document. -/
def add (a : Assembly) (markup : Markup) : Except Error Assembly :=
  match markup with
  | .declaration content => (Declaration.read content).map fun d => { a with declaration := some d }
  | .startTag content =>
    (Tag.read content).map fun tag => { a with openElements := ⟨tag, .empty⟩ :: a.openElements }
  | .emptyTag content =>
    match Tag.read content with
    | .error cause => .error cause
    | .ok tag => a.attach ⟨tag, .empty⟩
  | .endTag _ =>
    match a.openElements with
    | [] => .error .unexpectedEnd
    | e :: outer => { a with openElements := outer }.attach e
  | .text characters =>
    match a.openElements with
    | [] => .ok a
    | parent :: outer =>
      match unescape characters with
      | .error cause => .error (.escape cause)
      | .ok resolved =>
        .ok { a with openElements := parent.pushLeaf (.text (String.ofList resolved)) :: outer }
  | .cdata characters =>
    match a.openElements with
    | [] => .error .cdataOutsideRoot
    | parent :: outer =>
      .ok { a with openElements := parent.pushLeaf (.cdata (String.ofList characters)) :: outer }
  | .comment characters => .ok (a.putDown (.comment (String.ofList characters)))
  | .instruction characters => .ok (a.putDown (.instruction (String.ofList characters)))
  | .doctype => .ok a

/-- The document at the end of the text: no element is open, and there is a root. -/
def finish (a : Assembly) : Except Error Document :=
  match a.openElements with
  | e :: _ => .error (.unclosedElement e.name)
  | [] =>
    match a.root with
    | none => .error .noRoot
    | some root => .ok ⟨a.declaration, a.prolog, root⟩

/-- Take in all that the reader gives. -/
def complete (reader : Reader) (a : Assembly) : Except Error Document :=
  match _h : reader.next? with
  | .error cause => .error cause
  | .ok none => a.finish
  | .ok (some (markup, reader)) =>
    match a.add markup with
    | .error cause => .error cause
    | .ok a => complete reader a
termination_by reader.source.length
decreasing_by exact Reader.length_lt_of_next? _h

end Assembly

/-- The text without a byte order mark at its front. -/
def dropByteOrderMark : List Char → List Char
  | '\ufeff' :: source => source
  | source => source

/-- Read a document. Up to two byte order marks at the front are passed over. -/
def Document.parse (source : String) : Except Error Document :=
  Assembly.complete ⟨dropByteOrderMark (dropByteOrderMark source.toList), []⟩ {}

end PlcWorkbench.Xml
