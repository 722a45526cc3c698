import PlcWorkbench.Proofs.Xml.Tree

/-!
# Joining texts

A written document does not show where one text ends and the next begins, nor a text without
characters. `joinText` is what is left of a tree then: empty texts are dropped and every run of
adjacent texts is one text, at any depth. The recursion goes from the end of a content to its front:
`consText` puts text in front of a content that is joined already.
-/

namespace PlcWorkbench.Xml

/-- Whether a leaf is text. -/
def Leaf.isText : Leaf → Bool
  | .text _ => true
  | _ => false

/-- A leaf that is text. -/
theorem Leaf.exists_of_isText {l : Leaf} (h : l.isText = true) : ∃ t, l = .text t := by
  cases l with
  | text t => exact ⟨t, rfl⟩
  | cdata c => cases h
  | comment c => cases h
  | instruction c => cases h

namespace Content

/-- Text in front of a content: one with the text that the content starts with, and none at all if
it is empty. -/
def consText (t : String) : Content → Content
  | .leaf (.text u) next => .leaf (.text (t ++ u)) next
  | c => if t = "" then c else .leaf (.text t) c

/-- The content without empty texts, each run of adjacent texts made one. -/
def joinText : Content → Content
  | .empty => .empty
  | .leaf (.text t) next => consText t next.joinText
  | .leaf l next => .leaf l next.joinText
  | .element tag inner next => .element tag inner.joinText next.joinText

/-! ## Text in front of a content -/

/-- Whether a content starts with text. -/
def startsWithText : Content → Bool
  | .leaf l _ => l.isText
  | _ => false

/-- A content that starts with text. -/
theorem exists_of_startsWithText {c : Content} (h : c.startsWithText = true) :
    ∃ t next, c = .leaf (.text t) next := by
  cases c with
  | empty => cases h
  | leaf l next =>
    obtain ⟨t, rfl⟩ := Leaf.exists_of_isText h
    exact ⟨t, next, rfl⟩
  | element tag inner next => cases h

/-- Text stays by itself in front of anything but text. -/
theorem consText_of_not_text {c : Content} (h : c.startsWithText = false) (t : String) :
    consText t c = if t = "" then c else .leaf (.text t) c := by
  unfold consText
  split
  · cases h
  · rfl

/-- Empty text in front of a content changes nothing. -/
@[simp] theorem consText_empty (c : Content) : consText "" c = c := by
  unfold consText
  split
  · rw [String.empty_append]
  · rfl

/-- Two texts in front of a content are one. -/
theorem consText_consText (t u : String) (c : Content) :
    consText t (consText u c) = consText (t ++ u) c := by
  by_cases h : c.startsWithText
  · obtain ⟨v, next, rfl⟩ := exists_of_startsWithText h
    simp only [consText, String.append_assoc]
  · rw [Bool.not_eq_true] at h
    rw [consText_of_not_text h u, consText_of_not_text h (t ++ u)]
    by_cases hu : u = ""
    · subst hu
      rw [if_pos rfl, String.append_empty, consText_of_not_text h]
    · have htu : t ++ u ≠ "" := fun both => hu (String.append_eq_empty_iff.1 both).2
      rw [if_neg hu, if_neg htu, consText]

/-- Text with content after it that does not start with text. -/
theorem consText_append {c : Content} (h : c.startsWithText = false) (t : String) :
    (consText t .empty).append c = consText t c := by
  rw [consText_of_not_text h, consText_of_not_text rfl]
  split <;> rfl

/-- A leaf that is no text keeps its place. -/
theorem joinText_leaf {l : Leaf} (h : l.isText = false) (next : Content) :
    (Content.leaf l next).joinText = .leaf l next.joinText := by
  cases l with
  | text t => cases h
  | cdata c => rfl
  | comment c => rfl
  | instruction c => rfl

end Content

/-! ## Elements and documents -/

/-- The element with the texts inside it joined. -/
def Element.joinText (e : Element) : Element := { e with content := e.content.joinText }

/-- The document with the texts in its tree joined. -/
def Document.joinText (d : Document) : Document := { d with root := d.root.joinText }

/-! ## Searching a joined tree -/

namespace Content

/-- Text has no part in a search. -/
theorem findAll_consText (name : String) (t : String) (c : Content) :
    (consText t c).findAll name = c.findAll name := by
  unfold consText
  split
  · rfl
  · split <;> rfl

/-- A search of the joined tree finds what a search of the tree finds, joined. -/
theorem findAll_joinText (name : String) (c : Content) :
    c.joinText.findAll name = (c.findAll name).map Element.joinText := by
  induction c with
  | empty => rfl
  | leaf l next ih =>
    cases l with
    | text t => rw [joinText, findAll_consText, findAll, ih]
    | cdata c => rw [joinText_leaf rfl, findAll, findAll, ih]
    | comment c => rw [joinText_leaf rfl, findAll, findAll, ih]
    | instruction c => rw [joinText_leaf rfl, findAll, findAll, ih]
  | element tag inner next ihInner ihNext =>
    rw [joinText, findAll, findAll, ihInner, ihNext]
    by_cases h : tag.name = name
    · rw [if_pos h, if_pos h, List.map_cons, List.map_append]
      rfl
    · rw [if_neg h, if_neg h, List.map_append]

end Content

/-- A search of the joined element finds what a search of the element finds, joined. -/
theorem Element.findAll_joinText (name : String) (e : Element) :
    e.joinText.findAll name = (e.findAll name).map Element.joinText := by
  unfold Element.findAll
  rw [show e.joinText.content = e.content.joinText from rfl, Content.findAll_joinText,
    show e.joinText.name = e.name from rfl]
  split <;> rfl

end PlcWorkbench.Xml
