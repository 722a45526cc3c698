import PlcWorkbench.Proofs.Xml.Accepted

/-!
# Writing what was read

A document that was read is legible up to its names, so its text is read back with the borders of
texts lost. Writing does not show these borders either, as long as no text is empty, and no text
that was read is: the characters between two pieces of markup are at least one, and each reference
stands for a character. So the written form of what was read does not change any more, however often
it is read and written again.

* `isFilled_of_parse` : no text that was read is empty;
* `Content.render_joinText` : without empty texts, joining texts does not show in what is written;
* `render_isFixpoint` : what is written for a document that was read is a fixpoint of reading and
  writing.
-/

namespace PlcWorkbench.Xml

/-! ## Texts are not empty -/

/-- Not an empty text. -/
def Leaf.IsFilled : Leaf → Prop
  | .text t => t ≠ ""
  | _ => True

instance : DecidablePred Leaf.IsFilled
  | .text t => inferInstanceAs (Decidable (t ≠ ""))
  | .cdata _ => isTrue trivial
  | .comment _ => isTrue trivial
  | .instruction _ => isTrue trivial

/-- From within a reference on, there is a character to come. -/
theorem unescapeFrom_some_ne_nil {total : Nat} {name source resolved : List Char}
    (h : unescapeFrom total (some name) source = .ok resolved) : resolved ≠ [] := by
  induction source generalizing name with
  | nil => cases h
  | cons c rest ih =>
    rw [unescapeFrom] at h
    split at h
    · cases h
    · split at h
      · split at h
        · cases h
        · obtain ⟨others, -, rfl⟩ := map_eq_ok_iff.1 h
          exact List.cons_ne_nil _ _
      · exact ih h

/-- Characters are not resolved to nothing. -/
theorem unescape_ne_nil {characters resolved : List Char} (hne : characters ≠ [])
    (h : unescape characters = .ok resolved) : resolved ≠ [] := by
  obtain ⟨c, rest, rfl⟩ := List.exists_cons_of_ne_nil hne
  rw [unescape] at h
  by_cases hc : c = '&'
  · subst hc
    exact unescapeFrom_some_ne_nil h
  · rw [unescapeFrom] at h
    · obtain ⟨others, -, rfl⟩ := map_eq_ok_iff.1 h
      exact List.cons_ne_nil _ _
    · exact hc

/-- A sound piece gives no empty text. -/
theorem Markup.IsSound.yields_isFilled {m : Markup} (h : m.IsSound) :
    m.Yields (fun _ => True) Leaf.IsFilled (fun _ => True) := by
  cases m with
  | text characters =>
    intro resolved hresolved empty
    have back := congrArg String.toList empty
    rw [String.toList_ofList] at back
    exact unescape_ne_nil h hresolved back
  | declaration content => exact fun _ _ => trivial
  | startTag content => exact fun _ _ => trivial
  | emptyTag content => exact fun _ _ => trivial
  | endTag content => trivial
  | cdata characters => trivial
  | comment characters => trivial
  | instruction characters => trivial
  | doctype => trivial

/-- No text that was read is empty. -/
theorem Document.isFilled_of_parse {source : String} {d : Document}
    (h : Document.parse source = .ok d) :
    d.root.All Leaf.IsFilled (fun _ => True) :=
  (Document.all_of_parse (fun hnext => (Markup.isSound_of_next? hnext).yields_isFilled) h).root

/-! ## Joined texts -/

namespace Content

/-- Text in front of a content is written in front of it. -/
theorem render_consText (t : String) (c : Content) :
    (consText t c).render = escape t.toList ++ c.render := by
  by_cases h : c.startsWithText
  · obtain ⟨u, next, rfl⟩ := exists_of_startsWithText h
    show escape (t ++ u).toList ++ next.render = escape t.toList ++ (escape u.toList ++ next.render)
    rw [String.toList_append, escape_append, List.append_assoc]
  · rw [Bool.not_eq_true] at h
    rw [consText_of_not_text h]
    by_cases ht : t = ""
    · rw [if_pos ht, ht, show escape "".toList = [] from rfl, List.nil_append]
    · rw [if_neg ht]
      rfl

/-- Text that is not empty leaves a content with something in it. -/
theorem isEmpty_consText {t : String} (ht : t ≠ "") (c : Content) :
    (consText t c).isEmpty = false := by
  unfold consText
  split
  · rfl
  · rw [if_neg ht]
    rfl

/-- Joining texts that are not empty leaves an empty content empty, and no other. -/
theorem isEmpty_joinText {c : Content} (h : c.All Leaf.IsFilled (fun _ => True)) :
    c.joinText.isEmpty = c.isEmpty := by
  cases c with
  | empty => rfl
  | leaf l next =>
    cases l with
    | text t => exact isEmpty_consText h.1 _
    | cdata c => rfl
    | comment c => rfl
    | instruction c => rfl
  | element tag inner next => rfl

/-- **Joining texts does not show** in what is written, if no text is empty. -/
theorem render_joinText {c : Content} (h : c.All Leaf.IsFilled (fun _ => True)) :
    c.joinText.render = c.render := by
  induction c with
  | empty => rfl
  | leaf l next ih =>
    by_cases hl : l.isText = true
    · obtain ⟨t, rfl⟩ := Leaf.exists_of_isText hl
      rw [joinText, render_consText, ih h.2]
      rfl
    · rw [Bool.not_eq_true] at hl
      rw [joinText_leaf hl, render, render, ih h.2]
  | element tag inner next ihInner ihNext =>
    rw [joinText, render, render, ihInner h.2.1, ihNext h.2.2, isEmpty_joinText h.2.1]

end Content

/-- A document without empty texts is written as it is with its texts joined. -/
theorem Document.render_joinText {d : Document} (h : d.root.All Leaf.IsFilled (fun _ => True)) :
    d.joinText.render = d.render := by
  have root : d.root.joinText.render = d.root.render := by
    rw [Element.render, Element.render, Element.joinText, Content.render_joinText h.2,
      Content.isEmpty_joinText h.2]
  rw [render, render, show d.joinText.root = d.root.joinText from rfl, root]
  rfl

/-! ## Reading and writing again -/

/-- **What was read is written for good.** No text in it is empty; its text is read back, each run
of adjacent texts as one, and what is written for the document that is then read is the same text
again. -/
theorem Document.render_isFixpoint {source : String} {d : Document}
    (h : Document.parse source = .ok d) (hclean : d.IsClean) :
    d.root.All Leaf.IsFilled (fun _ => True) ∧ Document.parse d.render = .ok d.joinText
      ∧ d.joinText.render = d.render := by
  have filled := Document.isFilled_of_parse h
  have legible := (Document.isSound_of_parse h).isLegible hclean
  exact ⟨filled, legible.parse_eq, Document.render_joinText filled⟩

/-- A document type leaves two texts next to each other, and a declaration inside the root moves to
the front. -/
theorem Document.render_isFixpoint_doctype :
    Document.parse "<a !k='\x22'>x<!DOCTYPE t>&#x41;<?xml version='1'?></a>"
        = .ok ⟨some ⟨"1", none, none⟩, [],
            ⟨⟨"a", [("!k", "\x22")]⟩, .leaf (.text "x") (.leaf (.text "A") .empty)⟩⟩
      ∧ Document.parse "<?xml version=\x221\x22?>\n<a !k=\x22&quot;\x22>xA</a>"
        = .ok ⟨some ⟨"1", none, none⟩, [],
            ⟨⟨"a", [("!k", "\x22")]⟩, .leaf (.text "xA") .empty⟩⟩ := by
  have first : Document.parse "<a !k='\x22'>x<!DOCTYPE t>&#x41;<?xml version='1'?></a>"
      = .ok ⟨some ⟨"1", none, none⟩, [],
          ⟨⟨"a", [("!k", "\x22")]⟩, .leaf (.text "x") (.leaf (.text "A") .empty)⟩⟩ := by
            decide +kernel
  exact ⟨first, (Document.render_isFixpoint first (by decide)).2.1⟩

end PlcWorkbench.Xml
