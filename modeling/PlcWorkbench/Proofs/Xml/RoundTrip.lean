import PlcWorkbench.Proofs.Xml.ReadMarkup
import PlcWorkbench.Xml.Document

/-!
# Writing a document and reading it again

The assembly of a document follows its written form piece by piece. While an element is open,
`Assembly.inside`, the characters written for a content add that content to it, texts joined: this
is `Content.ReadsBack`, which an induction over the tree gives for every content with legible tags.
Text is the one thing that the assembly cannot take in piece by piece, since adjacent texts are
written as one; so `ReadsBack` carries the text that is written in front of a content and not yet
taken in.

* `Content.readsBack` : the characters of a content are read as the content, texts joined;
* `Assembly.complete_of_isLegible` : the characters of a document are assembled to the document,
  texts joined;
* `parse_render` : reading undoes writing but for the borders of texts.
-/

namespace PlcWorkbench.Xml

namespace Assembly

/-! ## Taking in one piece -/

/-- A piece that the reader gives and the assembly takes in. -/
theorem complete_of_next? {reader after : Reader} (markup : Markup) {a b : Assembly}
    (hnext : reader.next? = .ok (some (markup, after))) (hadd : a.add markup = .ok b) :
    complete reader a = complete after b := by
  rw [complete]
  split
  · rename_i _ h
    cases hnext.symm.trans h
  · rename_i h
    cases hnext.symm.trans h
  · rename_i _ _ h
    cases hnext.symm.trans h
    rw [hadd]

/-- At the end of the text the document is finished. -/
theorem complete_nil (names : List (List Char)) (a : Assembly) :
    complete ⟨[], names⟩ a = a.finish := by
  rw [complete]
  rfl

/-- The document in the making inside one more open element, which has the content `done` so far. -/
def inside (a : Assembly) (tag : Tag) (done : Content) : Assembly :=
  { a with openElements := ⟨tag, done⟩ :: a.openElements }

variable {a b : Assembly} {tag : Tag} {done : Content} {names : List (List Char)}

/-- Text in front of other markup is taken in as one leaf, unless it is empty. -/
theorem complete_text (t : String) {source : List Char} (hsource : source.head? = some '<') :
    complete ⟨escape t.toList ++ source, names⟩ (a.inside tag done)
      = complete ⟨source, names⟩ (a.inside tag (done.append (Content.consText t .empty))) := by
  obtain ⟨rest, rfl⟩ : ∃ rest, source = '<' :: rest := List.head?_eq_some_iff.1 hsource
  by_cases ht : t = ""
  · subst ht
    rw [Content.consText_empty, Content.append_empty]
    rfl
  · have characters : t.toList ≠ [] := fun nothing => ht (String.toList_injective nothing)
    have read :=
      Markup.next?_text (escape_ne_nil characters) (fun h => (escape_harmless h).1 rfl) rest
    rw [Content.consText_of_not_text rfl, if_neg ht]
    apply complete_of_next? (.text (escape t.toList))
    · simp only [Reader.next?, read]
    · simp only [add, inside, unescape_escape, String.ofList_toList]
      rfl

/-- A written leaf other than text is taken in as it is. -/
theorem complete_leaf {l : Leaf} (h : l.IsWritable) (hl : l.isText = false) (rest : List Char) :
    complete ⟨l.render ++ rest, names⟩ (a.inside tag done)
      = complete ⟨rest, names⟩ (a.inside tag (done.append (.ofLeaf l))) := by
  have read := Markup.next?_leaf h hl rest
  apply complete_of_next? l.markup
  · cases l with
    | text c => cases hl
    | cdata c => simp only [Reader.next?, read, Leaf.markup]
    | comment c => simp only [Reader.next?, read, Leaf.markup]
    | instruction c => simp only [Reader.next?, read, Leaf.markup]
  · cases l with
    | text c => cases hl
    | cdata c =>
      simp only [Leaf.markup, add, inside, String.ofList_toList, Element.pushLeaf, Element.push]
    | comment c =>
      simp only [Leaf.markup, add, inside, putDown, String.ofList_toList, Element.pushLeaf,
        Element.push]
    | instruction c =>
      simp only [Leaf.markup, add, inside, putDown, String.ofList_toList, Element.pushLeaf,
        Element.push]

end Assembly

/-! ## Content and elements -/

/-- Written in an open element, after text not yet taken in, the content is added to it, texts
joined. -/
def Content.ReadsBack (c : Content) : Prop :=
  ∀ (t : String) (rest : List Char) (names : List (List Char)) (a : Assembly)
    (tag : Tag) (done : Content),
      Assembly.complete ⟨escape t.toList ++ (c.render ++ '<' :: rest), names⟩ (a.inside tag done)
        = Assembly.complete ⟨'<' :: rest, names⟩
            (a.inside tag (done.append (Content.consText t c.joinText)))

/-- A plain name in an end tag is taken whole. -/
theorem endName_of_isPlain {name : String} (h : IsPlain name) :
    endName name.toList = name.toList := by
  have kept : name.toList.reverse.dropWhile isSpace = name.toList.reverse := by
    obtain ⟨last, before, hreverse⟩ :=
      List.exists_cons_of_ne_nil (List.reverse_ne_nil_iff.2 h.ne_nil)
    have visible := (h.chars last (List.mem_reverse.1 (hreverse ▸ List.mem_cons_self))).1
    rw [hreverse, List.dropWhile_cons_of_neg (by rw [visible]; exact Bool.false_ne_true)]
  have filled : name.toList.isEmpty = false := List.isEmpty_eq_false_iff.2 h.ne_nil
  simp only [endName, kept, List.reverse_reverse, filled, Bool.false_eq_true, if_false]

namespace Assembly

/-- A written element is attached as a whole, if its content can be read back. -/
theorem complete_element {tag : Tag} {inner : Content} (htag : tag.IsLegible)
    (hinner : inner.ReadsBack) {a b : Assembly} (hattach : a.attach ⟨tag, inner.joinText⟩ = .ok b)
    (rest : List Char)
    (names : List (List Char)) :
    complete ⟨renderElement tag inner.render inner.isEmpty ++ rest, names⟩ a
      = complete ⟨rest, names⟩ b := by
  have hname := tagName_render htag.1.1
  cases hempty : inner.isEmpty with
  | true =>
    obtain rfl : inner = .empty := by
      cases inner with
      | empty => rfl
      | leaf l next => cases hempty
      | element tag inner next => cases hempty
    have read := Markup.next?_emptyTag htag.1 rest
    apply complete_of_next? (.emptyTag tag.render)
    · simp only [renderElement, if_true, List.cons_append, Reader.next?, read]
    · simp only [add, Tag.read_render htag]
      exact hattach
  | false =>
    have shape : renderElement tag inner.render false ++ rest
        = '<' :: (tag.render ++ '>' :: (inner.render
            ++ '<' :: ('/' :: (tag.name.toList ++ '>' :: rest)))) := by
      simp only [renderElement, Bool.false_eq_true, if_false, List.append_assoc, List.cons_append,
        List.nil_append]
    have opened :=
      Markup.next?_startTag htag.1 (inner.render
          ++ '<' :: ('/' :: (tag.name.toList ++ '>' :: rest)))
    have closed := Markup.next?_endTag htag.1.1 rest
    rw [shape]
    calc
      _ = complete ⟨inner.render ++ '<' :: ('/' :: (tag.name.toList ++ '>' :: rest)),
        tag.name.toList :: names⟩
            (a.inside tag .empty) := by
          apply complete_of_next? (.startTag tag.render)
          · simp only [Reader.next?, opened, hname]
          · rw [add, Tag.read_render htag]
            rfl
      _ = complete ⟨'<' :: ('/' :: (tag.name.toList ++ '>' :: rest)), tag.name.toList :: names⟩
            (a.inside tag inner.joinText) := by
          have content :=
            hinner "" ('/' :: (tag.name.toList ++ '>' :: rest))
              (tag.name.toList :: names) a tag .empty
          rwa [Content.consText_empty] at content
      _ = complete ⟨rest, names⟩ b := by
          apply complete_of_next? (.endTag tag.name.toList)
          · rw [List.append_assoc, List.cons_append, List.singleton_append] at closed
            simp only [Reader.next?, closed, endName_of_isPlain htag.1.1, if_true]
          · exact hattach

end Assembly

/-- A written construct starts with an opening bracket. -/
theorem Leaf.head?_render {l : Leaf} (h : l.isText = false) (more : List Char) :
    (l.render ++ more).head? = some '<' := by
  cases l with
  | text c => cases h
  | cdata c => rfl
  | comment c => rfl
  | instruction c => rfl

/-- A written element starts with an opening bracket. -/
theorem head?_renderElement (tag : Tag) (inner : List Char) (isEmpty : Bool) (more : List Char) :
    (renderElement tag inner isEmpty ++ more).head? = some '<' := by
  cases isEmpty <;> rfl

namespace Content

/-- Content of leaves that can be written and of legible tags is read back. -/
theorem readsBack {c : Content} (h : c.All Leaf.IsWritable Tag.IsLegible) : c.ReadsBack := by
  induction c with
  | empty =>
    intro t rest names a tag done
    exact Assembly.complete_text t rfl
  | leaf l next ih =>
    intro t rest names a tag done
    by_cases hl : l.isText = true
    · -- the text joins the one that is not yet taken in
      obtain ⟨u, rfl⟩ := Leaf.exists_of_isText hl
      have joined := ih h.2 (t ++ u) rest names a tag done
      have shape : (Content.leaf (.text u) next).render = escape u.toList ++ next.render := rfl
      rw [joinText, consText_consText, ← joined, String.toList_append, escape_append,
        List.append_assoc, shape, List.append_assoc]
    · rw [Bool.not_eq_true] at hl
      rw [render, List.append_assoc, Assembly.complete_text t (Leaf.head?_render hl _),
        Assembly.complete_leaf h.1 hl, joinText_leaf hl]
      have after :=
        ih h.2 "" rest names a tag ((done.append (consText t .empty)).append (.ofLeaf l))
      rw [consText_empty, show escape "".toList = [] from rfl, List.nil_append] at after
      rw [after, append_assoc, append_assoc, ofLeaf, append, append, consText_append]
      exact hl
  | element tag' inner next ihInner ihNext =>
    intro t rest names a tag done
    have attached : (a.inside tag (done.append (consText t .empty))).attach ⟨tag', inner.joinText⟩
        = .ok (a.inside tag ((done.append (consText t .empty)).append (.ofElement
            ⟨tag', inner.joinText⟩))) := rfl
    have after := ihNext h.2.2 "" rest names a tag
      ((done.append (consText t .empty)).append (.ofElement ⟨tag', inner.joinText⟩))
    rw [consText_empty, show escape "".toList = [] from rfl, List.nil_append] at after
    rw [render, List.append_assoc, Assembly.complete_text t (head?_renderElement _ _ _ _),
      Assembly.complete_element h.1 (ihInner h.2.1) attached, after, append_assoc, append_assoc,
      ofElement, append, append, consText_append rfl, joinText]

end Content

/-! ## Documents -/

/-- Whether a leaf may stand outside the root: comments and processing instructions. -/
def Leaf.isAside : Leaf → Bool
  | .comment _ => true
  | .instruction _ => true
  | _ => false

/-- A document that can be written: its values, leaves and names do not look like the markup around
them. -/
structure Document.IsWritable (d : Document) : Prop where
  declaration : ∀ declaration ∈ d.declaration, ∀ pair ∈ declaration.pairs,
    '\x22' ∉ pair.2.toList ∧ ¬ ['?', '>'] <:+: pair.2.toList
  prolog : ∀ l ∈ d.prolog, l.isAside = true ∧ l.IsWritable
  root : d.root.All Leaf.IsWritable Tag.IsWritable

instance (d : Document) : Decidable d.IsWritable :=
  decidable_of_iff
    ((∀ declaration ∈ d.declaration, ∀ pair ∈ declaration.pairs,
        '\x22' ∉ pair.2.toList ∧ ¬ ['?', '>'] <:+: pair.2.toList)
      ∧ (∀ l ∈ d.prolog, l.isAside = true ∧ l.IsWritable)
      ∧ d.root.All Leaf.IsWritable Tag.IsWritable)
    ⟨fun ⟨h, h', h''⟩ => ⟨h, h', h''⟩, fun ⟨h, h', h''⟩ => ⟨h, h', h''⟩⟩

/-- A document that is read back from its text. Unlike in one that can be written, keys only have to
be clean. -/
structure Document.IsLegible (d : Document) : Prop where
  declaration : ∀ declaration ∈ d.declaration, ∀ pair ∈ declaration.pairs,
    '\x22' ∉ pair.2.toList ∧ ¬ ['?', '>'] <:+: pair.2.toList
  prolog : ∀ l ∈ d.prolog, l.isAside = true ∧ l.IsWritable
  root : d.root.All Leaf.IsWritable Tag.IsLegible

/-- A document that can be written is read back. -/
theorem Document.IsWritable.isLegible {d : Document} (h : d.IsWritable) : d.IsLegible where
  declaration := h.declaration
  prolog := h.prolog
  root := h.root.imp (fun _ hl => hl) fun _ ht => ht.isLegible

/-- What stands outside the root is no text. -/
theorem Leaf.isText_of_isAside {l : Leaf} (h : l.isAside = true) : l.isText = false := by
  cases l with
  | text c => cases h
  | cdata c => rfl
  | comment c => rfl
  | instruction c => rfl

/-- The written prolog, one line for each leaf. -/
def renderProlog (prolog : List Leaf) : List Char := prolog.flatMap fun l => l.render ++ ['\n']

/-- A prolog without leaves is not written, and each leaf comes before the others. -/
theorem renderProlog_cons (l : Leaf) (rest : List Leaf) (source : List Char) :
    renderProlog (l :: rest) ++ source = l.render ++ '\n' :: (renderProlog rest ++ source) := by
  simp only [renderProlog, List.flatMap_cons, List.append_assoc, List.cons_append, List.nil_append]

/-- In front of a bracket, a written prolog starts with a bracket too. -/
theorem head?_renderProlog {prolog : List Leaf} (h : ∀ l ∈ prolog, l.isAside = true)
    {source : List Char} (hsource : source.head? = some '<') :
    (renderProlog prolog ++ source).head? = some '<' := by
  cases prolog with
  | nil => exact hsource
  | cons l rest =>
    rw [renderProlog_cons]
    exact Leaf.head?_render (Leaf.isText_of_isAside (h l List.mem_cons_self)) _

/-- A written element starts with an opening bracket. -/
theorem Element.head?_render (e : Element) : e.render.head? = some '<' := by
  rw [Element.render, ← List.append_nil (renderElement _ _ _)]
  exact head?_renderElement _ _ _ _

/-- A written document starts with an opening bracket. -/
theorem Document.IsLegible.head?_render {d : Document} (h : d.IsLegible) :
    d.render.toList.head? = some '<' := by
  obtain ⟨declaration, prolog, root⟩ := d
  rw [Document.render, String.toList_ofList]
  cases declaration with
  | none => exact head?_renderProlog (fun l hl => (h.prolog l hl).1) root.head?_render
  | some declaration =>
    show (declaration.render ++ ['\n'] ++ renderProlog prolog ++ root.render).head? = some '<'
    rw [declaration.render_eq]
    rfl

namespace Assembly

/-- Text outside the root is dropped as it stands, references unresolved. -/
theorem add_text_outside {a : Assembly} (ha : a.openElements = []) (characters : List Char) :
    a.add (.text characters) = .ok a := by
  unfold add
  rw [ha]

/-- Outside the root, reading goes on at the next bracket. -/
theorem complete_dropWhile {a : Assembly} (ha : a.openElements = []) (source : List Char)
    (names : List (List Char)) :
    complete ⟨source.dropWhile (· != '<'), names⟩ a = complete ⟨source, names⟩ a := by
  cases source with
  | nil => rfl
  | cons c rest =>
    by_cases hc : c = '<'
    · subst hc
      rfl
    · have read : Markup.next? (c :: rest) = .ok (some (.text ((c :: rest).takeWhile (· != '<')),
          (c :: rest).dropWhile (· != '<'))) := by
        rw [Markup.next?]
        · exact List.cons_ne_nil _ _
        · rintro rest' heq
          exact hc (List.cons.inj heq).1
      symm
      apply complete_of_next? (.text ((c :: rest).takeWhile (· != '<')))
      · simp only [Reader.next?, read]
      · exact add_text_outside ha _

/-- Outside the root, text without a bracket is passed over. -/
theorem complete_text_outside {a : Assembly} (ha : a.openElements = []) {text : List Char}
    (h : '<' ∉ text) (source : List Char) (names : List (List Char)) :
    complete ⟨text ++ source, names⟩ a = complete ⟨source, names⟩ a := by
  rw [← complete_dropWhile ha (text ++ source), List.dropWhile_append_of_pos (Markup.ne_bracket h),
    complete_dropWhile ha]

/-- The end of a line outside the root is passed over. -/
theorem complete_newline {a : Assembly} (ha : a.openElements = []) (source : List Char) :
    complete ⟨'\n' :: source, []⟩ a = complete ⟨source, []⟩ a :=
  complete_text_outside ha (by decide : '<' ∉ ['\n']) source []

/-- A written comment or processing instruction ahead of the root is put into the prolog. -/
theorem complete_aside {l : Leaf} (haside : l.isAside = true) (h : l.IsWritable) (rest : List Char)
    (declaration : Option Declaration) (done : List Leaf) :
    complete ⟨l.render ++ rest, []⟩ ⟨declaration, done, [], none⟩
      = complete ⟨rest, []⟩ ⟨declaration, done ++ [l], [], none⟩ := by
  have read := Markup.next?_leaf h (Leaf.isText_of_isAside haside) rest
  apply complete_of_next? l.markup
  · cases l with
    | text c => cases haside
    | cdata c => cases haside
    | comment c => simp only [Reader.next?, read, Leaf.markup]
    | instruction c => simp only [Reader.next?, read, Leaf.markup]
  · cases l with
    | text c => cases haside
    | cdata c => cases haside
    | comment c =>
      rw [Leaf.markup, add, String.ofList_toList]
      rfl
    | instruction c =>
      rw [Leaf.markup, add, String.ofList_toList]
      rfl

/-- A written prolog is taken in leaf by leaf. -/
theorem complete_prolog {prolog : List Leaf} (h : ∀ l ∈ prolog, l.isAside = true ∧ l.IsWritable)
    (source : List Char) (declaration : Option Declaration) :
    ∀ done, complete ⟨renderProlog prolog ++ source, []⟩ ⟨declaration, done, [], none⟩
      = complete ⟨source, []⟩ ⟨declaration, done ++ prolog, [], none⟩ := by
  induction prolog with
  | nil =>
    intro done
    rw [List.append_nil]
    rfl
  | cons l rest ih =>
    intro done
    have others : ∀ l' ∈ rest, l'.isAside = true ∧ l'.IsWritable :=
      fun l' hl' => h l' (List.mem_cons_of_mem _ hl')
    obtain ⟨haside, hwritable⟩ := h l List.mem_cons_self
    rw [renderProlog_cons, complete_aside haside hwritable, complete_newline rfl, ih others,
      List.append_assoc, List.singleton_append]

/-- The written root makes the document complete. -/
theorem complete_root {e : Element} (h : e.All Leaf.IsWritable Tag.IsLegible)
    (declaration : Option Declaration) (prolog : List Leaf) :
    complete ⟨e.render, []⟩ ⟨declaration, prolog, [], none⟩
      = .ok ⟨declaration, prolog, e.joinText⟩ := by
  have read :=
    complete_element h.1 (Content.readsBack h.2) (a := ⟨declaration, prolog, [], none⟩) rfl [] []
  rw [List.append_nil] at read
  rw [Element.render, read, complete_nil]
  rfl

/-- A written declaration on a line of its own becomes the declaration of the document. -/
theorem complete_declaration {d : Declaration}
    (h : ∀ pair ∈ d.pairs, '\x22' ∉ pair.2.toList ∧ ¬ ['?', '>'] <:+: pair.2.toList)
    (source : List Char) :
    complete ⟨d.render ++ '\n' :: source, []⟩ {} = complete ⟨source, []⟩ ⟨some d, [], [],
      none⟩ := by
  have read := Markup.next?_declaration (fun pair hpair => (h pair hpair).2) ('\n' :: source)
  rw [← complete_newline (a := ⟨some d, [], [], none⟩) rfl source]
  apply complete_of_next? (.declaration d.content)
  · simp only [Reader.next?, read]
  · rw [add, Declaration.read_content fun pair hpair => (h pair hpair).1]
    rfl

/-- The characters of a legible document are assembled to the document, texts joined. -/
theorem complete_of_isLegible {d : Document} (h : d.IsLegible) :
    complete ⟨d.render.toList, []⟩ {} = .ok d.joinText := by
  obtain ⟨declaration, prolog, root⟩ := d
  rw [Document.render, String.toList_ofList]
  cases declaration with
  | none =>
    show complete ⟨renderProlog prolog ++ root.render, []⟩ ⟨none, [], [], none⟩ = _
    rw [complete_prolog h.prolog, complete_root h.root]
    rfl
  | some declaration =>
    show complete ⟨declaration.render ++ ['\n'] ++ renderProlog prolog ++ root.render, []⟩ {} = _
    rw [List.append_assoc, List.append_assoc, List.singleton_append,
      complete_declaration (h.declaration declaration rfl), complete_prolog h.prolog,
      complete_root h.root]
    rfl

/-- The same of a document that can be written. -/
theorem complete_render {d : Document} (h : d.IsWritable) :
    complete ⟨d.render.toList, []⟩ {} = .ok d.joinText :=
  complete_of_isLegible h.isLegible

end Assembly

/-- A text that starts with an opening bracket has no byte order mark. -/
theorem Document.parse_eq_complete {source : String} (h : source.toList.head? = some '<') :
    Document.parse source = Assembly.complete ⟨source.toList, []⟩ {} := by
  obtain ⟨rest, hrest⟩ := List.head?_eq_some_iff.1 h
  rw [Document.parse, hrest]
  rfl

/-- A legible document is read back from its text, texts joined. -/
theorem Document.IsLegible.parse_eq {d : Document} (h : d.IsLegible) :
    Document.parse d.render = .ok d.joinText := by
  rw [parse_eq_complete h.head?_render, Assembly.complete_of_isLegible h]

/-- The text of a document that can be written starts with an opening bracket. -/
theorem Document.head?_render {d : Document} (h : d.IsWritable) :
    d.render.toList.head? = some '<' :=
  h.isLegible.head?_render

/-- **Round trip.** A document that can be written is read back from its text, each run of adjacent
texts as one and without empty texts. Texts and attribute values are arbitrary. -/
theorem Document.parse_render (d : Document) (h : d.IsWritable) :
    Document.parse d.render = .ok d.joinText := by
  rw [parse_eq_complete (head?_render h), Assembly.complete_render h]

/-- Three texts become one, and an element whose only text is empty comes back without content. -/
theorem Document.parse_render_adjacent :
    Document.IsWritable ⟨some ⟨"1.0", some "UTF-8", none⟩, [.comment "-", .instruction "xml-x ?"],
        ⟨⟨"a", [("k", "\"<>'&\n")]⟩,
          .leaf (.text "]]>") (.leaf (.text "") (.leaf (.text "&") (.element ⟨"b", []⟩
          (.leaf (.text "") .empty) (.leaf (.cdata "<a>]]") .empty))))⟩⟩
      ∧ Document.parse (Document.render ⟨some ⟨"1.0", some "UTF-8", none⟩,
          [.comment "-", .instruction "xml-x ?"],
        ⟨⟨"a", [("k", "\"<>'&\n")]⟩,
          .leaf (.text "]]>") (.leaf (.text "") (.leaf (.text "&") (.element ⟨"b", []⟩
          (.leaf (.text "") .empty) (.leaf (.cdata "<a>]]") .empty))))⟩⟩)
      = .ok ⟨some ⟨"1.0", some "UTF-8", none⟩, [.comment "-", .instruction "xml-x ?"],
        ⟨⟨"a", [("k", "\"<>'&\n")]⟩, .leaf (.text "]]>&") (.element ⟨"b", []⟩ .empty
          (.leaf (.cdata "<a>]]") .empty))⟩⟩ :=
  ⟨by decide, (Document.parse_render _ (by decide)).trans (by decide)⟩

end PlcWorkbench.Xml
