import PlcWorkbench.Proofs.Success
import PlcWorkbench.Proofs.Xml.RoundTrip

/-!
# What was read can be written

The reader only gives pieces that do not hold their own end mark, no processing instruction that
reads as a declaration, and no tag with a key twice. `Document.IsSound` says so of a whole document,
and it holds of every document that was read. Together with clean tags and declarations without
quotes, which the reader does not insist on, it is all that writing needs.

`Assembly.Adds` has a case for everything that a piece can do to a document in the making; what one
piece preserves is proved by cases on it. Conditions get from the pieces to the document by
`Assembly.All.add`, for one piece, and `Assembly.All.complete`, for a whole text;
`Document.all_of_parse` has any conditions as parameters, and soundness is one choice of them.
-/

namespace PlcWorkbench.Xml

/-! ## Pieces of text -/

/-- The text before an end mark holds none. -/
theorem split_of_breakOn? {stop source before after : List Char} (hne : stop ≠ [])
    (h : breakOn? stop source = some (before, after)) :
    source = before ++ (stop ++ after) ∧ ¬ stop <:+: before := by
  have nothing : ¬ stop <:+: [] := fun inside => hne (List.infix_nil.1 inside)
  induction source generalizing before with
  | nil =>
    rw [breakOn?, Option.map_eq_some_iff] at h
    obtain ⟨rest, hrest, heq⟩ := h
    cases heq
    exact ⟨show [] = stop ++ after from dropStart?_eq_some_iff.1 hrest, nothing⟩
  | cons c rest ih =>
    rw [breakOn?] at h
    split at h
    · rename_i found
      cases h
      exact ⟨show c :: rest = stop ++ after from dropStart?_eq_some_iff.1 found, nothing⟩
    · rename_i absent
      obtain ⟨⟨before', after'⟩, hrest, heq⟩ := Option.map_eq_some_iff.1 h
      cases heq
      obtain ⟨rfl, hinside⟩ := ih hrest
      refine ⟨rfl, ?_⟩
      rw [List.infix_cons_iff]
      -- a mark at the front would have been found there, one further on is no part of what comes
      -- before the first
      rintro (front | inside)
      · exact dropStart?_eq_none_iff.1 absent (front.trans (List.prefix_append (c :: before') _))
      · exact hinside inside

namespace Markup

/-- A piece that does not hold its own end mark; a processing instruction is no declaration either,
and text is not empty. -/
def IsSound : Markup → Prop
  | .text c => c ≠ []
  | .cdata c => ¬ [']', ']', '>'] <:+: c
  | .comment c => ¬ ['-', '-', '>'] <:+: c
  | .instruction c => ¬ ['?', '>'] <:+: c ∧ c.head? ≠ some '>' ∧ isDeclaration c = false
  | .declaration c => ¬ ['?', '>'] <:+: c
  | _ => True

variable {source after : List Char} {m : Markup}

/-- A delimited construct is sound if its content only has to be without the end mark. -/
theorem isSound_of_readDelimited {start stop : List Char} {piece : List Char → Markup}
    {unclosed : Error} (h : readDelimited start stop piece unclosed source = .ok (m, after))
    (hne : stop ≠ [])
    (hpiece : ∀ content, ¬ stop <:+: content → (piece content).IsSound) : m.IsSound := by
  obtain ⟨body, content, -, closed, rfl⟩ := readDelimited_eq_ok_iff.1 h
  exact hpiece content (split_of_breakOn? hne closed).2

/-- A document type is sound. -/
theorem isSound_of_readDoctype (h : readDoctype source = .ok (m, after)) : m.IsSound := by
  unfold readDoctype at h
  split at h
  · cases h
  · split at h
    · cases h
    · split at h
      · cases h
      · cases h
        trivial

/-- A processing instruction or declaration is sound. -/
theorem isSound_of_readInstruction (h : readInstruction source = .ok (m, after)) : m.IsSound := by
  unfold readInstruction at h
  split at h
  · cases h
  · rename_i noBracket
    obtain ⟨body, content, opened, closed, rfl⟩ := readDelimited_eq_ok_iff.1 h
    cases opened
    obtain ⟨rfl, hinside⟩ := split_of_breakOn? (List.cons_ne_nil _ _) closed
    unfold ofInstructionContent
    split
    · exact hinside
    · rename_i hdeclaration
      refine ⟨hinside, ?_, Bool.eq_false_iff.2 hdeclaration⟩
      -- a content that starts with a bracket is refused before its end is looked for
      intro hhead
      obtain ⟨others, rfl⟩ := List.head?_eq_some_iff.1 hhead
      exact noBracket _ rfl

/-- Every construct is sound. -/
theorem isSound_of_readConstruct (h : readConstruct source = .ok (m, after)) : m.IsSound := by
  unfold readConstruct at h
  split at h
  · unfold readMarked at h
    split at h
    · exact isSound_of_readDelimited h (List.cons_ne_nil _ _) fun _ => id
    · exact isSound_of_readDelimited h (List.cons_ne_nil _ _) fun _ => id
    · exact isSound_of_readDoctype h
    · exact isSound_of_readDoctype h
    · cases h
  · exact isSound_of_readInstruction h
  · split at h
    · cases h
    · cases h
      trivial
  · split at h
    · cases h
    · cases h
      rw [ofTagContent]
      split <;> trivial

/-- Every piece is sound. -/
theorem isSound_of_next? (h : next? source = .ok (some (m, after))) : m.IsSound := by
  unfold next? at h
  split at h
  · cases h
  · rename_i rest
    obtain ⟨pair, read, heq⟩ := map_eq_ok_iff.1 h
    obtain rfl := Option.some.inj heq
    exact isSound_of_readConstruct read
  · rename_i notEmpty notMarkup
    cases h
    obtain ⟨c, rest, rfl⟩ := List.exists_cons_of_ne_nil notEmpty
    have differs : (c != '<') = true := by
      rw [bne_iff_ne]
      rintro rfl
      exact notMarkup rest rfl
    rw [IsSound, List.takeWhile_cons, if_pos differs]
    exact List.cons_ne_nil _ _

end Markup

/-- A reader gives the pieces of its text. -/
theorem Reader.markup_of_next? {reader after : Reader} {m : Markup}
    (h : reader.next? = .ok (some (m, after))) :
    Markup.next? reader.source = .ok (some (m, after.source)) := by
  unfold Reader.next? at h
  split at h
  · cases h
  · cases h
  · rename_i found
    split at h
    · cases h
      exact found
    · split at h
      · cases h
      · split at h
        · cases h
          exact found
        · cases h
    · cases h
      exact found

/-! ## Tags -/

/-- A tag without a key twice. -/
def Tag.HasDistinctKeys (tag : Tag) : Prop := (Dictionary.keys tag.attributes).Nodup

/-- The key of an attribute is none of the known ones. -/
theorem RawAttribute.key_notMem_of_next? {total : Nat} {known : List (String × Nat)}
    {source after : List Char} {a : RawAttribute}
    (h : RawAttribute.next? total known source = .ok (some (a, after))) :
    a.key ∉ known.map (·.1) := by
  unfold RawAttribute.next? at h
  split at h
  · cases h
  · dsimp only at h
    split at h
    · cases h
    · split at h
      · split at h
        · cases h
        · rename_i unknown
          split at h
          · cases h
          · cases h
            exact lookup_eq_none_iff.1 unknown
      · cases h

/-- The attributes of a tag have distinct keys, none of them known before. -/
theorem distinct_of_readAttributes {total : Nat} {known : List (String × Nat)} {source : List Char}
    {attributes : Attributes} (h : readAttributes total known source = .ok attributes) :
    (Dictionary.keys attributes).Nodup ∧ ∀ key ∈ Dictionary.keys attributes,
      key ∉ known.map (·.1) := by
  fun_induction readAttributes total known source generalizing attributes with
  | case1 known source cause hnext => cases h
  | case2 known source hnext =>
    cases h
    exact ⟨List.nodup_nil, List.forall_mem_nil _⟩
  | case3 known source a after hnext cause hvalue => cases h
  | case4 known source a after hnext value hvalue ih =>
    obtain ⟨others, hothers, rfl⟩ := map_eq_ok_iff.1 h
    obtain ⟨distinct, fresh⟩ := ih hothers
    rw [Dictionary.keys, List.map_cons, List.nodup_cons, List.forall_mem_cons]
    -- the key was put among the known ones before the others were read
    refine ⟨⟨fun hmem => fresh _ hmem List.mem_cons_self, distinct⟩,
      RawAttribute.key_notMem_of_next? hnext, ?_⟩
    intro key hkey hknown
    exact fresh key hkey (List.mem_cons_of_mem _ hknown)

/-- A tag that was read has no key twice. -/
theorem Tag.hasDistinctKeys_of_read {content : List Char} {tag : Tag}
    (h : Tag.read content = .ok tag) :
    tag.HasDistinctKeys := by
  obtain ⟨attributes, hattributes, rfl⟩ := map_eq_ok_iff.1 h
  exact (distinct_of_readAttributes hattributes).1

/-! ## Declarations -/

/-- A value stands in the text that it is read from, which ends with what follows it. -/
theorem RawAttribute.infix_of_value? {total : Nat} {source value after : List Char}
    (h : RawAttribute.value? total source = .ok (value, after)) :
    value <:+: source ∧ after <:+ source := by
  have spaces := List.dropWhile_suffix isSpace (l := source)
  unfold RawAttribute.value? at h
  split at h
  · cases h
  · rename_i quote rest opened
    rw [opened] at spaces
    have inside : rest <:+ source := (List.suffix_cons _ _).trans spaces
    split at h
    · split at h
      · cases h
      · rename_i closing tail closed
        have ends := List.dropWhile_suffix (· != quote) (l := rest)
        rw [closed] at ends
        cases h
        have taken : rest.takeWhile (· != quote) <:+: rest := (List.takeWhile_prefix _).isInfix
        exact ⟨taken.trans inside.isInfix, (List.suffix_cons _ _).trans (ends.trans inside)⟩
    · cases h

/-- An attribute's value stands in the text that it is read from, which ends with what follows
it. -/
theorem RawAttribute.infix_of_next? {total : Nat} {known : List (String × Nat)}
    {source after : List Char} {a : RawAttribute}
    (h : RawAttribute.next? total known source = .ok (some (a, after))) :
    a.value <:+: source ∧ after <:+ source := by
  have spaces := List.dropWhile_suffix isSpace (l := source)
  unfold RawAttribute.next? at h
  split at h
  · cases h
  · rename_i first rest found
    rw [found] at spaces
    have key := List.dropWhile_suffix isKeyChar (l := rest)
    have gap := List.dropWhile_suffix isSpace (l := rest.dropWhile isKeyChar)
    dsimp only at h
    split at h
    · cases h
    · rename_i equals tail opened
      rw [opened] at gap
      have inside : tail <:+ source :=
        (List.suffix_cons _ _).trans (gap.trans (key.trans ((List.suffix_cons _ _).trans spaces)))
      split at h
      · split at h
        · cases h
        · split at h
          · cases h
          · rename_i value after' read
            obtain ⟨hvalue, hafter⟩ := RawAttribute.infix_of_value? read
            cases h
            exact ⟨hvalue.trans inside.isInfix, hafter.trans inside⟩
      · cases h

/-- A value that is looked for stands in the text. -/
theorem infix_of_findRaw? {total : Nat} {key value : String} {source : List Char}
    (h : findRaw? total key source = .ok (some value)) : value.toList <:+: source := by
  fun_induction findRaw? total key source with
  | case1 source cause hnext => cases h
  | case2 source hnext => cases h
  | case3 source a after hnext hkey =>
    cases h
    rw [String.toList_ofList]
    exact (RawAttribute.infix_of_next? hnext).1
  | case4 source a after hnext hkey ih =>
    exact (ih h).trans (RawAttribute.infix_of_next? hnext).2.isInfix

/-- The values of a declaration that was read stand in its content. -/
theorem Declaration.infix_of_read {content : List Char} {d : Declaration}
    (h : Declaration.read content = .ok d) :
    ∀ pair ∈ d.pairs, pair.2.toList <:+: content := by
  have inside : content.drop declarationName.length <:+: content := (List.drop_suffix _ _).isInfix
  unfold Declaration.read at h
  dsimp only at h
  split at h
  · cases h
  · cases h
  · rename_i first after hfirst
    split at h
    · split at h
      · cases h
      · rename_i encoding hencoding
        split at h
        · cases h
        · rename_i standalone hstandalone
          cases h
          intro pair hpair
          rw [Declaration.pairs, List.mem_cons, List.mem_append, Option.mem_toList,
            Option.mem_toList] at hpair
          rcases hpair with rfl | hpair | hpair
          · rw [String.toList_ofList]
            exact (RawAttribute.infix_of_next? hfirst).1.trans inside
          · obtain ⟨value, rfl, rfl⟩ := Option.map_eq_some_iff.1 hpair
            exact (infix_of_findRaw? hencoding).trans inside
          · obtain ⟨value, rfl, rfl⟩ := Option.map_eq_some_iff.1 hpair
            exact (infix_of_findRaw? hstandalone).trans inside
    · cases h

/-! ## Leaves -/

/-- A processing instruction that is no declaration is not named `xml`. -/
theorem ne_xml_of_isDeclaration_eq_false {c : List Char} (h : Markup.isDeclaration c = false) :
    c ≠ ['x', 'm', 'l'] ∧ ∀ space ∈ [' ', '\t', '\n', '\r'], ¬ ['x', 'm', 'l', space] <+: c := by
  constructor
  · rintro rfl
    cases h
  · rintro space hspace ⟨rest, rfl⟩
    have blank : isSpace space = true := by
      simpa [isSpace, or_assoc] using hspace
    rw [show Markup.isDeclaration (['x', 'm', 'l', space] ++ rest) = isSpace space from rfl, blank]
      at h
    cases h

/-- The leaf that a sound processing instruction becomes can be written. -/
theorem Leaf.isWritable_instruction {c : List Char} (h : (Markup.instruction c).IsSound) :
    (Leaf.instruction (String.ofList c)).IsWritable := by
  obtain ⟨hinside, hhead, hdeclaration⟩ := h
  obtain ⟨hname, hspaces⟩ := ne_xml_of_isDeclaration_eq_false hdeclaration
  rw [Leaf.IsWritable, String.toList_ofList]
  refine ⟨hinside, hhead, ?_, hspaces⟩
  intro heq
  exact hname (by rw [← String.toList_ofList (l := c), heq]; decide)

/-! ## Assemblies -/

namespace Assembly

variable {a b : Assembly}

/-- What becomes of a document in the making with a piece that it takes in. An end tag closes the
innermost open element, whatever its name. -/
inductive Adds (a : Assembly) : Markup → Assembly → Prop where
  | declaration {content : List Char} {d : Declaration} (hread : Declaration.read content = .ok d) :
      Adds a (.declaration content) { a with declaration := some d }
  | opened {content : List Char} {tag : Tag} (hread : Tag.read content = .ok tag) :
      Adds a (.startTag content) { a with openElements := ⟨tag, .empty⟩ :: a.openElements }
  | whole {content : List Char} {tag : Tag} {b : Assembly} (hread : Tag.read content = .ok tag)
      (hattach : a.attach ⟨tag, .empty⟩ = .ok b) : Adds a (.emptyTag content) b
  | closed {content : List Char} {e : Element} {outer : List Element} {b : Assembly}
      (hopen : a.openElements = e :: outer)
      (hattach : { a with openElements := outer }.attach e = .ok b) :
      Adds a (.endTag content) b
  | outside {characters : List Char} (hopen : a.openElements = []) : Adds a (.text characters) a
  | text {characters resolved : List Char} {parent : Element} {outer : List Element}
      (hopen : a.openElements = parent :: outer) (hresolved : unescape characters = .ok resolved) :
      Adds a (.text characters)
        { a with openElements := parent.pushLeaf (.text (String.ofList resolved)) :: outer }
  | cdata {characters : List Char} {parent : Element} {outer : List Element}
      (hopen : a.openElements = parent :: outer) :
      Adds a (.cdata characters)
        { a with openElements := parent.pushLeaf (.cdata (String.ofList characters)) :: outer }
  | comment {characters : List Char} :
      Adds a (.comment characters) (a.putDown (.comment (String.ofList characters)))
  | instruction {characters : List Char} :
      Adds a (.instruction characters) (a.putDown (.instruction (String.ofList characters)))
  | doctype : Adds a .doctype a

/-- What a piece that was taken in has done. -/
theorem adds_of_add {m : Markup} (h : a.add m = .ok b) : a.Adds m b := by
  cases m with
  | declaration content =>
    obtain ⟨d, hread, rfl⟩ := map_eq_ok_iff.1 h
    exact .declaration hread
  | startTag content =>
    obtain ⟨tag, hread, rfl⟩ := map_eq_ok_iff.1 h
    exact .opened hread
  | emptyTag content =>
    rw [add] at h
    split at h
    · cases h
    · rename_i tag hread
      exact .whole hread h
  | endTag content =>
    rw [add] at h
    split at h
    · cases h
    · rename_i e outer hopen
      exact .closed hopen h
  | text characters =>
    rw [add] at h
    split at h
    · rename_i hopen
      cases h
      exact .outside hopen
    · rename_i parent outer hopen
      split at h
      · cases h
      · rename_i resolved hresolved
        cases h
        exact .text hopen hresolved
  | cdata characters =>
    rw [add] at h
    split at h
    · cases h
    · rename_i parent outer hopen
      cases h
      exact .cdata hopen
  | comment characters =>
    cases h
    exact .comment
  | instruction characters =>
    cases h
    exact .instruction
  | doctype =>
    cases h
    exact .doctype

end Assembly

/-- What a piece gives to a document meets its condition: the declaration, the leaf or the tag that
it holds. -/
def Markup.Yields (onDeclaration : Declaration → Prop) (onLeaf : Leaf → Prop) (onTag : Tag → Prop) :
    Markup → Prop
  | .declaration content => ∀ d, Declaration.read content = .ok d → onDeclaration d
  | .startTag content => ∀ tag, Tag.read content = .ok tag → onTag tag
  | .emptyTag content => ∀ tag, Tag.read content = .ok tag → onTag tag
  | .endTag _ => True
  | .text characters =>
    ∀ resolved, unescape characters = .ok resolved → onLeaf (.text (String.ofList resolved))
  | .cdata characters => onLeaf (.cdata (String.ofList characters))
  | .comment characters => onLeaf (.comment (String.ofList characters))
  | .instruction characters => onLeaf (.instruction (String.ofList characters))
  | .doctype => True

/-- The declaration, every leaf and every tag of a document meet their conditions. -/
structure Document.All (onDeclaration : Declaration → Prop) (onLeaf : Leaf → Prop)
    (onTag : Tag → Prop)
    (d : Document) : Prop where
  declaration : ∀ declaration ∈ d.declaration, onDeclaration declaration
  prolog : ∀ l ∈ d.prolog, l.isAside = true ∧ onLeaf l
  root : d.root.All onLeaf onTag

/-- The same of a document in the making. -/
structure Assembly.All (onDeclaration : Declaration → Prop) (onLeaf : Leaf → Prop)
    (onTag : Tag → Prop)
    (a : Assembly) : Prop where
  declaration : ∀ declaration ∈ a.declaration, onDeclaration declaration
  prolog : ∀ l ∈ a.prolog, l.isAside = true ∧ onLeaf l
  openElements : ∀ e ∈ a.openElements, e.All onLeaf onTag
  root : ∀ e ∈ a.root, e.All onLeaf onTag

section Assembling

variable {onDeclaration : Declaration → Prop} {onLeaf : Leaf → Prop} {onTag : Tag → Prop}

namespace Assembly

variable {a b : Assembly}

/-- Before anything is taken in there is nothing that could fail a condition. -/
theorem all_empty : All onDeclaration onLeaf onTag {} where
  declaration := fun _ h => nomatch h
  prolog := fun _ h => nomatch h
  openElements := fun _ h => nomatch h
  root := fun _ h => nomatch h

/-- Content added to the innermost open element. -/
theorem All.push (h : a.All onDeclaration onLeaf onTag) {parent : Element} {outer : List Element}
    (hopen : a.openElements = parent :: outer) {more : Content} (hmore : more.All onLeaf onTag) :
    All onDeclaration onLeaf onTag { a with openElements := parent.push more :: outer } := by
  have parts := h.openElements
  rw [hopen, List.forall_mem_cons] at parts
  refine ⟨h.declaration, h.prolog, ?_, h.root⟩
  rw [List.forall_mem_cons]
  exact ⟨⟨parts.1.1, Content.all_append.2 ⟨parts.1.2, hmore⟩⟩, parts.2⟩

/-- Attaching an element. -/
theorem All.attach (h : a.All onDeclaration onLeaf onTag) {e : Element} (he : e.All onLeaf onTag)
    (hattach : a.attach e = .ok b) : b.All onDeclaration onLeaf onTag := by
  unfold Assembly.attach at hattach
  split at hattach
  · rename_i parent outer hopen
    cases hattach
    exact h.push hopen ⟨he.1, he.2, trivial⟩
  · split at hattach
    · cases hattach
      refine ⟨h.declaration, h.prolog, h.openElements, ?_⟩
      intro e' he'
      obtain rfl := Option.some.inj he'
      exact he
    · cases hattach

/-- Putting down a comment or a processing instruction. -/
theorem All.putDown (h : a.All onDeclaration onLeaf onTag) {l : Leaf} (haside : l.isAside = true)
    (hl : onLeaf l) : (a.putDown l).All onDeclaration onLeaf onTag := by
  unfold Assembly.putDown
  split
  · rename_i parent outer hopen
    exact h.push hopen ⟨hl, trivial⟩
  · split
    · refine ⟨h.declaration, ?_, h.openElements, h.root⟩
      rw [List.forall_mem_append]
      exact ⟨h.prolog, List.forall_mem_singleton.2 ⟨haside, hl⟩⟩
    · exact h

/-- **Step.** Taking in a piece keeps the conditions, if what the piece gives meets them. -/
theorem All.add (h : a.All onDeclaration onLeaf onTag) {m : Markup}
    (hm : m.Yields onDeclaration onLeaf onTag) (hadd : a.add m = .ok b) :
    b.All onDeclaration onLeaf onTag := by
  cases adds_of_add hadd with
  | @declaration content d hread =>
    refine ⟨?_, h.prolog, h.openElements, h.root⟩
    intro declaration hd
    obtain rfl := Option.some.inj hd
    exact hm d hread
  | @opened content tag hread =>
    -- the element that is opened has a tag and no content yet
    have opened : Element.All onLeaf onTag ⟨tag, .empty⟩ := ⟨hm tag hread, trivial⟩
    exact ⟨h.declaration, h.prolog, List.forall_mem_cons.2 ⟨opened, h.openElements⟩, h.root⟩
  | @whole content tag b hread hattach =>
    have opened : Element.All onLeaf onTag ⟨tag, .empty⟩ := ⟨hm tag hread, trivial⟩
    exact h.attach opened hattach
  | @closed content e outer b hopen hattach =>
    have parts := h.openElements
    rw [hopen, List.forall_mem_cons] at parts
    -- the element that is closed met the conditions while it was open
    have closed : All onDeclaration onLeaf onTag { a with openElements := outer } :=
      ⟨h.declaration, h.prolog, parts.2, h.root⟩
    exact closed.attach parts.1 hattach
  | outside hopen => exact h
  | text hopen hresolved => exact h.push hopen ⟨hm _ hresolved, trivial⟩
  | cdata hopen => exact h.push hopen ⟨hm, trivial⟩
  | comment => exact h.putDown rfl hm
  | instruction => exact h.putDown rfl hm
  | doctype => exact h

/-- The document at the end of the text. -/
theorem All.finish (h : a.All onDeclaration onLeaf onTag) {d : Document}
    (hfinish : a.finish = .ok d) :
    d.All onDeclaration onLeaf onTag := by
  unfold Assembly.finish at hfinish
  split at hfinish
  · cases hfinish
  · split at hfinish
    · cases hfinish
    · rename_i root hroot
      cases hfinish
      exact ⟨h.declaration, h.prolog, h.root root hroot⟩

/-- **Run.** What is complete in the end meets the conditions that the document in the making met,
if what every piece gives meets them. -/
theorem All.complete {reader : Reader} {d : Document} (h : a.All onDeclaration onLeaf onTag)
    (hyields : ∀ {source after m}, Markup.next? source = .ok (some (m, after)) →
      m.Yields onDeclaration onLeaf onTag)
    (hcomplete : complete reader a = .ok d) : d.All onDeclaration onLeaf onTag := by
  -- the conditions are carried from piece to piece, until the text ends
  fun_induction Assembly.complete reader a with
  | case1 reader a cause hnext => cases hcomplete
  | case2 reader a hnext => exact h.finish hcomplete
  | case3 reader a m after hnext cause hadd => cases hcomplete
  | case4 reader a m after hnext b hadd ih =>
    exact ih (h.add (hyields (Reader.markup_of_next? hnext)) hadd) hcomplete

end Assembly

/-- A document that was read meets the conditions that every piece of a text meets. -/
theorem Document.all_of_parse {source : String} {d : Document}
    (hyields : ∀ {source after m}, Markup.next? source = .ok (some (m, after)) →
      m.Yields onDeclaration onLeaf onTag)
    (h : Document.parse source = .ok d) : d.All onDeclaration onLeaf onTag :=
  Assembly.all_empty.complete hyields h

end Assembling

/-! ## Sound documents -/

/-- A document in which nothing holds its own end mark and no tag has a key twice. -/
structure Document.IsSound (d : Document) : Prop where
  declaration : ∀ declaration ∈ d.declaration, ∀ pair ∈ declaration.pairs,
    ¬ ['?', '>'] <:+: pair.2.toList
  prolog : ∀ l ∈ d.prolog, l.isAside = true ∧ l.IsWritable
  root : d.root.All Leaf.IsWritable Tag.HasDistinctKeys

/-- A sound piece gives a sound document what keeps it sound. -/
theorem Markup.IsSound.yields {m : Markup} (h : m.IsSound) :
    m.Yields (fun d => ∀ pair ∈ d.pairs, ¬ ['?', '>'] <:+: pair.2.toList) Leaf.IsWritable
      Tag.HasDistinctKeys := by
  cases m with
  | declaration content =>
    intro d hread pair hpair inside
    -- an end mark in a value would be one in the content
    exact h (inside.trans (Declaration.infix_of_read hread pair hpair))
  | startTag content =>
    intro tag hread
    exact Tag.hasDistinctKeys_of_read hread
  | emptyTag content =>
    intro tag hread
    exact Tag.hasDistinctKeys_of_read hread
  | endTag content => trivial
  | text characters =>
    intro resolved hresolved
    trivial
  | cdata characters =>
    rw [Yields, Leaf.IsWritable, String.toList_ofList]
    exact h
  | comment characters =>
    rw [Yields, Leaf.IsWritable, String.toList_ofList]
    exact h
  | instruction characters => exact Leaf.isWritable_instruction h
  | doctype => trivial

/-- **What was read is sound.** -/
theorem Document.isSound_of_parse {source : String} {d : Document}
    (h : Document.parse source = .ok d) :
    d.IsSound := by
  have sound := Document.all_of_parse (fun hnext => (Markup.isSound_of_next? hnext).yields) h
  exact ⟨sound.declaration, sound.prolog, sound.root⟩

/-! ## Writing again -/

/-- A document whose names are plain and whose declaration holds no double quotes. -/
structure Document.IsPlain (d : Document) : Prop where
  declaration : ∀ declaration ∈ d.declaration, ∀ pair ∈ declaration.pairs, '\x22' ∉ pair.2.toList
  root : d.root.All (fun _ => True) Tag.IsPlain

instance (d : Document) : Decidable d.IsPlain :=
  decidable_of_iff
    ((∀ declaration ∈ d.declaration, ∀ pair ∈ declaration.pairs, '\x22' ∉ pair.2.toList)
      ∧ d.root.All (fun _ => True) Tag.IsPlain)
    ⟨fun ⟨declaration, root⟩ => ⟨declaration, root⟩, fun h => ⟨h.declaration, h.root⟩⟩

/-- A document whose tags are clean and whose declaration holds no double quotes. -/
structure Document.IsClean (d : Document) : Prop where
  declaration : ∀ declaration ∈ d.declaration, ∀ pair ∈ declaration.pairs, '\x22' ∉ pair.2.toList
  root : d.root.All (fun _ => True) Tag.IsClean

instance (d : Document) : Decidable d.IsClean :=
  decidable_of_iff
    ((∀ declaration ∈ d.declaration, ∀ pair ∈ declaration.pairs, '\x22' ∉ pair.2.toList)
      ∧ d.root.All (fun _ => True) Tag.IsClean)
    ⟨fun ⟨declaration, root⟩ => ⟨declaration, root⟩, fun h => ⟨h.declaration, h.root⟩⟩

/-- What was read and is plain can be written. -/
theorem Document.IsSound.isWritable {d : Document} (h : d.IsSound) (hplain : d.IsPlain) :
    d.IsWritable where
  declaration := fun declaration hd pair hpair =>
    ⟨hplain.declaration declaration hd pair hpair, h.declaration declaration hd pair hpair⟩
  prolog := h.prolog
  root := (h.root.and hplain.root).imp (fun _ hl => hl.1) fun _ ht => ⟨ht.2, ht.1⟩


/-- What was read and is clean is read back from its text. -/
theorem Document.IsSound.isLegible {d : Document} (h : d.IsSound) (hclean : d.IsClean) :
    d.IsLegible where
  declaration := fun declaration hd pair hpair =>
    ⟨hclean.declaration declaration hd pair hpair, h.declaration declaration hd pair hpair⟩
  prolog := h.prolog
  root := (h.root.and hclean.root).imp (fun _ hl => hl.1) fun _ ht => ⟨ht.2, ht.1⟩

end PlcWorkbench.Xml
