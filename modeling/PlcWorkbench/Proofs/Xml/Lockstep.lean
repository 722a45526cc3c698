import PlcWorkbench.Proofs.Text.Blank
import PlcWorkbench.Proofs.Xml.Outside

/-!
# In step at every turn

Reading a text takes in its pieces one at a time. `Assembly.TakesIn` tells where a reader and an
assembly get by that, and so what the loop comes to: it is at such a place at every turn, and it
stops at one. The two stacks are in step there, because they are before the first piece and each
piece keeps them so. An end tag then always finds the element of its name to close, and a document
is what has closed one root and left nothing open.

How many roots are closed is counted on the pieces alone, by `rootsClosed`.

* `Assembly.TakesIn.inStep` : the two stacks at every turn;
* `Reader.InStep.closes` : what an end tag closes;
* `Assembly.TakesIn.countRoots` : the roots closed so far;
* `Assembly.exists_stop` : where the loop stops, and with what;
* `Document.parse_inStep` : all of this for the text of a document.
-/

namespace PlcWorkbench.Xml

/-! ## Roots -/

namespace Markup

/-- How many elements are open after a piece. -/
def depthAfter (depth : Nat) : Markup → Nat
  | .startTag _ => depth + 1
  | .endTag _ => depth - 1
  | _ => depth

/-- Whether a piece closes an element that has no other around it. -/
def closesRoot (depth : Nat) : Markup → Bool
  | .emptyTag _ => depth == 0
  | .endTag _ => depth == 1
  | _ => false

/-- The names of open tags become as many as the depth says. -/
theorem length_of_nest {m : Markup} {names names' : List (List Char)}
    (h : m.nest names = .ok names') :
    names'.length = m.depthAfter names.length := by
  cases m with
  | startTag content =>
    cases h
    rfl
  | endTag content =>
    rw [nest_endTag_eq_ok_iff.1 h]
    rfl
  | _ =>
    cases h
    rfl

end Markup

/-- How many roots are closed by pieces that follow each other, with so many elements open before
them. -/
def rootsClosed : (depth : Nat) → List Markup → Nat
  | _, [] => 0
  | depth, m :: rest =>
    (if m.closesRoot depth then 1 else 0) + rootsClosed (m.depthAfter depth) rest

/-! ## End tags -/

/-- The content of an end tag is its name and white space. -/
theorem exists_of_endName (content : List Char) :
    ∃ spaces, content = endName content ++ spaces ∧ ∀ c ∈ spaces, isSpace c = true := by
  by_cases hblank : (Text.dropEndWhile isSpace content).isEmpty = true
  · -- if there is nothing else, it is the name
    refine ⟨[], ?_, List.forall_mem_nil _⟩
    rw [List.append_nil]
    exact (if_pos hblank).symm
  · obtain ⟨spaces, hcontent, hspaces⟩ := Text.exists_dropEndWhile isSpace content
    refine ⟨spaces, ?_, hspaces⟩
    rw [show endName content = Text.dropEndWhile isSpace content from if_neg hblank]
    exact hcontent

/-- **An end tag closes the element of its name**: one is open, and the innermost has the name in
the tag, white space after it aside. -/
theorem Reader.InStep.closes {reader after : Reader} {a : Assembly} {content : List Char}
    (h : reader.InStep a) (hnext : reader.next? = .ok (some (.endTag content, after))) :
    ∃ e outer, a.openElements = e :: outer
      ∧ ∃ spaces, content = e.name.toList ++ spaces ∧ ∀ c ∈ spaces, isSpace c = true := by
  have names := Markup.nest_endTag_eq_ok_iff.1 (nest_of_next? hnext)
  rw [h, Assembly.openNames] at names
  obtain ⟨e, outer, hopen, hname, -⟩ := List.map_eq_cons_iff.1 names
  obtain ⟨spaces, hcontent, hspaces⟩ := exists_of_endName content
  exact ⟨e, outer, hopen, spaces, hname ▸ hcontent, hspaces⟩

namespace Assembly

variable {a b : Assembly}

/-- How many roots a document in the making has, one or none. -/
def countRoots (a : Assembly) : Nat := a.root.toList.length

/-- Attaching an element makes it a root if nothing is open. -/
theorem countRoots_attach {e : Element} (h : a.attach e = .ok b) :
    b.countRoots = a.countRoots + if a.openElements.length = 0 then 1 else 0 := by
  unfold attach at h
  split at h
  · rename_i parent outer hopen
    cases h
    rw [hopen]
    rfl
  · rename_i hopen
    split at h
    · rename_i hroot
      cases h
      rw [countRoots, countRoots, hroot, hopen]
      rfl
    · cases h

/-- **Step.** A piece adds a root if it closes an element that has no other around it. -/
theorem countRoots_add {m : Markup} (h : a.add m = .ok b) :
    b.countRoots = a.countRoots + if m.closesRoot a.openElements.length then 1 else 0 := by
  cases adds_of_add h with
  | whole hread hattach =>
    rw [countRoots_attach hattach, Markup.closesRoot]
    simp
  | closed hopen hattach =>
    -- the element is attached to what is open around it
    rw [countRoots_attach hattach, hopen, Markup.closesRoot, List.length_cons]
    simp [countRoots]
  | comment =>
    rw [countRoots, root_putDown]
    rfl
  | instruction =>
    rw [countRoots, root_putDown]
    rfl
  | _ => rfl

/-- What is finished has nothing open and one root, and then it is a document. -/
theorem exists_finish_iff : (∃ d, a.finish = .ok d) ↔ a.openElements = [] ∧ a.countRoots = 1 := by
  constructor
  · rintro ⟨d, hfinish⟩
    obtain ⟨closed, hroot, -, -⟩ := finish_eq_ok_iff.1 hfinish
    refine ⟨closed, ?_⟩
    rw [countRoots, hroot]
    rfl
  · rintro ⟨closed, hcount⟩
    cases hroot : a.root with
    | none =>
      rw [countRoots, hroot] at hcount
      cases hcount
    | some root =>
      exact ⟨⟨a.declaration, a.prolog, root⟩, finish_eq_ok_iff.2 ⟨closed, hroot, rfl, rfl⟩⟩

/-! ## Turns of the loop -/

/-- From a reader and an assembly, taking in these pieces one after the other leads to a reader and
an assembly. -/
inductive TakesIn : Reader → Assembly → List Markup → Reader → Assembly → Prop where
  | nothing (reader : Reader) (a : Assembly) : TakesIn reader a [] reader a
  | piece {reader after reader' : Reader} {a b a' : Assembly} {m : Markup} {pieces : List Markup}
      (hnext : reader.next? = .ok (some (m, after))) (hadd : a.add m = .ok b)
      (rest : TakesIn after b pieces reader' a') : TakesIn reader a (m :: pieces) reader' a'

namespace TakesIn

variable {reader reader' : Reader} {a' : Assembly} {pieces : List Markup}

/-- What is completed from there on is what the whole comes to. -/
theorem complete_eq (h : TakesIn reader a pieces reader' a') :
    complete reader a = complete reader' a' := by
  induction h with
  | nothing reader a => rfl
  | piece hnext hadd rest ih => rw [complete_of_next? _ hnext hadd, ih]

/-- **Run.** A reader and an assembly stay in step. -/
theorem inStep (h : TakesIn reader a pieces reader' a') (hstep : reader.InStep a) :
    reader'.InStep a' := by
  induction h with
  | nothing reader a => exact hstep
  | piece hnext hadd rest ih => exact ih (hstep.add hnext hadd)

/-- **Run.** The roots are those that the pieces close. -/
theorem countRoots (h : TakesIn reader a pieces reader' a') (hstep : reader.InStep a) :
    a'.countRoots = a.countRoots + rootsClosed a.openElements.length pieces := by
  induction h with
  | nothing reader a => rfl
  | @piece reader after reader' a b a' m pieces hnext hadd rest ih =>
    have hstep' := hstep.add hnext hadd
    have depth : b.openElements.length = m.depthAfter a.openElements.length := by
      have names := Markup.length_of_nest (Reader.nest_of_next? hnext)
      rw [hstep, hstep', openNames, openNames, List.length_map, List.length_map] at names
      exact names
    rw [ih hstep', countRoots_add hadd, depth, rootsClosed, Nat.add_assoc]

end TakesIn

/-- How a loop that is at a reader and an assembly stops there: the reader refuses the text, the
assembly refuses the piece, or there are no more pieces. -/
inductive StopsAt (reader : Reader) (a : Assembly) : Except Error Document → Prop where
  | unread {cause : Error} (hnext : reader.next? = .error cause) : StopsAt reader a (.error cause)
  | refused {m : Markup} {after : Reader} {cause : Error}
      (hnext : reader.next? = .ok (some (m, after)))
      (hadd : a.add m = .error cause) : StopsAt reader a (.error cause)
  | ended (hnext : reader.next? = .ok none) : StopsAt reader a a.finish

/-- **The loop stops**, and what it comes to is decided where it does. -/
theorem exists_stop (reader : Reader) (a : Assembly) :
    ∃ pieces reader' a', TakesIn reader a pieces reader' a'
      ∧ StopsAt reader' a' (complete reader a) := by
  fun_induction Assembly.complete reader a with
  | case1 reader a cause hnext => exact ⟨[], reader, a, .nothing reader a, .unread hnext⟩
  | case2 reader a hnext => exact ⟨[], reader, a, .nothing reader a, .ended hnext⟩
  | case3 reader a m after hnext cause hadd =>
    exact ⟨[], reader, a, .nothing reader a, .refused hnext hadd⟩
  | case4 reader a m after hnext b hadd ih =>
    obtain ⟨pieces, reader', a', htakes, hstops⟩ := ih
    exact ⟨m :: pieces, reader', a', .piece hnext hadd htakes, hstops⟩

end Assembly

/-! ## The error that does not occur -/

/-- What begins otherwise is another text. -/
theorem append_ne_of_not_prefix {front rest other : String} (h : ¬ front.toList <+: other.toList) :
    front ++ rest ≠ other := by
  rintro rfl
  rw [String.toList_append] at h
  exact h (List.prefix_append _ _)

/-- No fault in the attributes of a tag is worded like an end tag that is not expected. -/
theorem AttributeError.message_ne_unexpectedEnd (cause : AttributeError) :
    cause.message ≠ "unexpected end tag" := by
  cases cause with
  | _ =>
    unfold AttributeError.message
    simp only [String.append_assoc, ne_eq]
    exact append_ne_of_not_prefix (by decide)

/-- Neither is a fault in a reference. -/
theorem EscapeError.message_ne_unexpectedEnd (cause : EscapeError) :
    cause.message ≠ "unexpected end tag" := by
  cases cause with
  | signedNumber | zero => decide
  | _ =>
    unfold EscapeError.message
    simp only [String.append_assoc, ne_eq]
    exact append_ne_of_not_prefix (by decide)

/-- No other error has the wording of this one. -/
theorem Error.message_ne_unexpectedEnd {cause : Error} (h : cause ≠ .unexpectedEnd) :
    cause.message ≠ "unexpected end tag" := by
  match cause with
  | .unexpectedEnd => exact absurd rfl h
  | .attribute cause => exact cause.message_ne_unexpectedEnd
  | .escape cause => exact cause.message_ne_unexpectedEnd
  | .mismatchedEnd _ _ | .unmatchedEnd _ | .versionNotFirst
      _ | .declarationAttribute _ | .secondRoot _
  | .unclosedElement _ =>
    -- what is told with a name or a cause begins with other words
    unfold Error.message
    simp only [String.append_assoc, ne_eq]
    exact append_ne_of_not_prefix (by decide)
  | .unclosedTag | .unknownMarkup | .unclosedCData | .unclosedComment | .unclosedDoctype
  | .unclosedInstruction | .unnamedDoctype | .versionMissing | .cdataOutsideRoot | .noRoot => decide

namespace Markup

/-- A delimited construct is refused for its own delimiters only. -/
theorem eq_unclosed_of_readDelimited {start stop source : List Char} {piece : List Char → Markup}
    {unclosed cause : Error} (h : readDelimited start stop piece unclosed source = .error cause) :
    cause = unclosed := by
  unfold readDelimited at h
  split at h
  · exact (Except.error.inj h).symm
  · split at h
    · exact (Except.error.inj h).symm
    · cases h

/-- Nor is a document type. -/
theorem readDoctype_ne_unexpectedEnd (source : List Char) :
    readDoctype source ≠ .error .unexpectedEnd := by
  intro h
  unfold readDoctype at h
  split at h
  · cases h
  · split at h
    · cases h
    · split at h <;> cases h

/-- Nor is a processing instruction. -/
theorem readInstruction_ne_unexpectedEnd (source : List Char) :
    readInstruction source ≠ .error .unexpectedEnd := by
  intro h
  unfold readInstruction at h
  split at h
  · cases h
  · cases eq_unclosed_of_readDelimited h

/-- Nor is any construct. -/
theorem readConstruct_ne_unexpectedEnd (source : List Char) :
    readConstruct source ≠ .error .unexpectedEnd := by
  intro h
  unfold readConstruct at h
  split at h
  · unfold readMarked at h
    split at h
    · cases eq_unclosed_of_readDelimited h
    · cases eq_unclosed_of_readDelimited h
    · exact readDoctype_ne_unexpectedEnd _ h
    · exact readDoctype_ne_unexpectedEnd _ h
    · cases h
  · exact readInstruction_ne_unexpectedEnd _ h
  · split at h <;> cases h
  · split at h <;> cases h

/-- No piece of a text is. -/
theorem next?_ne_unexpectedEnd (source : List Char) : next? source ≠ .error .unexpectedEnd := by
  intro h
  unfold next? at h
  split at h
  · cases h
  · exact readConstruct_ne_unexpectedEnd _ (map_eq_error_iff.1 h)
  · cases h

end Markup

/-- The reader has its own words for end tags that do not fit. -/
theorem Reader.next?_ne_unexpectedEnd (reader : Reader) : reader.next? ≠ .error .unexpectedEnd := by
  intro h
  unfold next? at h
  split at h
  · rename_i hnext
    cases h
    exact Markup.next?_ne_unexpectedEnd _ hnext
  · cases h
  · split at h
    · cases h
    · split at h
      · cases h
      · split at h <;> cases h
    · cases h

/-- The attributes of a tag are not refused as an end tag. -/
theorem readAttributes_ne_unexpectedEnd (total : Nat) (known : List (String × Nat))
    (source : List Char) :
    readAttributes total known source ≠ .error .unexpectedEnd := by
  fun_induction readAttributes total known source with
  | case1 known source cause hnext =>
    intro h
    cases h
  | case2 known source hnext =>
    intro h
    cases h
  | case3 known source a after hnext cause hvalue =>
    intro h
    cases h
  | case4 known source a after hnext value hvalue ih => exact fun h => ih (map_eq_error_iff.1 h)

/-- Nor is a declaration. -/
theorem Declaration.read_ne_unexpectedEnd (content : List Char) :
    read content ≠ .error .unexpectedEnd := by
  intro h
  unfold read at h
  dsimp only at h
  split at h
  · cases h
  · cases h
  · split at h
    · split at h
      · cases h
      · split at h <;> cases h
    · cases h

namespace Assembly

variable {reader : Reader} {a : Assembly}

/-- Attaching an element is not refused as an end tag. -/
theorem attach_ne_unexpectedEnd (a : Assembly) (e : Element) :
    a.attach e ≠ .error .unexpectedEnd := by
  intro h
  unfold attach at h
  split at h
  · cases h
  · split at h <;> cases h

/-- **An end tag is not expected** exactly where nothing is open, and nothing else is refused as
one. -/
theorem add_eq_unexpectedEnd_iff {m : Markup} :
    a.add m = .error .unexpectedEnd ↔ (∃ content, m = .endTag content) ∧ a.openElements = [] := by
  constructor
  · intro h
    cases m with
    | endTag content =>
      rw [add] at h
      split at h
      · rename_i hopen
        exact ⟨⟨content, rfl⟩, hopen⟩
      · exact absurd h (attach_ne_unexpectedEnd _ _)
    | declaration content =>
      exact absurd (map_eq_error_iff.1 h) (Declaration.read_ne_unexpectedEnd content)
    | startTag content =>
      exact absurd (map_eq_error_iff.1 (map_eq_error_iff.1 h))
        (readAttributes_ne_unexpectedEnd _ _ _)
    | emptyTag content =>
      rw [add] at h
      split at h
      · rename_i hread
        cases h
        exact absurd (map_eq_error_iff.1 hread) (readAttributes_ne_unexpectedEnd _ _ _)
      · exact absurd h (attach_ne_unexpectedEnd _ _)
    | text characters =>
      rw [add] at h
      split at h
      · cases h
      · split at h <;> cases h
    | cdata characters =>
      rw [add] at h
      split at h <;> cases h
    | comment characters => cases h
    | instruction characters => cases h
    | doctype => cases h
  · rintro ⟨⟨content, rfl⟩, hopen⟩
    rw [add, hopen]

/-- A loop that is in step does not stop for an end tag that is not expected. -/
theorem StopsAt.ne_unexpectedEnd {result : Except Error Document} (h : StopsAt reader a result)
    (hstep : reader.InStep a) : result ≠ .error .unexpectedEnd := by
  cases h with
  | unread hnext =>
    rintro ⟨⟩
    exact reader.next?_ne_unexpectedEnd hnext
  | refused hnext hadd =>
    rintro ⟨⟩
    obtain ⟨⟨content, rfl⟩, hopen⟩ := add_eq_unexpectedEnd_iff.1 hadd
    -- the reader gives an end tag only if the assembly has an element for it
    obtain ⟨e, outer, hsome, -⟩ := hstep.closes hnext
    cases hopen.symm.trans hsome
  | ended hnext =>
    intro h
    unfold finish at h
    split at h
    · cases h
    · split at h <;> cases h

end Assembly

/-! ## Reading a document -/

namespace Document

/-- Reading a text gets from its front to this reader and this assembly, by taking in these
pieces. -/
def Reaches (source : String) (pieces : List Markup) (reader : Reader) (a : Assembly) : Prop :=
  Assembly.TakesIn ⟨dropByteOrderMark (dropByteOrderMark source.toList), []⟩ {} pieces reader a

variable {source : String} {pieces : List Markup} {reader : Reader} {a : Assembly}

/-- The two stacks are in step wherever reading gets. -/
theorem Reaches.inStep (h : Reaches source pieces reader a) : reader.InStep a :=
  Assembly.TakesIn.inStep h (Reader.inStep_start _)

/-- The roots that a document in the making has are those that its pieces closed. -/
theorem Reaches.countRoots (h : Reaches source pieces reader a) :
    a.countRoots = rootsClosed 0 pieces := by
  rw [Assembly.TakesIn.countRoots h (Reader.inStep_start _)]
  exact Nat.zero_add _

/-- A text is a document exactly if the pieces up to its end left nothing open and closed one
root. -/
theorem Reaches.exists_parse_iff (h : Reaches source pieces reader a)
    (hnext : reader.next? = .ok none) :
    (∃ d, parse source = .ok d) ↔ a.openElements = [] ∧ rootsClosed 0 pieces = 1 := by
  have ended : Assembly.complete reader a = a.finish := by
    obtain ⟨rest, names⟩ := reader
    obtain rfl : rest = [] := Reader.source_of_next?_eq_none hnext
    exact Assembly.complete_nil names a
  rw [← h.countRoots, ← Assembly.exists_finish_iff, ← ended, parse, Assembly.TakesIn.complete_eq h]

/-- **The two stacks run in lock-step.** Wherever reading a text gets, piece by piece, the names of
the tags that the reader holds open are the names of the open elements; so an end tag closes the
innermost element, which has the name in the tag, white space after it aside, and at the end of the
text there is a document exactly if nothing is open and one root was closed. Every document comes
about in this way, and no text is refused because of an end tag that is not expected: no error has
that wording. -/
theorem parse_inStep (source : String) :
    (∀ pieces reader a, Reaches source pieces reader a →
        parse source = Assembly.complete reader a
        ∧ reader.openNames = a.openElements.map (·.name.toList)
        ∧ (∀ content after, reader.next? = .ok (some (.endTag content, after)) →
            ∃ e outer, a.openElements = e :: outer
              ∧ (∃ spaces, content = e.name.toList ++ spaces ∧ ∀ c ∈ spaces, isSpace c = true)
              ∧ a.add (.endTag content) = { a with openElements := outer }.attach e)
        ∧ (reader.next? = .ok none →
            ((∃ d, parse source = .ok d) ↔ a.openElements = [] ∧ rootsClosed 0 pieces = 1)))
      ∧ (∀ d, parse source = .ok d →
          ∃ pieces reader a, Reaches source pieces reader a ∧ reader.next? = .ok none
            ∧ reader.openNames = [] ∧ a.openElements = [] ∧ rootsClosed 0 pieces = 1
            ∧ a.root = some d.root)
      ∧ ∀ cause, parse source = .error cause →
          cause ≠ .unexpectedEnd ∧ cause.message ≠ "unexpected end tag" := by
  obtain ⟨last, reader', a', hreaches, hstops⟩ :
      ∃ pieces reader a, Reaches source pieces reader a
        ∧ Assembly.StopsAt reader a (parse source) :=
    Assembly.exists_stop _ _
  refine ⟨?_, ?_, ?_⟩
  · intro pieces reader a h
    refine ⟨Assembly.TakesIn.complete_eq h, h.inStep, ?_, h.exists_parse_iff⟩
    intro content after hnext
    obtain ⟨e, outer, hopen, hname⟩ := h.inStep.closes hnext
    refine ⟨e, outer, hopen, hname, ?_⟩
    rw [Assembly.add, hopen]
  · intro d hparse
    rw [hparse] at hstops
    generalize hresult : Except.ok d = result at hstops
    cases hstops with
    | unread hnext => cases hresult
    | refused hnext hadd => cases hresult
    | ended hnext =>
      obtain ⟨hopen, hroots⟩ := (hreaches.exists_parse_iff hnext).1 ⟨d, hparse⟩
      have names : reader'.openNames = [] :=
        hreaches.inStep.trans (Assembly.openNames_eq_nil_iff.2 hopen)
      exact ⟨last, reader', a', hreaches, hnext, names, hopen, hroots,
        (Assembly.finish_eq_ok_iff.1 hresult.symm).2.1⟩
  · intro cause hparse
    have other : cause ≠ .unexpectedEnd := by
      rintro rfl
      exact hstops.ne_unexpectedEnd hreaches.inStep hparse
    exact ⟨other, Error.message_ne_unexpectedEnd other⟩

/-- An element with text and a child. -/
def panel : Element := ⟨⟨"a", []⟩, .leaf (.text "x") (.element ⟨"b", []⟩ .empty .empty)⟩

/-- An end tag with a line break in it finds this element open and makes it the root; an end tag at
the front of a text is refused in other words. -/
theorem parse_inStep_broken :
    Reaches "<a>x<b/></a\n>" [.startTag ['a'], .text ['x'], .emptyTag ['b']]
      ⟨['<', '/', 'a', '\n', '>'], [['a']]⟩
        { openElements := [panel] }
      ∧ Reader.next? ⟨['<', '/', 'a', '\n', '>'], [['a']]⟩
          = .ok (some (.endTag ['a', '\n'], ⟨[], []⟩))
      ∧ (∃ e outer, [panel] = e :: outer
          ∧ ∃ spaces, ['a', '\n'] = e.name.toList ++ spaces ∧ ∀ c ∈ spaces, isSpace c = true)
      ∧ (∃ d, parse "<a>x<b/></a\n>" = .ok d)
      ∧ ∃ cause, parse "</a>" = .error cause ∧ cause.message ≠ "unexpected end tag" := by
  have front : dropByteOrderMark (dropByteOrderMark "<a>x<b/></a\n>".toList)
      = ['<', 'a', '>', 'x', '<', 'b', '/', '>', '<', '/', 'a', '\n', '>'] := by decide
  have first :
      Assembly.add {} (.startTag ['a']) = .ok { openElements := [⟨⟨"a", []⟩, .empty⟩] } := by
        decide +kernel
  have second : Assembly.add { openElements := [⟨⟨"a", []⟩, .empty⟩] } (.text ['x'])
      = .ok { openElements := [⟨⟨"a", []⟩, .leaf (.text "x") .empty⟩] } := by decide +kernel
  have third :
      Assembly.add { openElements := [⟨⟨"a", []⟩, .leaf (.text "x") .empty⟩] } (.emptyTag ['b'])
      = .ok { openElements := [panel] } := by decide +kernel
  have opened : Reaches "<a>x<b/></a\n>" [.startTag ['a'], .text ['x'], .emptyTag ['b']]
      ⟨['<', '/', 'a', '\n', '>'], [['a']]⟩ { openElements := [panel] } := by
    rw [Reaches, front]
    exact .piece rfl first (.piece rfl second (.piece rfl third (.nothing _ _)))
  have closing : Reader.next? ⟨['<', '/', 'a', '\n', '>'], [['a']]⟩
      = .ok (some (.endTag ['a', '\n'], ⟨[], []⟩)) := rfl
  have closed :
      Reaches "<a>x<b/></a\n>" [.startTag ['a'], .text ['x'], .emptyTag ['b'],
        .endTag ['a', '\n']] ⟨[], []⟩
      { root := some panel } := by
    rw [Reaches, front]
    exact .piece rfl first (.piece rfl second
      (.piece rfl third (.piece closing rfl (.nothing _ _))))
  have refused : parse "</a>" = .error (.unmatchedEnd "a") := by decide +kernel
  obtain ⟨e, outer, hopen, hname, -⟩ := ((parse_inStep _).1 _ _ _ opened).2.2.1 _ _ closing
  refine ⟨opened, closing, ⟨e, outer, hopen, hname⟩, ?_, ?_⟩
  · exact (((parse_inStep _).1 _ _ _ closed).2.2.2 rfl).2 ⟨rfl, rfl⟩
  · exact ⟨_, refused, ((parse_inStep _).2.2 _ refused).2⟩

end Document

end PlcWorkbench.Xml
