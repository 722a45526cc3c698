import PlcWorkbench.Proofs.Xml.Locality
import PlcWorkbench.Proofs.Xml.Nesting

/-!
# What stands outside the root

A text that is read as a document can be followed by more text. Where it ended, nothing is open and
the document is there: this is `Assembly.exists_of_complete`, by an induction over the pieces that
keeps the reader and the assembly in step. From there on, text and comments are passed over, and the
root of a second document is one too many. For the latter, two assemblies are run side by side that
differ in whether there is a root (`Assembly.Rooted`): they take in the same pieces, up to the one
that gives the first its root. `Document.parse_around` puts the parts together.
-/

namespace PlcWorkbench.Xml

/-! ## Text and comments outside the root -/

namespace Assembly

variable {a : Assembly} {names : List (List Char)}

/-- Outside the root, a byte order mark is text like any other. -/
theorem complete_dropByteOrderMark (ha : a.openElements = []) (source : List Char) :
    complete ⟨dropByteOrderMark source, names⟩ a = complete ⟨source, names⟩ a := by
  unfold dropByteOrderMark
  split
  · rename_i rest
    exact (complete_text_outside ha (by decide : '<' ∉ ['\ufeff']) rest names).symm
  · rfl

end Assembly

/-- Reading starts at the front of the text, byte order marks or not. -/
theorem Document.parse_eq_complete_toList (source : String) :
    Document.parse source = Assembly.complete ⟨source.toList, []⟩ {} := by
  unfold Document.parse
  rw [Assembly.complete_dropByteOrderMark rfl, Assembly.complete_dropByteOrderMark rfl]

/-- A piece of text that is passed over after the root: one without an opening bracket, or a
comment. -/
inductive IsLoose : String → Prop where
  | text {t : String} (h : '<' ∉ t.toList) : IsLoose t
  | comment {c : String} (h : ¬ "-->".toList <:+: c.toList) : IsLoose ("<!--" ++ c ++ "-->")

namespace Assembly

variable {a b : Assembly} {names : List (List Char)}

/-- After the root, a loose piece is passed over. -/
theorem complete_loose (ha : a.openElements = []) {root : Element} (hroot : a.root = some root)
    {piece : String} (h : IsLoose piece) (source : List Char) :
    complete ⟨piece.toList ++ source, names⟩ a = complete ⟨source, names⟩ a := by
  cases h with
  | text h => exact complete_text_outside ha h source names
  | @comment c h =>
    have closing : "-->".toList = ['-', '-', '>'] := by decide
    rw [closing] at h
    have read :
        Markup.next? ((Leaf.comment c).render ++ source) = .ok (some (.comment c.toList, source)) :=
      Markup.next?_leaf (l := .comment c) h rfl source
    have dropped : a.putDown (.comment (String.ofList c.toList)) = a := by
      unfold putDown
      rw [ha, hroot]
      rfl
    rw [String.toList_append, String.toList_append]
    apply complete_of_next? (.comment c.toList)
    · exact Reader.next?_eq read names
    · rw [add, dropped]

/-- After the root, loose pieces are passed over, however many. -/
theorem complete_join (ha : a.openElements = []) {root : Element} (hroot : a.root = some root)
    {pieces : List String} (h : ∀ piece ∈ pieces, IsLoose piece) :
    complete ⟨(String.join pieces).toList, names⟩ a = complete ⟨[], names⟩ a := by
  rw [String.toList_join]
  induction pieces with
  | nil => rfl
  | cons piece pieces ih =>
    rw [List.forall_mem_cons] at h
    rw [List.flatMap_cons, complete_loose ha hroot h.1, ih h.2]

/-! ## A document in front of more text -/

/-- A document that is finished: nothing is open and the root is there. -/
theorem finish_eq_ok_iff {d : Document} :
    a.finish = .ok d
      ↔ a.openElements = [] ∧ a.root = some d.root ∧ a.declaration = d.declaration
          ∧ a.prolog = d.prolog := by
  unfold finish
  split
  · rename_i e outer hopen
    simp [hopen]
  · rename_i hopen
    split
    · rename_i hroot
      simp [hroot]
    · rename_i root hroot
      rw [Except.ok.injEq, hroot, Option.some_inj]
      constructor
      · rintro rfl
        exact ⟨hopen, rfl, rfl, rfl⟩
      · rintro ⟨-, rfl, hdeclaration, hprolog⟩
        rw [hdeclaration, hprolog]

/-- **A text that is read as a document is read the same in front of more text**, and what follows
is read with nothing open and the document in place. -/
theorem exists_of_complete {reader : Reader} {d : Document} (hstep : reader.InStep a)
    (h : complete reader a = .ok d) :
    ∃ b, b.finish = .ok d
      ∧ ∀ more, complete ⟨reader.source ++ more, reader.openNames⟩ a = complete ⟨more, []⟩ b := by
  fun_induction Assembly.complete reader a with
  | case1 reader a cause hnext => cases h
  | case2 reader a hnext =>
    have closed := (finish_eq_ok_iff.1 h).1
    have names : reader.openNames = [] := hstep.trans (openNames_eq_nil_iff.2 closed)
    refine ⟨a, h, ?_⟩
    intro more
    rw [Reader.source_of_next?_eq_none hnext, names, List.nil_append]
  | case3 reader a m after hnext cause hadd => cases h
  | case4 reader a m after hnext b hadd ih =>
    have hstep' := hstep.add hnext hadd
    obtain ⟨b', hfinish, hmore⟩ := ih hstep' h
    refine ⟨b', hfinish, ?_⟩
    intro more
    obtain read | ⟨plain, ends, rfl⟩ := Markup.next?_append (Reader.markup_of_next? hnext) more
    · rw [← hmore more]
      apply complete_of_next? m
      · rw [Reader.next?_eq read, Reader.nest_of_next? hnext]
        rfl
      · exact hadd
    · -- the text at the end goes on; it is outside the root, or an element would be left open
      obtain ⟨rest, names'⟩ := after
      obtain rfl : rest = [] := ends
      rw [complete_nil] at h
      obtain rfl : reader.openNames = names' := Except.ok.inj (Reader.nest_of_next? hnext)
      have closed : a.openElements = [] := by
        rw [← openNames_eq_nil_iff, ← hstep, hstep', openNames_eq_nil_iff]
        exact (finish_eq_ok_iff.1 h).1
      obtain rfl : a = b := Except.ok.inj ((add_text_outside closed _).symm.trans hadd)
      rw [complete_text_outside closed plain]
      exact hmore more

/-! ## A second root -/

/-- A piece that the reader gives and the assembly refuses. -/
theorem complete_of_error {reader after : Reader} {m : Markup} {cause : Error}
    (hnext : reader.next? = .ok (some (m, after))) (hadd : a.add m = .error cause) :
    complete reader a = .error cause := by
  rw [complete]
  split
  · rename_i h
    cases hnext.symm.trans h
  · rename_i h
    cases hnext.symm.trans h
  · rename_i h
    cases hnext.symm.trans h
    rw [hadd]

/-- Once there is a root, attaching an element leaves it in place. -/
theorem root_attach {e root : Element} (hroot : a.root = some root) (h : a.attach e = .ok b) :
    b.root = some root := by
  unfold attach at h
  split at h
  · cases h
    exact hroot
  · rw [hroot] at h
    cases h

/-- Putting a leaf down leaves the root as it is. -/
theorem root_putDown (a : Assembly) (l : Leaf) : (a.putDown l).root = a.root := by
  unfold putDown
  split
  · rfl
  · split <;> rfl

/-- Once there is a root, every piece leaves it in place. -/
theorem root_add {root : Element} {m : Markup} (hroot : a.root = some root) (h : a.add m = .ok b) :
    b.root = some root := by
  cases adds_of_add h with
  | whole hread hattach => exact root_attach hroot hattach
  | @closed content e outer b hopen hattach =>
    exact root_attach (a := { a with openElements := outer }) hroot hattach
  | comment => rw [root_putDown, hroot]
  | instruction => rw [root_putDown, hroot]
  | _ => exact hroot

/-- The root of a document is the first that there was. -/
theorem root_complete {root : Element} {reader : Reader} {d : Document} (hroot : a.root = some root)
    (h : complete reader a = .ok d) : d.root = root := by
  fun_induction Assembly.complete reader a with
  | case1 reader a cause hnext => cases h
  | case2 reader a hnext => exact Option.some.inj ((finish_eq_ok_iff.1 h).2.1.symm.trans hroot)
  | case3 reader a m after hnext cause hadd => cases h
  | case4 reader a m after hnext b hadd ih => exact ih (root_add hroot hadd) h

/-- Two documents in the making with the same elements open. The first has no root yet, the second
has one. -/
structure Rooted (a a' : Assembly) : Prop where
  openElements : a'.openElements = a.openElements
  root : a.root = none
  second : a'.root.isSome = true

/-- What the second comes to where the first comes to `b`: both go on, or the first got a root just
now, which is one too many for the second. -/
inductive Rooted.Follows (b : Assembly) : Except Error Assembly → Prop where
  | on {b' : Assembly} (h : Rooted b b') : Follows b (.ok b')
  | full {root : Element} (h : b.root = some root) : Follows b (.error (.secondRoot root.name))

namespace Rooted

variable {a' : Assembly}

/-- Other open elements, the same in both. -/
theorem setOpen (h : Rooted a a') (elements : List Element) :
    Rooted { a with openElements := elements } { a' with openElements := elements } :=
      ⟨rfl, h.root, h.second⟩

/-- Attaching the same element to both. -/
theorem attach (h : Rooted a a') {e : Element} (hattach : a.attach e = .ok b) :
    Follows b (a'.attach e) := by
  unfold Assembly.attach at hattach ⊢
  rw [h.openElements]
  split at hattach
  · rename_i parent outer hopen
    cases hattach
    exact .on (h.setOpen _)
  · rename_i hopen
    rw [h.root] at hattach
    cases hattach
    obtain ⟨root, hroot⟩ := Option.isSome_iff_exists.1 h.second
    rw [hroot]
    exact .full rfl

/-- Putting the same leaf down in both. -/
theorem putDown (h : Rooted a a') (l : Leaf) : Rooted (a.putDown l) (a'.putDown l) := by
  unfold Assembly.putDown
  rw [h.openElements]
  split
  · exact h.setOpen _
  · rename_i hopen
    rw [if_pos (by rw [h.root]; rfl),
      if_neg (by rw [Option.isNone_eq_false_iff.2 h.second]; exact Bool.false_ne_true)]
    exact ⟨h.openElements, h.root, h.second⟩

/-- **Step.** Both take in the same piece. -/
theorem add (h : Rooted a a') {m : Markup} (hadd : a.add m = .ok b) : Follows b (a'.add m) := by
  cases adds_of_add hadd with
  | declaration hread =>
    rw [Assembly.add, hread]
    exact .on ⟨h.openElements, h.root, h.second⟩
  | @opened content tag hread =>
    rw [Assembly.add, hread]
    show Follows _ (.ok { a' with openElements := ⟨tag, .empty⟩ :: a'.openElements })
    rw [h.openElements]
    exact .on (h.setOpen _)
  | whole hread hattach =>
    rw [Assembly.add, hread]
    exact h.attach hattach
  | @closed content e outer b hopen hattach =>
    rw [Assembly.add, h.openElements, hopen]
    exact (h.setOpen outer).attach hattach
  | outside hopen =>
    rw [Assembly.add, h.openElements, hopen]
    exact .on h
  | text hopen hresolved =>
    rw [Assembly.add, h.openElements, hopen]
    simp only [hresolved]
    exact .on (h.setOpen _)
  | cdata hopen =>
    rw [Assembly.add, h.openElements, hopen]
    exact .on (h.setOpen _)
  | comment => exact .on (h.putDown _)
  | instruction => exact .on (h.putDown _)
  | doctype => exact .on h

/-- **Run.** A text that completes the first is refused by the second, for its root. -/
theorem complete (h : Rooted a a') {reader : Reader} {d : Document}
    (hcomplete : complete reader a = .ok d) :
    Assembly.complete reader a' = .error (.secondRoot d.root.name) := by
  fun_induction Assembly.complete reader a generalizing a' with
  | case1 reader a cause hnext => cases hcomplete
  | case2 reader a hnext =>
    -- without a root the first would not be finished
    cases h.root.symm.trans (finish_eq_ok_iff.1 hcomplete).2.1
  | case3 reader a m after hnext cause hadd => cases hcomplete
  | case4 reader a m after hnext b hadd ih =>
    have follows := h.add hadd
    generalize hadd' : a'.add m = result at follows
    cases follows with
    | on h' =>
      rw [complete_of_next? m hnext hadd']
      exact ih h' hcomplete
    | full hroot =>
      rw [root_complete hroot hcomplete]
      exact complete_of_error hnext hadd'

end Rooted

end Assembly

/-! ## Documents -/

/-- **What stands outside the root never changes or extends a document.** Around the text of a
document, text without an opening bracket is passed over, behind it also comments; the text of
another document behind it is refused, for its root. -/
theorem Document.parse_around {source : String} {d : Document} (h : Document.parse source = .ok d) :
    (∀ (front : String) (pieces : List String), '<' ∉ front.toList →
        (∀ piece ∈ pieces, IsLoose piece) →
      Document.parse (front ++ source ++ String.join pieces) = .ok d)
    ∧ ∀ (other : String) (d' : Document), Document.parse other = .ok d' →
      Document.parse (source ++ other) = .error (.secondRoot d'.root.name)
      ∧ (Error.secondRoot d'.root.name).message = "second root element '" ++ d'.root.name
          ++ "'" := by
  rw [parse_eq_complete_toList] at h
  obtain ⟨a, hfinish, hmore⟩ := Assembly.exists_of_complete (Reader.inStep_start _) h
  obtain ⟨closed, hroot, -, -⟩ := Assembly.finish_eq_ok_iff.1 hfinish
  constructor
  · intro front pieces hfront hpieces
    rw [parse_eq_complete_toList, String.toList_append, String.toList_append, List.append_assoc,
      Assembly.complete_text_outside rfl hfront, hmore, Assembly.complete_join closed hroot hpieces,
      Assembly.complete_nil, hfinish]
  · intro other d' hother
    rw [parse_eq_complete_toList] at hother
    have rooted : Assembly.Rooted {} a := ⟨closed, rfl, Option.isSome_iff_exists.2 ⟨d.root, hroot⟩⟩
    refine ⟨?_, rfl⟩
    rw [parse_eq_complete_toList, String.toList_append, hmore, rooted.complete hother]

/-- Byte order marks, ampersands and a comment around a document, and behind it one with a
declaration of its own. -/
theorem Document.parse_around_marks :
    Document.parse "<?xml version='1.0'?><a>1</a>\n"
        = .ok ⟨some ⟨"1.0", none, none⟩, [], ⟨⟨"a", []⟩, .leaf (.text "1") .empty⟩⟩
      ∧ Document.parse ("\ufeff & \ufeff" ++ "<?xml version='1.0'?><a>1</a>\n"
          ++ String.join ["&lt", "<!-- <b> - -->", "\ufeff"])
        = .ok ⟨some ⟨"1.0", none, none⟩, [], ⟨⟨"a", []⟩, .leaf (.text "1") .empty⟩⟩
      ∧ Document.parse ("<?xml version='1.0'?><a>1</a>\n"
          ++ "\ufeff<?xml version='1.1'?><!-- a --><b><a/></b>")
        = .error (.secondRoot "b") := by
  have first : Document.parse "<?xml version='1.0'?><a>1</a>\n"
      = .ok ⟨some ⟨"1.0", none, none⟩, [], ⟨⟨"a", []⟩, .leaf (.text "1") .empty⟩⟩ := by
        decide +kernel
  have other : Document.parse "\ufeff<?xml version='1.1'?><!-- a --><b><a/></b>"
      = .ok ⟨some ⟨"1.1", none, none⟩, [.comment " a "],
          ⟨⟨"b", []⟩, .element ⟨"a", []⟩ .empty .empty⟩⟩ := by
    decide +kernel
  have loose : ∀ piece ∈ ["&lt", "<!-- <b> - -->", "\ufeff"], IsLoose piece := by
    intro piece hpiece
    simp only [List.mem_cons, List.not_mem_nil, or_false] at hpiece
    rcases hpiece with rfl | rfl | rfl
    · exact .text (by decide)
    · exact .comment (c := " <b> - ") (by decide)
    · exact .text (by decide)
  obtain ⟨around, second⟩ := Document.parse_around first
  exact ⟨first, around "\ufeff & \ufeff" _ (by decide) loose, (second _ _ other).1⟩

end PlcWorkbench.Xml
