import PlcWorkbench.Proofs.Xml.Accepted

/-!
# The two stacks

The reader keeps the names of the tags that are open, the assembly the elements themselves. Each
stack is changed on its own, and `Assembly.add` closes an element without a look at the name in
the end tag. `Markup.nest` says what a piece does to the names of open tags, and both stacks follow
it: the reader's by `Reader.next?_eq`, the assembly's by `Assembly.openNames_add`. So they stay in
step, `Reader.InStep.add`.
-/

namespace PlcWorkbench.Xml

/-- The names of the open tags after a piece, the innermost first. An end tag has to carry the
innermost. -/
def Markup.nest (m : Markup) (names : List (List Char)) : Except Error (List (List Char)) :=
  match m with
  | .startTag content => .ok (tagName content :: names)
  | .endTag content =>
    match names with
    | [] => .error (.unmatchedEnd (String.ofList (endName content)))
    | name :: outer =>
      if endName content = name then .ok outer
      else .error (.mismatchedEnd (String.ofList name) (String.ofList (endName content)))
  | _ => .ok names

/-- An end tag fits the open names if it carries the innermost, which it takes away. -/
theorem Markup.nest_endTag_eq_ok_iff {content : List Char} {names outer : List (List Char)} :
    (Markup.endTag content).nest names = .ok outer ↔ names = endName content :: outer := by
  cases names with
  | nil =>
    rw [nest]
    exact iff_of_false (fun h => by cases h) (fun h => by cases h)
  | cons name others =>
    rw [nest, List.cons.injEq]
    split
    · rename_i hname
      rw [Except.ok.injEq, eq_comm (a := name), and_iff_right hname]
    · rename_i hname
      exact iff_of_false (fun h => by cases h) fun h => hname h.1.symm

/-! ## The reader -/

namespace Reader

/-- A reader gives a piece of its text, if the piece fits the open names. -/
theorem next?_eq {source rest : List Char} {m : Markup}
    (h : Markup.next? source = .ok (some (m, rest))) (names : List (List Char)) :
    next? ⟨source, names⟩ = (m.nest names).map fun names' => some (m, ⟨rest, names'⟩) := by
  unfold next?
  rw [h]
  cases m with
  | endTag content =>
    cases names with
    | nil => rfl
    | cons name outer =>
      show (if endName content = name then _ else _)
        = (if endName content = name then _ else _ : Except Error _).map _
      split <;> rfl
  | _ => rfl

/-- The names that are open after a piece. -/
theorem nest_of_next? {reader after : Reader} {m : Markup}
    (h : reader.next? = .ok (some (m, after))) :
    m.nest reader.openNames = .ok after.openNames := by
  have read := next?_eq (markup_of_next? h) reader.openNames
  obtain ⟨names, hnest, heq⟩ := map_eq_ok_iff.1 (read.symm.trans h)
  obtain rfl := congrArg openNames (Prod.mk.inj (Option.some.inj heq)).2
  exact hnest

/-- The reader gives nothing only at the end of its text. -/
theorem source_of_next?_eq_none {reader : Reader} (h : reader.next? = .ok none) :
    reader.source = [] := by
  cases hnext : Markup.next? reader.source with
  | error cause =>
    unfold next? at h
    rw [hnext] at h
    cases h
  | ok piece =>
    cases piece with
    | none =>
      unfold Markup.next? at hnext
      split at hnext
      · assumption
      · obtain ⟨pair, -, heq⟩ := map_eq_ok_iff.1 hnext
        cases heq
      · cases hnext
    | some pair =>
      have read := next?_eq hnext reader.openNames
      obtain ⟨names, -, heq⟩ := map_eq_ok_iff.1 (read.symm.trans h)
      cases heq

end Reader

/-! ## The assembly -/

namespace Assembly

variable {a b : Assembly}

/-- The names of the open elements, the innermost first. -/
def openNames (a : Assembly) : List (List Char) := a.openElements.map (·.name.toList)

/-- No name is open if and only if no element is. -/
theorem openNames_eq_nil_iff : a.openNames = [] ↔ a.openElements = [] := List.map_eq_nil_iff

/-- Content added to the innermost open element does not change its name. -/
theorem openNames_push {parent : Element} {outer : List Element}
    (hopen : a.openElements = parent :: outer) (more : Content) :
    openNames { a with openElements := parent.push more :: outer } = a.openNames := by
  unfold openNames
  rw [hopen]
  rfl

/-- Attaching an element opens and closes none. -/
theorem openNames_attach {e : Element} (h : a.attach e = .ok b) : b.openNames = a.openNames := by
  unfold attach at h
  split at h
  · rename_i parent outer hopen
    cases h
    exact openNames_push hopen _
  · split at h
    · cases h
      rfl
    · cases h

/-- Putting a leaf down opens and closes no element. -/
theorem openNames_putDown (a : Assembly) (l : Leaf) : (a.putDown l).openNames = a.openNames := by
  unfold putDown
  split
  · rename_i parent outer hopen
    exact openNames_push hopen _
  · split <;> rfl

/-- **Step.** A piece that fits the open names does to the open elements what it does to the
names. -/
theorem openNames_add {m : Markup} {names : List (List Char)}
    (hnest : m.nest a.openNames = .ok names) (hadd : a.add m = .ok b) : b.openNames = names := by
  cases adds_of_add hadd with
  | opened hread =>
    obtain ⟨attributes, -, rfl⟩ := map_eq_ok_iff.1 hread
    cases hnest
    rw [openNames, List.map_cons, String.toList_ofList]
    rfl
  | @closed content e outer b hopen hattach =>
    -- the innermost name is the closed element's, and those around it stay
    rw [Markup.nest_endTag_eq_ok_iff, openNames, hopen, List.map_cons] at hnest
    rw [openNames_attach hattach]
    exact (List.cons.inj hnest).2
  | whole hread hattach =>
    cases hnest
    exact openNames_attach hattach
  | outside hopen =>
    cases hnest
    rfl
  | text hopen hresolved =>
    cases hnest
    exact openNames_push hopen _
  | cdata hopen =>
    cases hnest
    exact openNames_push hopen _
  | comment =>
    cases hnest
    exact openNames_putDown a _
  | instruction =>
    cases hnest
    exact openNames_putDown a _
  | declaration hread =>
    cases hnest
    rfl
  | doctype =>
    cases hnest
    rfl

end Assembly

/-- A reader and a document in the making agree on what is open. -/
def Reader.InStep (reader : Reader) (a : Assembly) : Prop := reader.openNames = a.openNames

/-- They agree before the first piece: nothing is open. -/
theorem Reader.inStep_start (source : List Char) : InStep ⟨source, []⟩ {} := rfl

/-- They agree after a piece if they did before it. -/
theorem Reader.InStep.add {reader after : Reader} {a b : Assembly} {m : Markup}
    (h : reader.InStep a) (hnext : reader.next? = .ok (some (m, after))) (hadd : a.add m = .ok b) :
    after.InStep b := by
  have hnest := nest_of_next? hnext
  rw [h] at hnest
  exact (Assembly.openNames_add hnest hadd).symm

end PlcWorkbench.Xml
