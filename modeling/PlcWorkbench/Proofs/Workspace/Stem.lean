import PlcWorkbench.Proofs.Workspace.Tree

/-!
# Stems of the files that a scan finds

A name that ends in a dot and an extension has its stem in front of its last dot, unless that
is where the name begins: then the whole name is the stem. So the names of a directory that have an
extension have different stems, but for a file that is named by its extension only and one with the
name of that file and the extension again.

* `Path.stem_append` : the stem of a name;
* `Path.stem_eq_iff` : when names with one extension have the same stem;
* `IsTree.fileStem?_eq_iff` : the same for the files that a scan finds;
* `IsTree.nodup_stems_iff` : when all that a scan finds have different stems.
-/

namespace PlcWorkbench

namespace Path

/-! ## Names -/

/-- The stem of a file name. -/
def stem (name : String) : String := (splitName name).1

/-- The stem of a path is that of its file name. -/
theorem fileStem?_eq (p : Path) : p.fileStem? = p.fileName?.map stem := rfl

/-- The stem is what is before the last dot, unless that is nothing. -/
theorem stem_append {before after : List Char} (h : '.' ∉ after) :
    stem (String.ofList (before ++ '.' :: after))
      = String.ofList (if before = [] then '.' :: after else before) := by
  have length : (before ++ '.' :: after).length - after.length - 1 = before.length := by
    rw [List.length_append, List.length_cons]
    omega
  have dotted : (before ++ '.' :: after).length ≠ after.length := by
    rw [List.length_append, List.length_cons]
    omega
  rw [stem, splitName, String.toList_ofList, Text.lastSegment_append h]
  simp only [length, List.take_left', dotted, false_or, List.isEmpty_iff]
  by_cases hbefore : before = []
  · simp [hbefore]
  · simp [hbefore]

/-- One name is the extension alone behind a dot, and the other is that name with the extension
again. -/
def IsRepeated (extension name name' : String) : Prop :=
  name = "." ++ extension ∧ name' = "." ++ extension ++ "." ++ extension

/-- What is put in front of an extension: the rest of a name is the same, so the name tells it. -/
theorem exists_of_hasExtension {extension name : String}
    (h : Workspace.hasExtension extension name = true) :
    ∃ front : List Char, name = String.ofList (front ++ '.' :: extension.toList) := by
  obtain ⟨front, hfront⟩ := List.isSuffixOf_iff_suffix.1 h
  exact ⟨front, by rw [hfront, String.ofList_toList]⟩

/-- Different texts in front of the same end are told by their stems, unless one is empty and the
other is the end. -/
theorem stem_front_eq_iff {front front' before after : List Char} (hne : front ≠ front') :
    (if front ++ before = [] then '.' :: after else front ++ before)
        = (if front' ++ before = [] then '.' :: after else front' ++ before)
      ↔ before = [] ∧ (front = [] ∧ front' = '.' :: after
          ∨ front' = [] ∧ front = '.' :: after) := by
  by_cases hbefore : before = []
  · subst hbefore
    by_cases hfront : front = []
    · subst hfront
      simp [hne.symm, eq_comm]
    · by_cases hfront' : front' = []
      · subst hfront'
        simp [hfront]
      · simp [hfront, hfront', hne]
  · simp [hbefore, hne]

/-- **Different names with one extension have different stems**, unless the extension has no dot and
is all that one of them has, and the other is that name with the extension again. -/
theorem stem_eq_iff {extension name name' : String}
    (h : Workspace.hasExtension extension name = true)
    (h' : Workspace.hasExtension extension name' = true) (hne : name ≠ name') :
    stem name = stem name'
      ↔ '.' ∉ extension.toList ∧ (IsRepeated extension name name'
          ∨ IsRepeated extension name' name) := by
  obtain ⟨front, rfl⟩ := exists_of_hasExtension h
  obtain ⟨front', rfl⟩ := exists_of_hasExtension h'
  have dotted : '.' ∈ '.' :: extension.toList := List.mem_cons_self
  obtain ⟨before, after, hdivided, hafter⟩ := Text.exists_lastSegment dotted
  have fronts : front ≠ front' := fun heq => hne (by rw [heq])
  rw [hdivided, ← List.append_assoc, ← List.append_assoc, stem_append hafter, stem_append hafter,
    String.ofList_inj, stem_front_eq_iff fronts]
  -- the last dot is the one in front of the extension if that has no dot itself
  have undotted : before = [] ↔ '.' ∉ extension.toList := by
    cases before with
    | nil =>
      have whole : extension.toList = after := (List.cons.inj hdivided).2
      exact iff_of_true rfl (whole ▸ hafter)
    | cons c rest =>
      have whole : extension.toList = rest ++ '.' :: after := (List.cons.inj hdivided).2
      refine iff_of_false (List.cons_ne_nil c rest) fun hnot => hnot ?_
      rw [whole]
      exact List.mem_append_right _ List.mem_cons_self
  rw [undotted]
  refine and_congr_right fun hdot => ?_
  obtain rfl : before = [] := undotted.2 hdot
  have whole : after = extension.toList := (List.cons.inj hdivided).2.symm
  subst whole
  have alone : ∀ front : List Char,
      front = [] ↔ String.ofList (front ++ '.' :: extension.toList) = "." ++ extension := by
    intro front
    rw [← String.toList_inj]
    simp
  have again : ∀ front : List Char, front = '.' :: extension.toList
      ↔ String.ofList (front ++ '.' :: extension.toList)
          = "." ++ extension ++ "." ++ extension := by
    intro front
    have twice : ("." ++ extension ++ "." ++ extension).toList
        = ('.' :: extension.toList) ++ '.' :: extension.toList := by simp
    rw [← String.toList_inj, twice, String.toList_ofList, List.append_left_inj]
  simp only [List.append_nil]
  rw [IsRepeated, IsRepeated, ← alone, ← alone, ← again, ← again]

end Path

namespace Workspace

variable {w : Workspace} {found found' here : Path} {name extension : String}

/-! ## Files -/

/-- The path of an entry has the name of the entry. -/
theorem fileName?_spell (here : Path) (h : IsName name) :
    (spell here name).fileName? = some name := by
  obtain ⟨front, hcomponents⟩ : ∃ front, (spell here name).components = front ++ [name] := by
    rw [spell]
    split
    · exact ⟨[], Path.components_of_not_mem h.no_slash⟩
    · exact ⟨here.front, Path.components_join here h.no_slash⟩
  rw [Path.fileName?, hcomponents, List.filter_append]
  simp [h.ne_empty, h.ne_dot, h.ne_dots]

/-- The files that a scan finds are entries of one directory, if the extension has no slash. -/
theorem IsTree.exists_spell (h : w.IsTree) (hextension : '/' ∉ extension.toList)
    (directory : Path) :
    ∃ here, ∀ found ∈ w.filesWithExtension directory extension,
      ∃ name, found = spell here name ∧ IsName name ∧ hasExtension extension name = true := by
  rw [filesWithExtension_eq (Path.components_of_not_mem hextension)]
  cases w.searchDirectory? directory with
  | none => exact ⟨directory, List.forall_mem_nil _⟩
  | some here =>
    refine ⟨here, fun found hfound => ?_⟩
    obtain ⟨name, hname, hdescend⟩ := List.mem_filterMap.1 (List.mem_of_mem_filter hfound)
    obtain ⟨hentry, hending⟩ := List.mem_filter.1 hname
    exact ⟨name, (Option.some.inj hdescend).symm, (h.pairwise_namesAt here).2 name hentry, hending⟩

/-- **Different files that a scan finds have different stems**, unless the extension has no dot and
is all that the name of one of them has, and the other has that name with the extension again. -/
theorem IsTree.fileStem?_eq_iff (h : w.IsTree) (hextension : '/' ∉ extension.toList)
    {directory : Path} (hfound : found ∈ w.filesWithExtension directory extension)
    (hfound' : found' ∈ w.filesWithExtension directory extension) (hne : found ≠ found') :
    found.fileStem? = found'.fileStem?
      ↔ '.' ∉ extension.toList ∧ ∃ name name', found.fileName? = some name
          ∧ found'.fileName? = some name'
          ∧ (Path.IsRepeated extension name name' ∨ Path.IsRepeated extension name' name) := by
  obtain ⟨here, hentries⟩ := h.exists_spell hextension directory
  obtain ⟨name, rfl, hname, hending⟩ := hentries found hfound
  obtain ⟨name', rfl, hname', hending'⟩ := hentries found' hfound'
  have names : name ≠ name' := fun heq => hne (by rw [heq])
  rw [Path.fileStem?_eq, Path.fileStem?_eq, fileName?_spell here hname, fileName?_spell here hname',
    Option.map_some, Option.map_some, Option.some.injEq, Path.stem_eq_iff hending hending' names]
  simp

/-- A scan finds each file once. -/
theorem IsTree.nodup_filesWithExtension (h : w.IsTree) (directory : Path) (extension : String) :
    (w.filesWithExtension directory extension).Nodup := by
  refine (h.pairwise_filesWithExtension directory extension).imp fun {found found'} precedes => ?_
  rintro rfl
  exact absurd precedes (List.lt_irrefl _)

/-- A scan finds a file that has only the extension for its name, and one that has that name and the
extension again. -/
def HasRepeated (w : Workspace) (directory : Path) (extension : String) : Prop :=
  ∃ found ∈ w.filesWithExtension directory extension,
    ∃ found' ∈ w.filesWithExtension directory extension,
    found.fileName? = some ("." ++ extension) ∧ found'.fileName?
      = some ("." ++ extension ++ "." ++ extension)

/-- **The files that a scan finds have different stems**, unless the extension has no dot and there
are two such files. -/
theorem IsTree.nodup_stems_iff (h : w.IsTree) (hextension : '/' ∉ extension.toList)
    (directory : Path) : ((w.filesWithExtension directory extension).map (·.fileStem?)).Nodup
      ↔ ('.' ∉ extension.toList → ¬ w.HasRepeated directory extension) := by
  rw [List.nodup_map_iff_inj_on (h.nodup_filesWithExtension directory extension)]
  constructor
  · rintro distinct hdot ⟨found, hfound, found', hfound', hname, hname'⟩
    have hne : found ≠ found' := by
      rintro rfl
      have same : "." ++ extension = "." ++ extension ++ "." ++ extension :=
        Option.some.inj (hname.symm.trans hname')
      have lengths := congrArg (fun text => text.toList.length) same
      simp only [String.toList_append, List.length_append, show ".".toList.length = 1 from rfl]
        at lengths
      omega
    have stems : found.fileStem? = found'.fileStem? :=
      (h.fileStem?_eq_iff hextension hfound hfound' hne).2 ⟨hdot, _, _, hname, hname',
        .inl ⟨rfl, rfl⟩⟩
    exact hne (distinct found hfound found' hfound' stems)
  · intro apart found hfound found' hfound' stems
    by_contra hne
    obtain ⟨hdot, name, name', hname, hname', repeated⟩ :=
      (h.fileStem?_eq_iff hextension hfound hfound' hne).1 stems
    rcases repeated with ⟨rfl, rfl⟩ | ⟨rfl, rfl⟩
    · exact apart hdot ⟨found, hfound, found', hfound', hname, hname'⟩
    · exact apart hdot ⟨found', hfound', found, hfound, hname', hname⟩

end Workspace

end PlcWorkbench
