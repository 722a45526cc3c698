import PlcWorkbench.Proofs.Text.Bytes
import PlcWorkbench.Proofs.Workspace.Stem

/-!
# What a scan finds

A scan goes to the directory by way of paths that are spelled anew, component by component, and
lists the files that are there. The paths on the way lead where the components lead, with one
exception: an empty component is spelled as a path that leads nowhere as long as the way has not
left the current directory. Directories whose path begins with single dots and goes on with an empty
component are lost to a scan; all others are listed exactly.

* `step_of_descend?`, `resolve_of_descend?`, `exists_descend?` : one step of the way, and the way;
* `IsTree.resolve_of_searchDirectory?`, `IsTree.exists_searchDirectory?` : the directory that is
  searched;
* `HasFile`, `Lists` : what is to be found in a directory, and the paths that stand for it;
* `IsTree.filesWithExtension_exact` : a scan.
-/

namespace PlcWorkbench

/-- Nothing but single dots, and then an empty component. -/
def Workspace.IsLost (names : List String) : Prop :=
  ∃ count rest, names = List.replicate count "." ++ "" :: rest

/-- A relative path that has an empty component before any that leads away from the current
directory. -/
def Path.IsLost (path : Path) : Prop := path.isAbsolute = false ∧ Workspace.IsLost path.components

namespace Workspace

variable {w : Workspace} {location last : Location} {here found directory : Path}
  {name extension : String}
  {names rest : List String}

/-! ## Spelled paths -/

/-- A name is in the path that is spelled with it. -/
theorem subset_spell (here : Path) (hname : '/' ∉ name.toList) :
    name.toList ⊆ (spell here name).text.toList := by
  rw [spell]
  split
  · exact List.Subset.refl _
  · have component : name ∈ (here.join name).components := by
      rw [Path.components_join here hname]
      exact List.mem_append_right _ List.mem_cons_self
    exact Path.subset_of_mem_components component

/-- Away from the current directory, a name is spelled behind one slash. -/
theorem spell_eq (hne : here.text ≠ "") (hdot : here.text ≠ ".") (hname : '/' ∉ name.toList) :
    spell here name
      = if here.text.toList.getLast? = some '/' then ⟨here.text ++ name⟩
          else ⟨here.text ++ "/" ++ name⟩ := by
  have hempty : here.text.isEmpty = false := by
    rw [← Bool.not_eq_true, String.isEmpty_iff]
    exact hne
  rw [spell, if_neg hdot, Path.join, Path.isAbsolute_eq_false hname, hempty, if_neg (by decide)]

/-- There, an empty name is spelled as a path too. -/
theorem refuse_spell_empty (h : refuse here = .ok ()) (hdot : here.text ≠ ".") :
    refuse (spell here "") = .ok () := by
  obtain ⟨hne, hnul⟩ := refuse_eq_ok_iff.1 h
  rw [spell_eq (mt String.toList_eq_nil_iff.2 hne) hdot (by decide), refuse_eq_ok_iff]
  split
  · simp [hne, hnul]
  · simp [hnul]

/-- Only a single dot after the current directory is spelled as the current directory. -/
theorem eq_dot_of_spell (hne : here.text ≠ "") (hname : '/' ∉ name.toList)
    (h : (spell here name).text = ".") :
    here.text = "." ∧ name = "." := by
  by_cases hdot : here.text = "."
  · rw [spell, if_pos hdot] at h
    exact ⟨hdot, h⟩
  · have slash : '/' ∈ (spell here name).text.toList := by
      rw [spell_eq hne hdot hname]
      split
      · rename_i hslash
        simp [List.mem_of_getLast? hslash]
      · simp
    rw [h] at slash
    exact absurd slash (by decide)

/-! ## Going on from a directory -/

/-- **A step of the way** leads to where the name leads, from a directory. -/
theorem step_of_descend? (hhere : w.resolve here = .ok location) (hname : '/' ∉ name.toList)
    (h : w.descend? here (name :: rest) = some found) :
    w.entry? location = some .directory ∧ name.utf8ByteSize ≤ maxNameLength ∧ '\x00' ∉ name.toList
      ∧ w.resolve (spell here name) = .ok (advance location name)
      ∧ w.descend? (spell here name) rest = some found := by
  have refused := (resolve_eq_ok_iff.1 hhere).1
  rw [descend?] at h
  split at h
  · rename_i hdots
    have dots :
        refuse ⟨name⟩ = .ok () ∧ name.utf8ByteSize ≤ maxNameLength ∧ '\x00' ∉ name.toList := by
      rcases hdots with rfl | rfl
      · decide
      · decide
    split at h
    · rename_i hdirectory
      rw [find?_of_resolve hhere] at hdirectory
      exact ⟨hdirectory, dots.2.1, dots.2.2,
        (resolve_spell_eq_ok_iff hhere hname).2 ⟨refuse_spell refused dots.1, hdirectory, dots.2.1,
          rfl⟩, h⟩
    · cases h
  · split at h
    · rename_i hsome
      cases hresolve : w.resolve (spell here name) with
      | error cause =>
        rw [find?, hresolve] at hsome
        cases hsome
      | ok next =>
        obtain ⟨hrefuse, hdirectory, hshort, rfl⟩ :=
          (resolve_spell_eq_ok_iff hhere hname).1 hresolve
        refine ⟨hdirectory, hshort, fun hnul => ?_, rfl, h⟩
        exact (refuse_eq_ok_iff.1 hrefuse).2 (subset_spell here hname hnul)
    · cases h

/-- **Where a way was found**, it leads to where the names lead. -/
theorem resolve_of_descend? (hhere : w.resolve here = .ok location)
    (hslash : ∀ name ∈ names, '/' ∉ name.toList) (h : w.descend? here names = some found) :
    (∀ name ∈ names, '\x00' ∉ name.toList) ∧ ∃ last, w.walk location names = .ok last
      ∧ w.resolve found = .ok last := by
  induction names generalizing here location with
  | nil =>
    obtain rfl := Option.some.inj h
    exact ⟨List.forall_mem_nil _, location, rfl, hhere⟩
  | cons name rest ih =>
    rw [List.forall_mem_cons] at hslash
    obtain ⟨hdirectory, hshort, hnul, hnext, hrest⟩ := step_of_descend? hhere hslash.1 h
    obtain ⟨later, last, hwalk, hfound⟩ := ih hnext hslash.2 hrest
    exact ⟨List.forall_mem_cons.2 ⟨hnul, later⟩, last,
      walk_cons_eq_ok_iff.2 ⟨hdirectory, hshort, hwalk⟩, hfound⟩

/-- A way to a directory is one over directories. -/
theorem entry?_of_walk (hwalk : w.walk location names = .ok last)
    (hlast : w.entry? last = some .directory) :
    w.entry? location = some .directory := by
  cases names with
  | nil =>
    obtain rfl : location = last := Except.ok.inj hwalk
    exact hlast
  | cons name rest => exact (walk_cons_eq_ok_iff.1 hwalk).1

/-- **A way to a directory is found**, unless it gets lost in the current directory. -/
theorem exists_descend? (hhere : w.resolve here = .ok location)
    (hslash : ∀ name ∈ names, '/' ∉ name.toList) (hnul : ∀ name ∈ names, '\x00' ∉ name.toList)
    (hwalk : w.walk location names = .ok last)
    (hlast : w.entry? last = some .directory) (hkept : here.text = "." → ¬ IsLost names) :
    ∃ found, w.descend? here names = some found := by
  -- the path that is spelled leads to where the way has come to, and beyond that the way is over
  -- directories
  induction names generalizing here location with
  | nil => exact ⟨here, rfl⟩
  | cons name rest ih =>
    rw [List.forall_mem_cons] at hslash hnul
    obtain ⟨hdirectory, hshort, hrest⟩ := walk_cons_eq_ok_iff.1 hwalk
    have refused := (resolve_eq_ok_iff.1 hhere).1
    have spelled : refuse (spell here name) = .ok () := by
      by_cases hempty : name = ""
      · subst hempty
        exact refuse_spell_empty refused fun htext => hkept htext ⟨0, rest, rfl⟩
      · exact refuse_spell refused (refuse_eq_ok_iff.2 ⟨mt String.toList_eq_nil_iff.1 hempty,
          hnul.1⟩)
    have resolved : w.resolve (spell here name) = .ok (advance location name) :=
      (resolve_spell_eq_ok_iff hhere hslash.1).2 ⟨spelled, hdirectory, hshort, rfl⟩
    have onward : w.find? (spell here name) = some .directory :=
      (find?_of_resolve resolved).trans (entry?_of_walk hrest hlast)
    have kept : (spell here name).text = "." → ¬ IsLost rest := by
      intro htext hlost
      have hne : here.text ≠ "" := mt String.toList_eq_nil_iff.2 (refuse_eq_ok_iff.1 refused).1
      obtain ⟨hdot, rfl⟩ := eq_dot_of_spell hne hslash.1 htext
      obtain ⟨count, more, rfl⟩ := hlost
      exact hkept hdot ⟨count + 1, more, rfl⟩
    obtain ⟨found, hfound⟩ := ih resolved hslash.2 hnul.2 hrest kept
    refine ⟨found, ?_⟩
    rw [descend?]
    split
    · rw [if_pos ((find?_of_resolve hhere).trans hdirectory)]
      exact hfound
    · rw [if_pos (by rw [onward]; rfl)]
      exact hfound

/-- An empty component in the current directory leads nowhere. -/
theorem descend?_of_isLost (h : IsLost names) : w.descend? ⟨"."⟩ names = none := by
  obtain ⟨count, rest, rfl⟩ := h
  induction count with
  | zero =>
    have nowhere : w.find? (spell ⟨"."⟩ "") = none := by
      apply find?_eq_none
      intro location hlocation
      exact (refuse_eq_ok_iff.1 (resolve_eq_ok_iff.1 hlocation).1).1 rfl
    rw [List.replicate_zero, List.nil_append, descend?, if_neg (by decide), nowhere]
    rfl
  | succ count ih =>
    rw [List.replicate_succ, List.cons_append, descend?, if_pos (.inl rfl)]
    split
    · exact ih
    · rfl

/-! ## The directory that is searched -/

/-- The search for a directory: the path that it begins with, the place to which that leads, and the
names to go on with. -/
structure IsSearch (w : Workspace) (directory here : Path) (location : Location)
    (names : List String) : Prop where
  search : w.searchDirectory? directory = w.descend? here names
  begins : w.resolve here = .ok location
  way : ∀ last, w.walk (w.start directory) directory.components = .ok last
    ↔ w.walk location names = .ok last
  components : directory.components = names ∨ directory.components = "" :: names
  relative : here.text = "." → directory.isAbsolute = false ∧ directory.components = names

/-- The search for a relative path begins in the current directory. -/
theorem searchDirectory?_of_relative (h : directory.isAbsolute = false)
    (hdirectory : directory.text ≠ "") :
    w.searchDirectory? directory = w.descend? ⟨"."⟩ directory.components := by
  unfold searchDirectory?
  split
  · rename_i rest hcomponents
    exact absurd hcomponents (Path.components_ne_of_relative h hdirectory rest)
  · rfl

/-- The search begins at the root or in the current directory. -/
theorem IsTree.exists_isSearch (h : w.IsTree) (hdirectory : directory.text ≠ "") :
    ∃ here location names, w.IsSearch directory here location names := by
  cases habsolute : directory.isAbsolute with
  | true =>
    obtain ⟨rest, hcomponents⟩ := Path.exists_components_of_isAbsolute habsolute
    have root : w.resolve ⟨"/"⟩ = .ok [] := by
      refine resolve_eq_ok_iff.2 ⟨by decide, ?_⟩
      rw [show (Path.mk "/").components = ["", ""] by decide]
      exact walk_cons_eq_ok_iff.2 ⟨rfl, by decide, walk_cons_eq_ok_iff.2 ⟨rfl, by decide, rfl⟩⟩
    refine ⟨⟨"/"⟩, [], rest, ?_, root, ?_, .inr hcomponents, fun hdot => absurd hdot (by decide)⟩
    · rw [searchDirectory?, hcomponents]
      rfl
    · intro last
      rw [start, habsolute, if_pos rfl, hcomponents, walk_cons_eq_ok_iff]
      have stays : w.entry? [] = some .directory ∧ "".utf8ByteSize ≤ maxNameLength :=
        ⟨rfl, by decide⟩
      rw [← and_assoc, and_iff_right stays]
      rfl
  | false =>
    have current : w.resolve ⟨"."⟩ = .ok w.current := by
      refine resolve_eq_ok_iff.2 ⟨by decide, ?_⟩
      rw [show (Path.mk ".").components = ["."] by decide]
      exact walk_cons_eq_ok_iff.2 ⟨h.current, by decide, rfl⟩
    refine ⟨⟨"."⟩, w.current, directory.components,
      searchDirectory?_of_relative habsolute hdirectory, current, ?_, .inl rfl,
      fun _ => ⟨habsolute, rfl⟩⟩
    intro last
    rw [start, habsolute, if_neg Bool.false_ne_true]

/-- The names to go on with are components of the directory's path. -/
theorem IsSearch.subset (h : w.IsSearch directory here location names) :
    names ⊆ directory.components := by
  rcases h.components with heq | heq
  · rw [heq]
    exact List.Subset.refl _
  · rw [heq]
    exact List.subset_cons_self _ _

/-- So they hold no slashes. -/
theorem IsSearch.no_slash (h : w.IsSearch directory here location names) :
    ∀ name ∈ names, '/' ∉ name.toList :=
  fun _ hname => Path.not_mem_of_mem_components (h.subset hname)

/-- **The path that is searched** leads to where the path of the directory leads. -/
theorem IsTree.resolve_of_searchDirectory? (h : w.IsTree) (hdirectory : directory.text ≠ "")
    (hfound : w.searchDirectory? directory = some found) :
    ∃ last, w.resolve directory = .ok last ∧ w.resolve found = .ok last := by
  obtain ⟨here, location, names, hsearch⟩ := h.exists_isSearch hdirectory
  rw [hsearch.search] at hfound
  obtain ⟨hnul, last, hwalk, hlast⟩ := resolve_of_descend? hsearch.begins hsearch.no_slash hfound
  refine ⟨last, resolve_eq_ok_iff.2 ⟨?_, (hsearch.way last).2 hwalk⟩, hlast⟩
  refine refuse_eq_ok_iff.2 ⟨mt String.toList_eq_nil_iff.1 hdirectory, fun hmem => ?_⟩
  -- a NUL character would be in a component, and the search stops there
  obtain ⟨name, hname, hinside⟩ := Path.exists_mem_components hmem (by decide)
  rcases hsearch.components with heq | heq
  · rw [heq] at hname
    exact hnul name hname hinside
  · rw [heq] at hname
    rcases List.mem_cons.1 hname with rfl | hlater
    · cases hinside
    · exact hnul name hlater hinside

/-- **A directory is found** by its path, unless the path gets lost. -/
theorem IsTree.exists_searchDirectory? (h : w.IsTree) (hresolve : w.resolve directory = .ok last)
    (hlast : w.entry? last = some .directory) (hkept : ¬ directory.IsLost) :
    ∃ found, w.searchDirectory? directory = some found ∧ w.resolve found = .ok last := by
  obtain ⟨hrefuse, hwalk⟩ := resolve_eq_ok_iff.1 hresolve
  obtain ⟨hne, hnul⟩ := refuse_eq_ok_iff.1 hrefuse
  have hdirectory : directory.text ≠ "" := mt String.toList_eq_nil_iff.2 hne
  obtain ⟨here, location, names, hsearch⟩ := h.exists_isSearch hdirectory
  have no_nul : ∀ name ∈ names, '\x00' ∉ name.toList := fun name hname hinside =>
    hnul (Path.subset_of_mem_components (hsearch.subset hname) hinside)
  have kept : here.text = "." → ¬ IsLost names := by
    intro hdot hlost
    obtain ⟨habsolute, hcomponents⟩ := hsearch.relative hdot
    rw [← hcomponents] at hlost
    exact hkept ⟨habsolute, hlost⟩
  obtain ⟨found, hfound⟩ :=
    exists_descend? hsearch.begins hsearch.no_slash no_nul ((hsearch.way last).1 hwalk) hlast kept
  rw [← hsearch.search] at hfound
  refine ⟨found, hfound, ?_⟩
  obtain ⟨other, hother, hresolved⟩ := h.resolve_of_searchDirectory? hdirectory hfound
  rw [hresolve] at hother
  rw [hresolved, Except.ok.inj hother]

/-- A path that gets lost is not found. -/
theorem searchDirectory?_of_isLost (h : directory.IsLost) (hdirectory : directory.text ≠ "") :
    w.searchDirectory? directory = none := by
  rw [searchDirectory?_of_relative h.1 hdirectory]
  exact descend?_of_isLost h.2

/-! ## The files of a directory -/

/-- A file in the directory, under a name that ends in a dot and the extension. -/
structure HasFile (w : Workspace) (location : Location) (extension name : String) : Prop where
  is_file : (w.entry? (location ++ [name])).any Entry.isFile = true
  ending : ∃ front, name = front ++ "." ++ extension

/-- The paths stand for the files of the directory that have the extension: one for each of them,
which ends in its name and leads to it, in ascending order of the bytes of the names. -/
def Lists (w : Workspace) (location : Location) (extension : String) (found : List Path) : Prop :=
  ∃ names : List String,
    List.Forall₂ (fun path name => path.fileName? = some name
        ∧ w.resolve path = .ok (location ++ [name])) found names
    ∧ names.Pairwise (fun name name' => Text.bytes name < Text.bytes name')
    ∧ ∀ name, name ∈ names ↔ w.HasFile location extension name

/-- Nothing does not stand for a directory with such a file. -/
theorem not_lists_nil (h : w.HasFile location extension name) :
    ¬ w.Lists location extension [] := by
  rintro ⟨names, hpaths, -, hnames⟩
  obtain rfl : names = [] := List.forall₂_nil_left_iff.1 hpaths
  exact List.not_mem_nil ((hnames name).2 h)

/-- A name has an extension if something is in front of a dot and the extension, or nothing. -/
theorem hasExtension_iff :
    hasExtension extension name = true ↔ ∃ front, name = front ++ "." ++ extension := by
  constructor
  · intro h
    obtain ⟨front, rfl⟩ := Path.exists_of_hasExtension h
    refine ⟨String.ofList front, String.toList_inj.1 ?_⟩
    simp
  · rintro ⟨front, rfl⟩
    refine List.isSuffixOf_iff_suffix.2 ⟨front.toList, ?_⟩
    simp

instance (w : Workspace) (location : Location) (extension name : String) :
    Decidable (w.HasFile location extension name) :=
  decidable_of_iff
    ((w.entry? (location ++ [name])).any Entry.isFile = true ∧ hasExtension extension name = true)
    ⟨fun ⟨file, ending⟩ => ⟨file, hasExtension_iff.1 ending⟩,
      fun h => ⟨h.is_file, hasExtension_iff.2 h.ending⟩⟩

/-- The entries of a directory are all that have a location one name further. -/
theorem mem_namesIn_iff : name ∈ w.namesIn location ↔ location ++ [name] ∈ w.locations := by
  constructor
  · exact mem_locations_of_mem_namesIn
  · intro h
    rw [namesIn_eq, List.mem_mergeSort, List.mem_filterMap]
    refine ⟨location ++ [name], h, ?_⟩
    rw [List.dropLast_concat, if_pos rfl, List.getLast?_concat]

/-- A file of a directory is one of its entries. -/
theorem HasFile.mem_namesIn (h : w.HasFile location extension name) :
    name ∈ w.namesIn location := by
  obtain ⟨entry, hentry, -⟩ := (Option.any_eq_true _ _).1 h.is_file
  rcases eq_nil_or_mem_locations hentry with hnil | hmem
  · simp at hnil
  · exact mem_namesIn_iff.2 hmem

/-- The path that is spelled for an entry leads to it. -/
theorem IsName.resolve_spell (h : IsName name) (hhere : w.resolve here = .ok location)
    (hlocation : w.entry? location = some .directory) :
    w.resolve (spell here name) = .ok (location ++ [name]) := by
  have accepted : refuse ⟨name⟩ = .ok () :=
    refuse_eq_ok_iff.2 ⟨mt String.toList_eq_nil_iff.1 h.ne_empty, h.no_nul⟩
  have step : advance location name = location ++ [name] := by
    rw [advance, if_neg (not_or.2 ⟨h.ne_empty, h.ne_dot⟩), if_neg h.ne_dots]
  exact (resolve_spell_eq_ok_iff hhere h.no_slash).2
    ⟨refuse_spell (resolve_eq_ok_iff.1 hhere).1 accepted, hlocation, h.short, step⟩

/-- The names of entries are names that a file can have, so the paths that are spelled for them lead
to them. -/
theorem IsTree.entry_of_mem_namesIn (h : w.IsTree) (hhere : w.resolve here = .ok location)
    (hlocation : w.entry? location = some .directory) (hname : name ∈ w.namesIn location) :
    IsName name ∧ w.resolve (spell here name) = .ok (location ++ [name]) := by
  have named : IsName name :=
    h.named _ (mem_locations_of_mem_namesIn hname) name (List.mem_append_right _ List.mem_cons_self)
  exact ⟨named, named.resolve_spell hhere hlocation⟩

/-- Of the entries of a directory that was found, the files with the extension are spelled. -/
theorem IsTree.filesFrom_eq (h : w.IsTree) (hhere : w.resolve here = .ok location)
    (hlocation : w.entry? location = some .directory) (extension : String) :
    w.filesFrom here extension []
      = ((w.namesIn location).filter fun name => w.HasFile location extension name).map
          (spell here) := by
  have entries : w.namesAt here = w.namesIn location := by
    rw [namesAt, hhere]
    exact if_pos hlocation
  have single : (fun name => w.descend? (spell here name) []) = some ∘ spell here := by
    funext name
    rw [descend?, Function.comp_apply]
  rw [filesFrom, entries, single, List.filterMap_eq_map, List.filter_map, List.filter_filter]
  congr 1
  apply List.filter_congr
  intro name hname
  obtain ⟨-, resolved⟩ := h.entry_of_mem_namesIn hhere hlocation hname
  rw [Function.comp_apply, find?_of_resolve resolved, Bool.eq_iff_iff, Bool.and_eq_true,
    decide_eq_true_iff, hasExtension_iff]
  constructor
  · rintro ⟨hfile, hending⟩
    exact ⟨hfile, hending⟩
  · rintro ⟨hfile, hending⟩
    exact ⟨hfile, hending⟩

/-- **The files of a directory that was found** are listed. -/
theorem IsTree.lists_filesFrom (h : w.IsTree) (hhere : w.resolve here = .ok location)
    (hlocation : w.entry? location = some .directory) (extension : String) :
    w.Lists location extension (w.filesFrom here extension []) := by
  refine ⟨(w.namesIn location).filter fun name => w.HasFile location extension name, ?_, ?_, ?_⟩
  · rw [h.filesFrom_eq hhere hlocation, List.forall₂_map_left_iff, List.forall₂_same]
    intro name hname
    obtain ⟨named, resolved⟩ :=
      h.entry_of_mem_namesIn hhere hlocation (List.mem_of_mem_filter hname)
    exact ⟨fileName?_spell here named, resolved⟩
  · refine ((h.pairwise_namesIn location).filter _).imp fun {name name'} hlt => ?_
    exact Text.bytes_lt_iff.2 hlt
  · intro name
    rw [List.mem_filter, decide_eq_true_iff, and_iff_right_iff_imp]
    exact HasFile.mem_namesIn

/-! ## A scan -/

/-- A scan with an extension without slashes lists the files of the directory that it finds. -/
theorem filesWithExtension_of_no_slash (hextension : '/' ∉ extension.toList) (directory : Path) :
    w.filesWithExtension directory extension
      = (w.searchDirectory? directory).elim [] fun here => w.filesFrom here extension [] :=
  filesWithExtension_eq (Path.components_of_not_mem hextension) directory

/-- A directory whose path gets lost seems to hold no files. -/
theorem filesWithExtension_of_isLost (hextension : '/' ∉ extension.toList)
    (hdirectory : directory.text ≠ "") (h : directory.IsLost) :
    w.filesWithExtension directory extension = [] := by
  rw [filesWithExtension_of_no_slash hextension, searchDirectory?_of_isLost h hdirectory]
  rfl

/-- **A scan lists the files of a directory exactly**, whatever characters its path and the
extension have, if the path does not get lost in the current directory. From a path that does, and
from one that leads to no directory, it finds nothing. -/
theorem IsTree.filesWithExtension_exact (h : w.IsTree) (hextension : '/' ∉ extension.toList)
    (hdirectory : directory.text ≠ "") :
    (∀ location, w.resolve directory = .ok location → w.entry? location = some .directory →
        ¬ directory.IsLost →
        w.Lists location extension (w.filesWithExtension directory extension))
      ∧ (w.find? directory ≠ some .directory → w.filesWithExtension directory extension = [])
      ∧ (directory.IsLost → w.filesWithExtension directory extension = []) := by
  refine ⟨?_, ?_, filesWithExtension_of_isLost hextension hdirectory⟩
  · intro location hresolve hlocation hkept
    obtain ⟨here, hsearch, hhere⟩ := h.exists_searchDirectory? hresolve hlocation hkept
    rw [filesWithExtension_of_no_slash hextension, hsearch]
    exact h.lists_filesFrom hhere hlocation extension
  · intro hnone
    rw [filesWithExtension_of_no_slash hextension]
    cases hsearch : w.searchDirectory? directory with
    | none => rfl
    | some here =>
      obtain ⟨last, hresolve, hhere⟩ := h.resolve_of_searchDirectory? hdirectory hsearch
      have elsewhere : w.find? here ≠ some .directory := by
        rw [find?_of_resolve hhere, ← find?_of_resolve hresolve]
        exact hnone
      exact filesFrom_eq_nil elsewhere

/-- A directory whose name and whose files have characters in them that can stand for others. Among
them are a hidden file, files that such characters would match, and a directory with the
extension. -/
def wild : Workspace where
  entries := [
    (["[plant]*"], .directory),
    (["[plant]*", "b.u?lt"], .text ""),
    (["[plant]*", ".u?lt"], .text ""),
    (["[plant]*", "a.umlt"], .text ""),
    (["[plant]*", "a.U?LT"], .text ""),
    (["[plant]*", "c.u?lt"], .directory),
    (["[plant]*", "c.u?lt", "d.u?lt"], .text "")]

/-- The directory is listed exactly under its name, with a dot in front: of all entries, two are to
be listed. It is not found under a star, which could stand for its name, nor under a path with two
slashes behind the dot. -/
theorem filesWithExtension_exact_wild :
    wild.Lists ["[plant]*"] "u?lt" (wild.filesWithExtension ⟨"./[plant]*"⟩ "u?lt")
      ∧ ["a.U?LT", "a.umlt", "b.u?lt", "c.u?lt", "d.u?lt", ".u?lt"].filter
          (wild.HasFile ["[plant]*"] "u?lt" ·)
        = ["b.u?lt", ".u?lt"]
      ∧ wild.filesWithExtension ⟨"*"⟩ "u?lt" = []
      ∧ wild.filesWithExtension ⟨".//[plant]*"⟩ "u?lt" = [] := by
  have tree : wild.IsTree := by decide
  have literal : '/' ∉ "u?lt".toList := by decide
  have kept : ¬ (Path.mk "./[plant]*").IsLost := by
    rintro ⟨-, count, rest, hcomponents⟩
    have empty : "" ∈ (Path.mk "./[plant]*").components := by
      rw [hcomponents]
      exact List.mem_append_right _ List.mem_cons_self
    exact absurd empty (by decide)
  have lost : (Path.mk ".//[plant]*").IsLost := ⟨by decide, 1, ["[plant]*"], by decide⟩
  refine ⟨?_, by decide, ?_, ?_⟩
  · exact (tree.filesWithExtension_exact literal (by decide)).1 ["[plant]*"]
      (by decide) (by decide) kept
  · exact (tree.filesWithExtension_exact literal (by decide)).2.1 (by decide)
  · exact (tree.filesWithExtension_exact literal (by decide)).2.2 lost

/-- A directory with one pattern file. -/
def valves : Workspace where
  entries := [(["Valve.umlt"], .text "<umlt/>")]

/-- The path of a dot and a slash leads to the directory, but a scan of it misses the file. -/
theorem not_lists_valves :
    valves.IsTree ∧ valves.resolve ⟨"./"⟩ = .ok [] ∧ valves.entry? [] = some .directory
      ∧ valves.HasFile [] "umlt" "Valve.umlt" ∧ valves.filesWithExtension ⟨"./"⟩ "umlt" = []
      ∧ ¬ valves.Lists [] "umlt" (valves.filesWithExtension ⟨"./"⟩ "umlt") := by
  have file : valves.HasFile [] "umlt" "Valve.umlt" := by decide
  have missed : valves.filesWithExtension ⟨"./"⟩ "umlt" = [] :=
    filesWithExtension_of_isLost (by decide) (by decide) ⟨by decide, 1, [], by decide⟩
  refine ⟨by decide, by decide, rfl, file, missed, ?_⟩
  rw [missed]
  exact not_lists_nil file

end Workspace

end PlcWorkbench
