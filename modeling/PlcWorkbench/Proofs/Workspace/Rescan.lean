import PlcWorkbench.Workspace.Scan
import PlcWorkbench.Proofs.Path
import PlcWorkbench.Proofs.Workspace.ReadBack

/-!
# Scanning again after a file was written

A file that is written where no directory stands changes what is found at its own place and nothing
else: ways over directories stay as they are, and so do the other entries of each directory. A scan
that is repeated finds the same files in the same order, apart from those whose path leads to the
file that was written.

* `find?_put_of_ne` : what other paths lead to stays;
* `descend?_put`, `namesAt_put` : the parts of a scan, up to paths to the file;
* `filesWithExtension_put` : the scan.
-/

namespace PlcWorkbench.Workspace

variable {w : Workspace} {target location : Location} {entry : Entry} {path here : Path}
  {name : String}

/-! ## What paths lead to -/

/-- Something is found where a path leads, if something stands there. -/
theorem find?_of_resolve (h : w.resolve path = .ok location) :
    w.find? path = w.entry? location := by
  rw [find?, h]

/-- Nothing is found on a path that leads nowhere. -/
theorem find?_eq_none (h : ∀ location, w.resolve path ≠ .ok location) : w.find? path = none := by
  rw [find?]
  cases hresolve : w.resolve path with
  | error cause => rfl
  | ok location => exact absurd hresolve (h location)

/-- A text is read if a text file is found. -/
theorem readText_eq_ok_iff {content : String} :
    w.readText path = .ok content ↔ w.find? path = some (.text content) := by
  rw [readText, find?]
  cases w.resolve path with
  | error cause => simp
  | ok location =>
    rcases hentry : w.entry? location with _ | (_ | content' | bytes)
    · simp [hentry]
    · simp [hentry]
    · simp [hentry]
    · simp [hentry]

/-- Whether the path leads to this place. -/
def reaches (w : Workspace) (target : Location) (path : Path) : Bool := w.resolve path = .ok target

/-- A path that reaches a place leads to it. -/
theorem reaches_iff : w.reaches target path = true ↔ w.resolve path = .ok target :=
  decide_eq_true_iff

/-- A path that does not reach it leads elsewhere or nowhere. -/
theorem reaches_eq_false_iff : w.reaches target path = false ↔ w.resolve path ≠ .ok target :=
  decide_eq_false_iff_not

/-- A slash at the end of a path leads nowhere else. -/
theorem walk_front (h : w.resolve here = .ok location) :
    w.walk (w.start here) here.front = .ok location := by
  obtain ⟨hrefuse, hwalk⟩ := resolve_eq_ok_iff.1 h
  have hempty : here.text.isEmpty = false := by
    rw [← Bool.not_eq_true]
    intro hempty
    rw [refuse, if_pos hempty] at hrefuse
    cases hrefuse
  rcases Path.components_eq_front hempty with hfront | hslash
  · rwa [hfront] at hwalk
  · rw [hslash, walk_append_eq_ok_iff] at hwalk
    obtain ⟨between, hbetween, hlast⟩ := hwalk
    -- an empty component stays where it is
    obtain ⟨-, -, hstay⟩ := walk_cons_eq_ok_iff.1 hlast
    obtain rfl : between = location := Except.ok.inj hstay
    exact hbetween

/-- A name in a directory is one step away from the directory. -/
theorem resolve_spell_eq_ok_iff (h : w.resolve here = .ok location) (hname : '/' ∉ name.toList)
    {last : Location} :
    w.resolve (spell here name) = .ok last
      ↔ refuse (spell here name) = .ok () ∧ w.entry? location = some .directory
        ∧ name.utf8ByteSize ≤ maxNameLength ∧ advance location name = last := by
  have step : w.walk location [name] = .ok last
      ↔ w.entry? location = some .directory ∧ name.utf8ByteSize ≤ maxNameLength
          ∧ advance location name = last := by
    rw [walk_cons_eq_ok_iff, walk, Except.ok.injEq]
  rw [← step, resolve_eq_ok_iff]
  refine and_congr_right fun _ => ?_
  rw [spell]
  split
  · rename_i hdot
    -- the current directory is where its only component stays
    obtain ⟨characters⟩ := here
    obtain rfl : characters = "." := hdot
    obtain ⟨-, hwalk⟩ := resolve_eq_ok_iff.1 h
    obtain ⟨-, -, hstay⟩ := walk_cons_eq_ok_iff.1 hwalk
    obtain rfl : w.current = location := Except.ok.inj hstay
    rw [Path.components_of_not_mem hname, start, Path.isAbsolute_eq_false hname,
      if_neg Bool.false_ne_true]
  · rw [Path.components_join here hname, start, Path.isAbsolute_join here hname,
      walk_append_eq_ok_iff]
    have front := walk_front h
    rw [start] at front
    rw [front]
    simp only [Except.ok.injEq, exists_eq_left']

/-! ## Putting a file -/

section Putting

variable (hfree : w.entry? target ≠ some .directory) (hfile : entry ≠ .directory)
include hfree

/-- A way does not go on from a file. -/
theorem descend?_eq_some_of_reaches {names : List String}
    (hnames : ∀ name ∈ names, '/' ∉ name.toList) (h : w.resolve here = .ok target) {found : Path}
    (hfound : w.descend? here names = some found) : found = here := by
  cases names with
  | nil => exact (Option.some.inj hfound).symm
  | cons name rest =>
    rw [descend?] at hfound
    split at hfound
    · rw [find?_of_resolve h, if_neg hfree] at hfound
      cases hfound
    · have nowhere : w.find? (spell here name) = none := by
        apply find?_eq_none
        intro last hlast
        exact hfree ((resolve_spell_eq_ok_iff h (hnames name List.mem_cons_self)).1 hlast).2.1
      rw [nowhere] at hfound
      cases hfound

include hfile

/-- What is found on a path to another place stays. -/
theorem find?_put_of_ne (hne : w.resolve path ≠ .ok target) :
    (w.put target entry).find? path = w.find? path := by
  cases hresolve : w.resolve path with
  | error cause =>
    rw [find?_eq_none, find?_eq_none]
    · intro location h
      rw [hresolve] at h
      cases h
    · intro location h
      rw [resolve_put_eq_ok_iff hfree hfile, hresolve] at h
      cases h
  | ok location =>
    rw [find?_of_resolve hresolve,
      find?_of_resolve ((resolve_put_eq_ok_iff hfree hfile).2 hresolve)]
    apply entry?_put_of_ne
    rintro rfl
    exact hne hresolve

/-- What is found on a path to the file is the file. -/
theorem find?_put_self (h : w.resolve path = .ok target) :
    (w.put target entry).find? path = some entry := by
  rw [find?_of_resolve ((resolve_put_eq_ok_iff hfree hfile).2 h),
    entry?_put_self (ne_nil_of_free hfree)]

/-- A path leads to a directory as before. -/
theorem find?_put_eq_directory_iff :
    (w.put target entry).find? path = some .directory ↔ w.find? path = some .directory := by
  by_cases h : w.resolve path = .ok target
  · rw [find?_put_self hfree hfile h, find?_of_resolve h]
    simp only [Option.some.injEq, hfile, hfree]
  · rw [find?_put_of_ne hfree hfile h]

/-! ## Going on from directory to directory -/

/-- What was found is found still. -/
theorem descend?_put_of_eq_some {names : List String} {found : Path}
    (h : w.descend? here names = some found) :
    (w.put target entry).descend? here names = some found := by
  induction names generalizing here with
  | nil => exact h
  | cons name rest ih =>
    rw [descend?] at h ⊢
    split at h
    · rename_i hdots
      rw [if_pos hdots]
      split at h
      · rename_i hdirectory
        rw [if_pos ((find?_put_eq_directory_iff hfree hfile).2 hdirectory)]
        exact ih h
      · cases h
    · rename_i hdots
      rw [if_neg hdots]
      split at h
      · rename_i hsome
        have still : ((w.put target entry).find? (spell here name)).isSome = true := by
          by_cases hreach : w.resolve (spell here name) = .ok target
          · rw [find?_put_self hfree hfile hreach]
            rfl
          · rw [find?_put_of_ne hfree hfile hreach]
            exact hsome
        rw [if_pos still]
        exact ih h
      · cases h

/-- What is found afterwards was found before, or is the file. -/
theorem descend?_of_put {names : List String} (hnames : ∀ name ∈ names, '/' ∉ name.toList)
    {found : Path} (h : (w.put target entry).descend? here names = some found) :
    w.descend? here names = some found ∨ w.resolve found = .ok target := by
  induction names generalizing here with
  | nil => exact .inl h
  | cons name rest ih =>
    rw [List.forall_mem_cons] at hnames
    rw [descend?] at h ⊢
    split at h
    · rename_i hdots
      rw [if_pos hdots]
      split at h
      · rename_i hdirectory
        rw [if_pos ((find?_put_eq_directory_iff hfree hfile).1 hdirectory)]
        exact ih hnames.2 h
      · cases h
    · rename_i hdots
      rw [if_neg hdots]
      split at h
      · rename_i hsome
        by_cases hreach : w.resolve (spell here name) = .ok target
        · -- the file ends the way
          have stays : Workspace.entry? (w.put target entry) target ≠ some .directory :=
            mt (entry?_put_eq_directory_iff hfree hfile).1 hfree
          have hlast := descend?_eq_some_of_reaches stays hnames.2
            ((resolve_put_eq_ok_iff hfree hfile).2 hreach) h
          rw [hlast]
          exact .inr hreach
        · rw [find?_put_of_ne hfree hfile hreach] at hsome
          rw [if_pos hsome]
          exact ih hnames.2 h
      · cases h

/-- Apart from paths to the file, what is found is the same. -/
theorem descend?_put {names : List String} (hnames : ∀ name ∈ names, '/' ∉ name.toList) :
    ((w.put target entry).descend? here names).filter (!w.reaches target ·)
      = (w.descend? here names).filter (!w.reaches target ·) := by
  cases hafter : (w.put target entry).descend? here names with
  | some found =>
    rcases descend?_of_put hfree hfile hnames hafter with hbefore | hreach
    · rw [hbefore]
    · cases hbefore : w.descend? here names with
      | none => simp [reaches_iff.2 hreach]
      | some found' =>
        rw [descend?_put_of_eq_some hfree hfile hbefore] at hafter
        rw [hafter]
  | none =>
    cases hbefore : w.descend? here names with
    | none => rfl
    | some found' =>
      rw [descend?_put_of_eq_some hfree hfile hbefore] at hafter
      cases hafter

/-- Apart from the file, the same directory is found to be searched. -/
theorem searchDirectory?_put (directory : Path) :
    ((w.put target entry).searchDirectory? directory).filter (!w.reaches target ·)
      = (w.searchDirectory? directory).filter (!w.reaches target ·) := by
  have hnames : ∀ name ∈ directory.components, '/' ∉ name.toList :=
    fun _ => Path.not_mem_of_mem_components
  unfold searchDirectory?
  split
  · rename_i rest hcomponents
    rw [hcomponents, List.forall_mem_cons] at hnames
    exact descend?_put hfree hfile hnames.2
  · exact descend?_put hfree hfile hnames

/-! ## The entries of a directory -/

omit hfree hfile in
/-- Names that were sorted are in ascending order. -/
theorem pairwise_mergeSort_le (names : List String) : names.mergeSort.Pairwise (· ≤ ·) := by
  refine (List.pairwise_mergeSort ?_ ?_ names).imp of_decide_eq_true
  · intro a b c hab hbc
    exact decide_eq_true (String.le_trans (of_decide_eq_true hab) (of_decide_eq_true hbc))
  · intro a b
    rw [Bool.or_eq_true, decide_eq_true_iff, decide_eq_true_iff]
    exact String.le_total a b

omit hfree hfile in
/-- Sorting what is kept, or keeping some of what is sorted. -/
theorem filter_mergeSort (keep : String → Bool) (names : List String) :
    names.mergeSort.filter keep = (names.filter keep).mergeSort := by
  have perm : (names.mergeSort.filter keep).Perm (names.filter keep).mergeSort :=
    ((List.mergeSort_perm names _).filter keep).trans (List.mergeSort_perm _ _).symm
  exact perm.eq_of_pairwise (fun _ _ _ _ => String.le_antisymm)
    ((pairwise_mergeSort_le names).filter keep)
    (pairwise_mergeSort_le _)

omit hfree hfile in
/-- Apart from the file, a directory has the same entries in the same order. -/
theorem namesIn_put :
    ((w.put target entry).namesIn location).filter (fun name => location ++ [name] ≠ target)
      = (w.namesIn location).filter fun name => location ++ [name] ≠ target := by
  rw [namesIn, namesIn, filter_mergeSort, filter_mergeSort, List.filter_filterMap,
    List.filter_filterMap]
  -- what stands at the place of the file is passed over, before and after
  have passed : ((if target.dropLast = location then target.getLast? else none).filter
      fun name => decide (location ++ [name] ≠ target)) = none := by
    split
    · rename_i hparent
      cases hlast : target.getLast? with
      | none => rfl
      | some name =>
        have whole : location ++ [name] = target := by
          rw [← hparent]
          exact List.dropLast_append_getLast? name hlast
        simp [whole]
    · rfl
  rw [put, List.filterMap_cons_none (a := (target, entry)) passed, List.filterMap_filter]
  congr 1
  apply List.filterMap_congr
  rintro ⟨place, other⟩ _
  split
  · rfl
  · rename_i heq
    rw [Bool.not_eq_true, bne_eq_false_iff_eq] at heq
    rw [show place = target from heq]
    exact passed.symm

/-- The same where a path leads. -/
theorem namesAt_put (h : w.resolve here = .ok location) :
    ((w.put target entry).namesAt here).filter (fun name => location ++ [name] ≠ target)
      = (w.namesAt here).filter fun name => location ++ [name] ≠ target := by
  rw [namesAt, namesAt, h, (resolve_put_eq_ok_iff hfree hfile).2 h]
  simp only [entry?_put_eq_directory_iff hfree hfile]
  split
  · exact namesIn_put
  · rfl

omit hfree hfile in
/-- A path that leads to no directory leads to no entries. -/
theorem namesAt_eq_nil (h : w.find? here ≠ some .directory) : w.namesAt here = [] := by
  rw [namesAt]
  split
  · rfl
  · rename_i location hresolve
    rw [find?_of_resolve hresolve] at h
    rw [if_neg h]

end Putting

/-! ## The scan -/

/-- A path is refused for what is in it: nothing or a NUL character. -/
theorem refuse_eq_ok_iff :
    refuse path = .ok () ↔ path.text.toList ≠ [] ∧ '\x00' ∉ path.text.toList := by
  rw [refuse, ne_eq, String.toList_eq_nil_iff, ← String.isEmpty_iff]
  split
  · rename_i hempty
    simp [hempty]
  · rename_i hempty
    split
    · rename_i hnul
      simp [List.contains_iff_mem.1 hnul]
    · rename_i hnul
      rw [List.contains_iff_mem] at hnul
      simp [hempty, hnul]

/-- A path of a name is refused for neither, if the name and the path that it is spelled from are
not. -/
theorem refuse_spell (h : refuse here = .ok ()) (hname : refuse ⟨name⟩ = .ok ()) :
    refuse (spell here name) = .ok () := by
  rw [spell]
  split
  · exact hname
  · rw [Path.join]
    split
    · exact hname
    · rw [refuse_eq_ok_iff] at h hname ⊢
      split
      · simp [h.2, hname.1, hname.2]
      · simp [h.2, hname.2]

variable {parent : Location}

/-- The name of a file's place can be written in a path. -/
theorem LeadsTo.refuse_name (h : w.LeadsTo path parent name) :
    '/' ∉ name.toList ∧ refuse ⟨name⟩ = .ok () := by
  obtain ⟨names, hcomponents, -⟩ := h.way
  have hmem : name ∈ path.components := by
    rw [hcomponents]
    exact List.mem_append_right _ (List.mem_singleton_self name)
  refine ⟨Path.not_mem_of_mem_components hmem, refuse_eq_ok_iff.2 ⟨?_, fun hnul => ?_⟩⟩
  · exact fun hempty => h.name_ne.1 (String.toList_eq_nil_iff.1 hempty)
  · exact (refuse_eq_ok_iff.1 h.accepted).2 (Path.subset_of_mem_components hmem hnul)

/-- The entry of the directory that is the file leads nowhere else. -/
theorem LeadsTo.descend?_spell (h : w.LeadsTo path parent name)
    (hhere : w.resolve here = .ok parent) {names : List String}
    (hnames : ∀ name ∈ names, '/' ∉ name.toList) :
    (w.descend? (spell here name) names).filter (!w.reaches (parent ++ [name]) ·) = none := by
  obtain ⟨hslash, hrefuse⟩ := h.refuse_name
  have reaches : w.resolve (spell here name) = .ok (parent ++ [name]) :=
    (resolve_spell_eq_ok_iff hhere hslash).2
      ⟨refuse_spell (resolve_eq_ok_iff.1 hhere).1 hrefuse, h.inside, h.short, h.step⟩
  cases hfound : w.descend? (spell here name) names with
  | none => rfl
  | some found =>
    rw [descend?_eq_some_of_reaches h.free hnames reaches hfound]
    simp [reaches_iff.2 reaches]

/-- The files below the entries of a directory whose names have an extension. -/
def filesFrom (w : Workspace) (here : Path) (ending : String) (below : List String) : List Path :=
  (((w.namesAt here).filter (hasExtension ending)).filterMap fun name =>
    w.descend? (spell here name) below).filter
    fun path => (w.find? path).any Entry.isFile

/-- A scan looks for files in the directory that it finds. -/
theorem filesWithExtension_eq {extension ending : String} {below : List String}
    (h : (Path.mk extension).components = ending :: below) (directory : Path) :
    w.filesWithExtension directory extension
      = (w.searchDirectory? directory).elim [] fun here => w.filesFrom here ending below := by
  rw [filesWithExtension, h]
  cases w.searchDirectory? directory <;> rfl

/-- There are no files in what is no directory. -/
theorem filesFrom_eq_nil {ending : String} {below : List String}
    (h : w.find? here ≠ some .directory) :
    w.filesFrom here ending below = [] := by
  rw [filesFrom, namesAt_eq_nil h]
  rfl

/-- What a scan finds is a file. -/
theorem isFile_of_mem_filesWithExtension {directory found : Path} {extension : String}
    (h : found ∈ w.filesWithExtension directory extension) :
    (w.find? found).any Entry.isFile = true := by
  rw [filesWithExtension] at h
  split at h
  · exact (List.mem_filter.1 h).2
  · cases h

/-- In the current directory, files with an extension are found by their names. -/
theorem filesWithExtension_current (h : w.entry? w.current = some .directory) {extension : String}
    (hextension : '/' ∉ extension.toList) :
    w.filesWithExtension ⟨"."⟩ extension
      = (((w.namesIn w.current).filter (hasExtension extension)).map Path.mk).filter
          fun path => (w.find? path).any Entry.isFile := by
  have dot : (Path.mk ".").components = ["."] := by decide
  have resolved : w.resolve ⟨"."⟩ = .ok w.current := by
    refine resolve_eq_ok_iff.2 ⟨by decide, ?_⟩
    rw [dot]
    exact walk_cons_eq_ok_iff.2 ⟨h, by decide, rfl⟩
  have here : w.find? ⟨"."⟩ = some .directory := (find?_of_resolve resolved).trans h
  have searched : w.searchDirectory? ⟨"."⟩ = some ⟨"."⟩ := by
    rw [searchDirectory?, dot]
    simp [descend?, here, spell]
  have names : w.namesAt ⟨"."⟩ = w.namesIn w.current := by
    rw [namesAt, resolved]
    exact if_pos h
  rw [filesWithExtension_eq (Path.components_of_not_mem hextension), searched, Option.elim_some,
    filesFrom, names, ← List.filterMap_eq_map]
  rfl

section Scanning

variable (h : w.LeadsTo path parent name) (hfile : entry ≠ .directory)
include h hfile

/-- What is found from the entries of a directory is the same, apart from paths to the file. -/
theorem LeadsTo.found_put (here : Path) {below : List String}
    (hbelow : ∀ name ∈ below, '/' ∉ name.toList) (matched : String → Bool) :
    ((((w.put (parent ++ [name]) entry).namesAt here).filter matched).filterMap fun found =>
        (w.put (parent ++ [name]) entry).descend? (spell here found) below).filter
          (!w.reaches (parent ++ [name]) ·)
      = (((w.namesAt here).filter matched).filterMap fun found =>
        w.descend? (spell here found) below).filter (!w.reaches (parent ++ [name]) ·) := by
  rw [List.filter_filterMap, List.filter_filterMap]
  simp only [descend?_put h.free hfile hbelow]
  by_cases hdirectory : w.find? here = some .directory
  · obtain ⟨location, hresolve⟩ : ∃ location, w.resolve here = .ok location := by
      by_contra hnowhere
      rw [not_exists] at hnowhere
      rw [find?_eq_none hnowhere] at hdirectory
      cases hdirectory
    -- the entry that is the file makes no difference
    have others : ∀ names : List String,
        (names.filter matched).filterMap (fun found =>
            (w.descend? (spell here found) below).filter (!w.reaches (parent ++ [name]) ·))
          = ((names.filter fun found => location ++ [found] ≠ parent ++ [name]).filter
              matched).filterMap
            fun found => (w.descend? (spell here found) below).filter
              (!w.reaches (parent ++ [name]) ·) := by
      intro names
      rw [List.filter_filter, List.filterMap_filter, List.filterMap_filter]
      apply List.filterMap_congr
      intro found _
      by_cases heq : location ++ [found] = parent ++ [name]
      · obtain ⟨rfl, hname⟩ := List.append_inj' heq rfl
        obtain rfl : found = name := List.singleton_inj.1 hname
        rw [h.descend?_spell hresolve hbelow, ite_self, ite_self]
      · simp [heq]
    rw [others, namesAt_put h.free hfile hresolve, ← others]
  · rw [namesAt_eq_nil hdirectory,
      namesAt_eq_nil (mt (find?_put_eq_directory_iff h.free hfile).1 hdirectory)]

/-- The files from a directory are the same, apart from paths to the file. -/
theorem LeadsTo.filesFrom_put {ending : String} {below : List String}
    (hbelow : ∀ name ∈ below, '/' ∉ name.toList) :
    ((w.put (parent ++ [name]) entry).filesFrom here ending below).filter
      (!w.reaches (parent ++ [name]) ·)
      = (w.filesFrom here ending below).filter (!w.reaches (parent ++ [name]) ·) := by
  have found := h.found_put hfile here hbelow (hasExtension ending)
  rw [filesFrom, filesFrom, List.filter_comm, found]
  refine (List.filter_congr fun other hother => ?_).trans (List.filter_comm _ _ _)
  have elsewhere : w.resolve other ≠ .ok (parent ++ [name]) := by
    have hkept := (List.mem_filter.1 hother).2
    rwa [Bool.not_eq_true', reaches_eq_false_iff] at hkept
  rw [find?_put_of_ne h.free hfile elsewhere]

/-- **Scanning again finds the same.** Once a file is written, the files of a directory with an
extension are those that they were, in the same order, apart from paths to that file. -/
theorem LeadsTo.filesWithExtension_put (directory : Path) (extension : String) :
    ((w.put (parent ++ [name]) entry).filesWithExtension directory extension).filter
        (!w.reaches (parent ++ [name]) ·)
      = (w.filesWithExtension directory extension).filter (!w.reaches (parent ++ [name]) ·) := by
  cases hextension : (Path.mk extension).components with
  | nil => simp [filesWithExtension, hextension]
  | cons ending below =>
    have hbelow : ∀ name ∈ below, '/' ∉ name.toList := by
      have all : ∀ name ∈ (Path.mk extension).components, '/' ∉ name.toList :=
        fun _ => Path.not_mem_of_mem_components
      rw [hextension] at all
      exact (List.forall_mem_cons.1 all).2
    rw [filesWithExtension_eq hextension, filesWithExtension_eq hextension]
    -- from the file itself no files are found, before and after
    have skip : ∀ (searched : Option Path) (files : Path → List Path),
        (∀ found, w.resolve found = .ok (parent ++ [name]) → files found = []) →
        searched.elim [] files = (searched.filter (!w.reaches (parent ++ [name]) ·)).elim []
          files := by
      intro searched files hnone
      cases searched with
      | none => rfl
      | some found =>
        rw [Option.filter_some]
        by_cases hreach : w.resolve found = .ok (parent ++ [name])
        · rw [reaches_iff.2 hreach]
          exact hnone found hreach
        · rw [reaches_eq_false_iff.2 hreach]
          rfl
    have before : ∀ found, w.resolve found = .ok (parent ++ [name]) →
        w.find? found ≠ some .directory := by
      intro found hreach
      rw [find?_of_resolve hreach]
      exact h.free
    rw [skip _ _ fun found hreach => filesFrom_eq_nil (before found hreach),
      skip _ _ fun found hreach =>
        filesFrom_eq_nil (mt (find?_put_eq_directory_iff h.free hfile).1 (before found hreach)),
      searchDirectory?_put h.free hfile]
    cases (w.searchDirectory? directory).filter (!w.reaches (parent ++ [name]) ·) with
    | none => rfl
    | some found => exact h.filesFrom_put hfile hbelow

end Scanning

end PlcWorkbench.Workspace
