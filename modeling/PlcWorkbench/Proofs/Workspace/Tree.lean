import PlcWorkbench.Proofs.Workspace.Rescan
import Mathlib.Data.List.Nodup

/-!
# Workspaces that are trees

A workspace is a tree of files if every entry has a place of its own, in a directory and under a
name that a file can have. Then a scan finds each file once, in ascending order of its path's
components, and each has a name.

* `IsTree` : the condition, and `entry?_dropLast` : what is around an entry is a directory;
* `IsTree.writeText` : writing keeps the condition;
* `pairwise_filesWithExtension` : the order of a scan;
* `exists_fileStem?` : a file that is found has a name.
-/

namespace PlcWorkbench

/-- Paths are ordered by their components. -/
def Path.Precedes (p q : Path) : Prop := p.components < q.components

namespace Workspace

/-- A name that a file or directory can have. -/
structure IsName (name : String) : Prop where
  ne_empty : name ≠ ""
  ne_dot : name ≠ "."
  ne_dots : name ≠ ".."
  no_slash : '/' ∉ name.toList
  no_nul : '\x00' ∉ name.toList
  short : name.utf8ByteSize ≤ maxNameLength

instance (name : String) : Decidable (IsName name) :=
  decidable_of_iff
    (name ≠ "" ∧ name ≠ "." ∧ name ≠ ".." ∧ '/' ∉ name.toList ∧ '\x00' ∉ name.toList
      ∧ name.utf8ByteSize ≤ maxNameLength)
    ⟨fun ⟨h₁, h₂, h₃, h₄, h₅, h₆⟩ => ⟨h₁, h₂, h₃, h₄, h₅, h₆⟩,
      fun h => ⟨h.ne_empty, h.ne_dot, h.ne_dots, h.no_slash, h.no_nul, h.short⟩⟩

/-- The locations of the entries. -/
def locations (w : Workspace) : List Location := w.entries.map (·.1)

/-- No two entries have the same place, each is in a directory and has a name, and relative paths
start at a directory. -/
structure IsTree (w : Workspace) : Prop where
  distinct : w.locations.Nodup
  nested : ∀ location ∈ w.locations, location ≠ [] ∧ w.entry? location.dropLast = some .directory
  named : ∀ location ∈ w.locations, ∀ name ∈ location, IsName name
  current : w.entry? w.current = some .directory

instance (w : Workspace) : Decidable w.IsTree :=
  decidable_of_iff
    (w.locations.Nodup
      ∧ (∀ location ∈ w.locations, location ≠ [] ∧ w.entry? location.dropLast = some .directory)
      ∧ (∀ location ∈ w.locations, ∀ name ∈ location, IsName name)
      ∧ w.entry? w.current = some .directory)
    ⟨fun ⟨distinct, nested, named, current⟩ => ⟨distinct, nested, named, current⟩,
      fun h => ⟨h.distinct, h.nested, h.named, h.current⟩⟩

variable {w : Workspace} {location : Location} {path here found : Path} {name : String}

/-! ## Names of files -/

/-- Something stands at the root and at the locations of the entries. -/
theorem eq_nil_or_mem_locations {entry : Entry} (h : w.entry? location = some entry) :
    location = [] ∨ location ∈ w.locations := by
  by_cases hroot : location = []
  · exact .inl hroot
  · rw [Workspace.entry?, if_neg hroot] at h
    obtain ⟨pair, hpair, hlocation⟩ := List.lookup_isSome_iff.1 (Option.isSome_of_eq_some h)
    rw [beq_iff_eq.1 hlocation]
    exact .inr (List.mem_map_of_mem hpair)

/-- What is around an entry is a directory. -/
theorem IsTree.entry?_dropLast (h : w.IsTree) {entry : Entry}
    (hentry : w.entry? location = some entry) :
    w.entry? location.dropLast = some .directory := by
  rcases eq_nil_or_mem_locations hentry with rfl | hmem
  · rfl
  · exact (h.nested location hmem).2

/-- Relative and absolute paths start at a directory. -/
theorem IsTree.entry?_start (h : w.IsTree) (path : Path) :
    w.entry? (w.start path) = some .directory := by
  rw [start]
  split
  · rfl
  · exact h.current

/-- The last component of a path to a file names it. -/
theorem IsTree.exists_fileName? (h : w.IsTree) (hfile : (w.find? path).any Entry.isFile = true) :
    ∃ name, path.fileName? = some name := by
  rw [find?] at hfile
  cases hresolve : w.resolve path with
  | error cause =>
    rw [hresolve] at hfile
    cases hfile
  | ok location =>
    obtain ⟨-, hwalk⟩ := resolve_eq_ok_iff.1 hresolve
    simp only [hresolve] at hfile
    -- where a directory stands, no file does
    have no_directory : w.entry? location ≠ some .directory := by
      intro hdirectory
      rw [hdirectory] at hfile
      cases hfile
    rcases List.eq_nil_or_concat' path.components with hnil | ⟨front, last, hcomponents⟩
    · rw [hnil] at hwalk
      obtain rfl : w.start path = location := Except.ok.inj hwalk
      exact absurd (h.entry?_start path) no_directory
    · rw [hcomponents, walk_append_eq_ok_iff] at hwalk
      obtain ⟨between, -, hlast⟩ := hwalk
      obtain ⟨hdirectory, -, hadvance⟩ := walk_cons_eq_ok_iff.1 hlast
      obtain rfl : advance between last = location := Except.ok.inj hadvance
      rw [advance] at no_directory
      split at no_directory
      · exact absurd hdirectory no_directory
      · rename_i hstay
        split at no_directory
        · exact absurd (h.entry?_dropLast hdirectory) no_directory
        · rename_i hback
          rw [not_or] at hstay
          refine ⟨last, ?_⟩
          rw [Path.fileName?, hcomponents, List.filter_append]
          simp [hstay, hback]

/-- A file that a scan finds has a name, and so a stem. -/
theorem IsTree.exists_fileStem? (h : w.IsTree) {directory : Path} {extension : String}
    (hfound : found ∈ w.filesWithExtension directory extension) :
    ∃ stem, found.fileStem? = some stem := by
  obtain ⟨name, hname⟩ := h.exists_fileName? (isFile_of_mem_filesWithExtension hfound)
  exact ⟨_, by rw [Path.fileStem?, hname]; rfl⟩

/-! ## Writing -/

/-- The name of the place that a path leads to is one that a file can have. -/
theorem LeadsTo.isName {parent : Location} (h : w.LeadsTo path parent name) : IsName name := by
  obtain ⟨hne, hdot, hdots⟩ := h.name_ne
  obtain ⟨hslash, hrefuse⟩ := h.refuse_name
  exact ⟨hne, hdot, hdots, hslash, (refuse_eq_ok_iff.1 hrefuse).2, h.short⟩

/-- **Writing a file** keeps a tree. -/
theorem IsTree.writeText {w' : Workspace} {content : String} (h : w.IsTree)
    (hwrite : w.writeText path content = .ok w') : w'.IsTree := by
  obtain ⟨parent, name, hleads, rfl⟩ := writeText_eq_ok_iff.1 hwrite
  have locations : (w.put (parent ++ [name]) (.text content)).locations
      = (parent ++ [name]) :: w.locations.filter (· != parent ++ [name]) := by
    rw [Workspace.locations, Workspace.locations, List.filter_map]
    rfl
  have directories := fun location =>
    @entry?_put_eq_directory_iff w location _ _ hleads.free (text_ne_directory content)
  refine ⟨?_, ?_, ?_, (directories _).2 h.current⟩
  · rw [locations, List.nodup_cons]
    exact ⟨by simp, h.distinct.filter _⟩
  · rw [locations, List.forall_mem_cons, List.dropLast_concat]
    refine ⟨⟨by simp, (directories _).2 hleads.inside⟩, fun location hlocation => ?_⟩
    obtain ⟨hne, hdirectory⟩ := h.nested location (List.mem_of_mem_filter hlocation)
    exact ⟨hne, (directories _).2 hdirectory⟩
  · rw [locations, List.forall_mem_cons]
    refine ⟨fun name' hname' => ?_,
      fun location hlocation => h.named location (List.mem_of_mem_filter hlocation)⟩
    rcases List.mem_append.1 hname' with hparent | hlast
    · rcases eq_nil_or_mem_locations hleads.inside with rfl | hmem
      · cases hparent
      · exact h.named parent hmem name' hparent
    · rw [List.mem_singleton.1 hlast]
      exact hleads.isName

/-! ## The order of a scan -/

/-- The entries of a directory are those whose location is one name further. -/
theorem namesIn_eq (w : Workspace) (location : Location) :
    w.namesIn location
      = (w.locations.filterMap fun place => if place.dropLast = location then place.getLast?
          else none).mergeSort := by
  rw [locations, List.filterMap_map]
  rfl

/-- An entry of a directory has a location. -/
theorem mem_locations_of_mem_namesIn (h : name ∈ w.namesIn location) :
    location ++ [name] ∈ w.locations := by
  rw [namesIn_eq, List.mem_mergeSort, List.mem_filterMap] at h
  obtain ⟨place, hplace, hname⟩ := h
  rw [Option.ite_none_right_eq_some] at hname
  rw [← hname.1, List.dropLast_append_getLast? name hname.2]
  exact hplace

/-- The entries of a directory have different names, which are in ascending order. -/
theorem IsTree.pairwise_namesIn (h : w.IsTree) (location : Location) :
    (w.namesIn location).Pairwise (· < ·) := by
  have distinct : (w.namesIn location).Nodup := by
    rw [namesIn_eq, (List.mergeSort_perm _ _).nodup_iff]
    refine h.distinct.filterMap fun place place' name hplace hplace' => ?_
    rw [Option.mem_def, Option.ite_none_right_eq_some] at hplace hplace'
    rw [← List.dropLast_append_getLast? name hplace.2,
      ← List.dropLast_append_getLast? name hplace'.2, hplace.1, hplace'.1]
  refine ((pairwise_mergeSort_le _).and distinct).imp fun {a b} ⟨hle, hne⟩ => ?_
  rw [← String.not_le]
  exact fun hge => hne (String.le_antisymm hle hge)

/-- The same where a path leads; all are names that a file can have. -/
theorem IsTree.pairwise_namesAt (h : w.IsTree) (here : Path) :
    (w.namesAt here).Pairwise (· < ·) ∧ ∀ name ∈ w.namesAt here, IsName name := by
  rw [namesAt]
  split
  · exact ⟨.nil, List.forall_mem_nil _⟩
  · split
    · rename_i location _ _
      refine ⟨h.pairwise_namesIn location, fun name hname => ?_⟩
      exact h.named _ (mem_locations_of_mem_namesIn hname) name
        (List.mem_append_right _ List.mem_cons_self)
    · exact ⟨.nil, List.forall_mem_nil _⟩

/-- Going on from a path keeps its components, unless it is the current directory. -/
theorem prefix_of_descend? {components names : List String}
    (hnames : ∀ name ∈ names, '/' ∉ name.toList) (hne : components ≠ []) (hdot : components ≠ ["."])
    (hbegins : components <+: here.front)
    (h : w.descend? here names = some found) : components <+: found.components := by
  induction names generalizing here with
  | nil =>
    obtain rfl := Option.some.inj h
    exact hbegins.trans (Path.front_prefix_components here)
  | cons name rest ih =>
    rw [List.forall_mem_cons] at hnames
    have elsewhere : here.text ≠ "." := by
      intro htext
      obtain rfl : here = ⟨"."⟩ := by rw [← htext]
      rcases List.prefix_cons_iff.1 hbegins with hnil | ⟨rest, hcons, hrest⟩
      · exact hne hnil
      · rw [List.prefix_nil.1 hrest] at hcons
        exact hdot hcons
    have spelled : spell here name = here.join name := if_neg elsewhere
    have further := hbegins.trans (Path.front_prefix_front_join here hnames.1)
    rw [← spelled] at further
    rw [descend?] at h
    split at h
    · split at h
      · exact ih hnames.2 further h
      · cases h
    · split at h
      · exact ih hnames.2 further h
      · cases h

/-- What is found from an entry of a directory has the entry's name after the components of the
directory. -/
theorem exists_components_of_descend? (here : Path) :
    ∃ front : List String, ∀ {name : String} {below : List String} {found : Path}, IsName name →
      (∀ name ∈ below, '/' ∉ name.toList) → w.descend? (spell here name) below = some found →
      front ++ [name] <+: found.components := by
  by_cases htext : here.text = "."
  · refine ⟨[], fun {name below found} hname hbelow hfound => ?_⟩
    rw [show spell here name = ⟨name⟩ from if_pos htext] at hfound
    refine prefix_of_descend? hbelow (List.cons_ne_nil name []) ?_ ?_ hfound
    · exact fun heq => hname.ne_dot (List.singleton_inj.1 heq)
    · have joined := Path.front_join ⟨""⟩ hname.no_slash hname.ne_empty
      rw [show (Path.mk "").join name = ⟨name⟩ by simp [Path.join]] at joined
      rw [joined]
      exact List.prefix_rfl
  · refine ⟨here.front, fun {name below found} hname hbelow hfound => ?_⟩
    rw [show spell here name = here.join name from if_neg htext] at hfound
    refine prefix_of_descend? hbelow ?_ ?_ ?_ hfound
    · simp
    · intro heq
      have last := congrArg List.getLast? heq
      rw [List.getLast?_concat] at last
      exact hname.ne_dot (Option.some.inj last)
    · exact ⟨[], by rw [List.append_nil, Path.front_join here hname.no_slash hname.ne_empty]⟩

/-- **A scan finds each file once**, in ascending order. -/
theorem IsTree.pairwise_filesWithExtension (h : w.IsTree) (directory : Path) (extension : String) :
    (w.filesWithExtension directory extension).Pairwise Path.Precedes := by
  cases hextension : (Path.mk extension).components with
  | nil => simp [filesWithExtension, hextension]
  | cons ending below =>
    have hbelow : ∀ name ∈ below, '/' ∉ name.toList := by
      intro name hname
      have hcomponent : name ∈ (Path.mk extension).components := by
        rw [hextension]
        exact List.mem_cons_of_mem _ hname
      exact Path.not_mem_of_mem_components hcomponent
    rw [filesWithExtension_eq hextension]
    cases w.searchDirectory? directory with
    | none => exact .nil
    | some here =>
      obtain ⟨front, hfront⟩ := exists_components_of_descend? (w := w) here
      obtain ⟨ascending, named⟩ := h.pairwise_namesAt here
      refine List.Pairwise.filter _ (List.pairwise_filterMap.2 ?_)
      refine (ascending.imp_of_mem fun {name name'} hname hname' hlt found hfound found' hfound' =>
        ?_).filter _
      obtain ⟨more, hmore⟩ := hfront (named name hname) hbelow hfound
      obtain ⟨more', hmore'⟩ := hfront (named name' hname') hbelow hfound'
      rw [Path.Precedes, ← hmore, ← hmore', List.append_assoc, List.append_assoc]
      exact List.append_left_lt (List.cons_lt_cons_iff.2 (.inl hlt))

end Workspace

end PlcWorkbench
