import PlcWorkbench.Proofs.Dictionary
import PlcWorkbench.Workspace
import Mathlib.Data.List.Basic

/-!
# Reading back what was written

`target` finds the place of a file that may not be there yet, `resolve` follows a path to what is
there. Once the file is written the two agree: the directories on the way are not affected, and the
last step leads to the file.

* `resolve_put_eq_ok_iff` : a file that is put where no directory stands changes no way;
* `LeadsTo` : how the place of a file is reached, before it is there and afterwards;
* `writeText_eq_ok_iff`, `readText_writeText` : what is written, and that it is read back.
-/

namespace PlcWorkbench.Workspace

variable {w w' : Workspace} {location target : Location} {entry : Entry}

/-! ## Entries -/

/-- A text file is no directory. -/
theorem text_ne_directory (content : String) : Entry.text content ≠ .directory := nofun

/-- What was put stands where it was put. -/
theorem entry?_put_self (hne : location ≠ []) :
    Workspace.entry? (w.put location entry) location = some entry := by
  unfold entry? put
  rw [if_neg hne]
  exact List.lookup_cons_self

/-- What stands elsewhere stays. -/
theorem entry?_put_of_ne {location' : Location} (hne : location' ≠ location) :
    Workspace.entry? (w.put location entry) location' = w.entry? location' := by
  unfold entry? put
  rw [lookup_cons_filter, if_neg hne]

/-! ## Following paths -/

/-- A step starts from a directory, and its name is not too long. -/
theorem walk_cons_eq_ok_iff {name : String} {rest : List String} {last : Location} :
    w.walk location (name :: rest) = .ok last
      ↔ w.entry? location = some .directory ∧ name.utf8ByteSize ≤ maxNameLength
        ∧ w.walk (advance location name) rest = .ok last := by
  rw [walk]
  split
  · rename_i hnone
    simp [hnone]
  · rename_i hdirectory
    rw [hdirectory, ← Nat.not_lt]
    split
    · rename_i hlong
      simp [hlong]
    · rename_i hshort
      simp [hshort]
  · rename_i other hother hentry
    simp only [hentry, Option.some.injEq, reduceCtorEq, false_iff, not_and]
    exact fun hdirectory => absurd hdirectory hother

/-- One way after another. -/
theorem walk_append_eq_ok_iff {names more : List String} {last : Location} :
    w.walk location (names ++ more) = .ok last
      ↔ ∃ between, w.walk location names = .ok between ∧ w.walk between more = .ok last := by
  induction names generalizing location with
  | nil => simp [walk]
  | cons name rest ih =>
    rw [List.cons_append, walk_cons_eq_ok_iff, ih]
    simp only [walk_cons_eq_ok_iff, and_assoc, exists_and_left]

/-- A path leads to where the way along its components ends. -/
theorem resolve_eq_ok_iff {path : Path} :
    w.resolve path = .ok location ↔ refuse path = .ok ()
      ∧ w.walk (w.start path) path.components = .ok location := by
  rw [resolve]
  cases refuse path with
  | error cause => simp
  | ok u => simp

section Putting

variable (hfree : w.entry? target ≠ some .directory) (hfile : entry ≠ .directory)
include hfree

/-- The root is a directory, so a place where none stands is not the root. -/
theorem ne_nil_of_free : target ≠ [] := by
  rintro rfl
  exact hfree rfl

include hfile

/-- Putting a file where no directory is leaves the directories as they are. -/
theorem entry?_put_eq_directory_iff :
    Workspace.entry? (w.put target entry) location = some .directory
      ↔ w.entry? location = some .directory := by
  by_cases heq : location = target
  · rw [heq, entry?_put_self (ne_nil_of_free hfree)]
    simp only [Option.some.injEq, hfile, hfree]
  · rw [entry?_put_of_ne heq]

/-- So all ways lead where they led before. -/
theorem walk_put_eq_ok_iff {names : List String} {last : Location} :
    (w.put target entry).walk location names = .ok last ↔ w.walk location names = .ok last := by
  induction names generalizing location with
  | nil => rfl
  | cons name rest ih =>
    rw [walk_cons_eq_ok_iff, walk_cons_eq_ok_iff, entry?_put_eq_directory_iff hfree hfile, ih]

/-- So do all paths. -/
theorem resolve_put_eq_ok_iff {path : Path} :
    (w.put target entry).resolve path = .ok location ↔ w.resolve path = .ok location := by
  rw [resolve_eq_ok_iff, resolve_eq_ok_iff, walk_put_eq_ok_iff hfree hfile]
  rfl

end Putting

/-- Names of which none is left out at the end do not end in an empty one. -/
theorem eq_of_length_dropWhile {names : List String} {name : String}
    (hlast : (names.reverse.dropWhile (· == "")).reverse.getLast? = some name)
    (hlength : names.length ≤ (names.reverse.dropWhile (· == "")).reverse.length) :
    (names.reverse.dropWhile (· == "")).reverse = names ∧ name ≠ "" := by
  have front := List.head?_dropWhile_not (· == "") names.reverse
  rw [List.getLast?_reverse] at hlast
  rw [hlast] at front
  have longer : names.reverse.length ≤ (names.reverse.dropWhile (· == "")).length := by
    simpa only [List.length_reverse] using hlength
  have whole := (List.dropWhile_suffix (· == "")).eq_of_length_le longer
  exact ⟨by rw [whole, List.reverse_reverse], beq_eq_false_iff_ne.1 front⟩

/-- How the place of a file is reached: over directories to the one that it is in, and one step
further by its name, where no directory stands. -/
structure LeadsTo (w : Workspace) (path : Path) (parent : Location) (name : String) : Prop where
  accepted : refuse path = .ok ()
  way : ∃ names, path.components = names ++ [name] ∧ w.walk (w.start path) names = .ok parent
  inside : w.entry? parent = some .directory
  step : advance parent name = parent ++ [name]
  short : name.utf8ByteSize ≤ maxNameLength
  free : w.entry? (parent ++ [name]) ≠ some .directory

/-- How the place is reached shows in how it was found. -/
theorem leadsTo_of_target {path : Path} (h : w.target path = .ok target) :
    ∃ parent name, target = parent ++ [name] ∧ w.LeadsTo path parent name := by
  unfold Workspace.target at h
  split at h
  · cases h
  rename_i hrefuse
  dsimp only at h
  split at h
  · cases h
  rename_i name hlast
  split at h
  · cases h
  rename_i parent hwalk
  split at h
  · cases h
  · rename_i hdirectory
    split at h
    · cases h
    rename_i hname
    split at h
    · cases h
    rename_i hshort
    split at h
    · cases h
    rename_i hfile
    cases h
    rw [not_or, not_or] at hname
    obtain ⟨hdot, hdots, hlength⟩ := hname
    -- no slash follows the name, so the names on the way are all components but the last
    obtain ⟨hall, hne⟩ := eq_of_length_dropWhile hlast (Nat.not_lt.1 hlength)
    rw [hall] at hlast hwalk
    have components := (List.dropLast_append_getLast? name hlast).symm
    have step : advance parent name = parent ++ [name] := by
      rw [advance, if_neg (not_or.2 ⟨hne, hdot⟩), if_neg hdots]
    refine ⟨parent, name, rfl, ?_⟩
    exact ⟨hrefuse, ⟨_, components, hwalk⟩, hdirectory, step, Nat.not_lt.1 hshort, hfile⟩
  · cases h

/-- A path leads to the place of its file. -/
theorem LeadsTo.resolve_eq {path : Path} {parent : Location} {name : String}
    (h : w.LeadsTo path parent name) :
    w.resolve path = .ok (parent ++ [name]) := by
  obtain ⟨names, hcomponents, hwalk⟩ := h.way
  rw [resolve_eq_ok_iff, hcomponents, walk_append_eq_ok_iff]
  refine ⟨h.accepted, parent, hwalk, walk_cons_eq_ok_iff.2 ⟨h.inside, h.short, ?_⟩⟩
  rw [h.step]
  rfl

/-- The name of a place is none that stays in the directory or goes back. -/
theorem LeadsTo.name_ne {path : Path} {parent : Location} {name : String}
    (h : w.LeadsTo path parent name) :
    name ≠ "" ∧ name ≠ "." ∧ name ≠ ".." := by
  have grows : advance parent name ≠ parent := by
    rw [h.step]
    simp
  refine ⟨?_, ?_, ?_⟩
  · rintro rfl
    exact grows rfl
  · rintro rfl
    exact grows rfl
  · rintro rfl
    exact absurd (congrArg List.length h.step) (by simp [advance])

/-- A file is written to the place that its path leads to. -/
theorem LeadsTo.target_eq {path : Path} {parent : Location} {name : String}
    (h : w.LeadsTo path parent name) :
    w.target path = .ok (parent ++ [name]) := by
  obtain ⟨names, hcomponents, hwalk⟩ := h.way
  obtain ⟨hne, hdot, hdots⟩ := h.name_ne
  have trimmed : (path.components.reverse.dropWhile (· == "")).reverse = names ++ [name] := by
    rw [hcomponents, List.reverse_append, List.reverse_singleton, List.singleton_append,
      List.dropWhile_cons_of_neg (by simpa using hne), List.reverse_cons, List.reverse_reverse]
  unfold Workspace.target
  rw [h.accepted]
  simp only [trimmed, List.getLast?_concat, List.dropLast_concat, hwalk, h.inside]
  rw [if_neg (by simp [hdot, hdots, hcomponents]), if_neg (Nat.not_lt.2 h.short), if_neg h.free]

/-- Once a file is there, its path leads there still. -/
theorem LeadsTo.put {path : Path} {parent : Location} {name : String}
    (h : w.LeadsTo path parent name) (hfile : entry ≠ .directory) :
    (w.put (parent ++ [name]) entry).LeadsTo path parent name := by
  obtain ⟨names, hcomponents, hwalk⟩ := h.way
  exact ⟨h.accepted, ⟨names, hcomponents, (walk_put_eq_ok_iff h.free hfile).2 hwalk⟩,
    (entry?_put_eq_directory_iff h.free hfile).2 h.inside, h.step, h.short,
    mt (entry?_put_eq_directory_iff h.free hfile).1 h.free⟩

/-- Putting the same twice is putting it once. -/
theorem put_put : (w.put target entry).put target entry = w.put target entry := by
  simp [Workspace.put]

/-- Any text can be written where a path has a place. -/
theorem exists_writeText {path : Path} {location : Location} (h : w.target path = .ok location)
    (content : String) :
    ∃ written, w.writeText path content = .ok written := by
  rw [writeText, h]
  exact ⟨_, rfl⟩

/-- A file that is written is put in the place that its path leads to. -/
theorem writeText_eq_ok_iff {path : Path} {content : String} :
    w.writeText path content = .ok w'
      ↔ ∃ parent name, w.LeadsTo path parent name
          ∧ w' = w.put (parent ++ [name]) (.text content) := by
  rw [writeText]
  constructor
  · intro h
    split at h
    · cases h
    · rename_i target htarget
      cases h
      obtain ⟨parent, name, rfl, hleads⟩ := leadsTo_of_target htarget
      exact ⟨parent, name, hleads, rfl⟩
  · rintro ⟨parent, name, hleads, rfl⟩
    rw [hleads.target_eq]

/-- Writing a file again changes nothing. -/
theorem writeText_writeText {path : Path} {content : String}
    (h : w.writeText path content = .ok w') :
    w'.writeText path content = .ok w' := by
  obtain ⟨parent, name, hleads, rfl⟩ := writeText_eq_ok_iff.1 h
  exact writeText_eq_ok_iff.2 ⟨parent, name, hleads.put (text_ne_directory content), put_put.symm⟩

/-- **What was written is read back**, under the same path. -/
theorem readText_writeText {path : Path} {content : String}
    (h : w.writeText path content = .ok w') :
    w'.readText path = .ok content := by
  obtain ⟨parent, name, hleads, rfl⟩ := writeText_eq_ok_iff.1 h
  have resolved :=
    (resolve_put_eq_ok_iff hleads.free (text_ne_directory content)).2 hleads.resolve_eq
  rw [readText, resolved]
  simp only [entry?_put_self (List.append_ne_nil_of_right_ne_nil parent (List.cons_ne_nil name []))]

end PlcWorkbench.Workspace
