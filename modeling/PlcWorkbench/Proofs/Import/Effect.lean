import PlcWorkbench.Proofs.Import.Batch
import PlcWorkbench.Proofs.Workspace.Tree

/-!
# The effect of a run on the files

Everything that can go wrong in a run goes wrong before its only write, and a write that fails does
nothing. So a run leaves all files as they are, or it puts one file in its place.

* `writeText_effect` : writing a file changes what stands at its place and nothing else;
* `run_error_state` : a run that fails leaves the files as they are, wherever it fails;
* `run_allOrNothing` : both together, with what is written and what a run needs for it.
-/

namespace PlcWorkbench

namespace Workspace

/-- Two workspaces are the same, apart from what stands at one location: all other locations hold
the same, and every directory lists the same names up to the one of that location. -/
structure SameBut (target : Location) (w w' : Workspace) : Prop where
  current : w'.current = w.current
  entry : ∀ location, location ≠ target → w'.entry? location = w.entry? location
  names : ∀ location, (w'.namesIn location).filter (fun name => location ++ [name] ≠ target)
    = (w.namesIn location).filter fun name => location ++ [name] ≠ target

variable {w w' : Workspace} {path : Path} {content : String}

/-- What is put at a location changes nothing elsewhere. -/
theorem sameBut_put (w : Workspace) (target : Location) (entry : Entry) :
    SameBut target w (w.put target entry) where
  current := rfl
  entry := fun _ hne => entry?_put_of_ne hne
  names := fun _ => namesIn_put

/-- **Writing a file** puts its content where the path leads, where no directory was, and changes
nothing else. -/
theorem writeText_effect (h : w.writeText path content = .ok w') :
    ∃ target, w.resolve path = .ok target ∧ w.entry? target ≠ some .directory
      ∧ w'.entry? target = some (.text content) ∧ SameBut target w w' := by
  obtain ⟨parent, name, hleads, rfl⟩ := writeText_eq_ok_iff.1 h
  exact ⟨parent ++ [name], hleads.resolve_eq, hleads.free,
    entry?_put_self (ne_nil_of_free hleads.free), sameBut_put w _ _⟩

end Workspace

namespace Import

variable {config : MergeConfig} {directory : Path} {w : Workspace}

/-- A run that fails leaves the files as they are, whether it fails to open the input project,
to import a candidate or to write the output. -/
theorem run_error_state {cause : Failure}
    (h : ((run config directory).run w).result = .error cause) :
    ((run config directory).run w).state = w := by
  rw [run_eq] at h ⊢
  cases hread : w.readDocument (directory.join config.inputProject) with
  | error cause => rfl
  | ok input =>
    rw [hread] at h
    rcases himport : (importDirectory config w directory).run ⟨input⟩
      with ⟨merged, log, cause | report⟩
    · simp only [himport]
    · simp only [himport] at h ⊢
      cases hwrite : w.writeText (directory.join config.outputProject) merged.document.render with
      | error cause => rfl
      | ok w' =>
        rw [hwrite] at h
        cases h

/-- The input project of a directory can be opened, all its candidates can be loaded, what they
carry can be merged into it in order, and the outcome can be written. -/
structure Produces (config : MergeConfig) (directory : Path) (w : Workspace) (input : Xml.Document)
    (merged : Project)
    (w' : Workspace) : Prop where
  opened : w.readDocument (directory.join config.inputProject) = .ok input
  loaded : ∀ path ∈ candidates config w directory, ∃ loaded,
    w.load .addOnInstruction path = .ok loaded
  merges : ∃ outcomes,
    Project.mergeAll ⟨input⟩ ((candidates config w directory).filterMap (carried? w))
      = (merged, .ok outcomes)
  written : w.writeText (directory.join config.outputProject) merged.document.render = .ok w'

/-- **All or nothing.** A run that fails leaves every file and directory as it is, and it fails only
if some part of it is impossible. A run that succeeds changes what stands at the output path and
nothing else: there, it puts the text of the input project after every definition that the
candidates carry was merged into it, in ascending order of the files if these are a tree. -/
theorem run_allOrNothing (config : MergeConfig) (directory : Path) (w : Workspace) :
    match (run config directory).run w with
    | ⟨w', _, .error _⟩ =>
      w' = w ∧ ∀ input merged written, ¬ Produces config directory w input merged written
    | ⟨w', _, .ok _⟩ => ∃ (input : Xml.Document) (merged : Project) (target : Location),
        Produces config directory w input merged w'
          ∧ w.resolve (directory.join config.outputProject) = .ok target
          ∧ w.entry? target ≠ some .directory
          ∧ w'.entry? target = some (.text merged.document.render)
          ∧ Workspace.SameBut target w w'
          ∧ (w.IsTree → (candidates config w directory).Pairwise Path.Precedes) := by
  rcases hrun : (run config directory).run w with ⟨w', log, cause | report⟩
  · have failed : ((run config directory).run w).result = .error cause := by rw [hrun]
    have state := run_error_state failed
    rw [hrun] at state
    refine ⟨state, fun input merged written ⟨opened, loaded, ⟨outcomes, merges⟩, hwrite⟩ => ?_⟩
    have succeeds :=
      succeeds_run_iff.2 ⟨input, merged, outcomes, opened, loaded, merges, hwrite, rfl⟩
    rw [(Task.succeeds_iff.1 succeeds).1] at failed
    cases failed
  · obtain ⟨input, merged, outcomes, hread, hloads, hmerges, hwrite, -⟩ :=
      succeeds_run_iff.1 ⟨log, hrun⟩
    obtain ⟨target, hresolve, hfree, hwritten, same⟩ := Workspace.writeText_effect hwrite
    exact ⟨input, merged, target, ⟨hread, hloads, ⟨outcomes, hmerges⟩, hwrite⟩, hresolve, hfree,
      hwritten, same, fun htree => htree.pairwise_filesWithExtension directory config.extension⟩

end Import

end PlcWorkbench
