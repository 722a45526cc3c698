import PlcWorkbench.Proofs.Import.Report
import PlcWorkbench.Proofs.Project.Atomic

/-!
# What a run depends on

Whether a file carries a definition, and which, is told by its text alone. A run reads nothing else
of a directory than the input project and its candidates, and merges only what these carry, in
order. So two directories with the same input project, where files of the same names and texts carry
a definition and all other candidates are passed over, give the same output, whatever else stands in
them and wherever the others come in between.

* `readDocument_eq_mapError`, `carried?_eq` : reading depends on the text of a file;
* `carried_eq_of_carriers_eq`, `entries_eq_of_carriers_eq` : what is merged and reported depends on
  the carriers;
* `RunsAgree`, `run_agrees` : two runs come to the same.
-/

namespace PlcWorkbench

/-- The failure as it is shown for another file. -/
def Failure.inFile (file : String) : Failure → Failure
  | .xml (some _) cause => .xml (some file) cause
  | cause => cause

/-- A merged entry with the name of its file in the place of the path. -/
def MergedFile.entry (file : MergedFile) : Option String × String × MergeOutcome :=
  (file.path.fileName?, file.name, file.outcome)

variable {w w' : Workspace} {path path' : Path}

/-- What a document is read from is the text of its file, and only a failure shows which file it
was. -/
theorem Workspace.readDocument_eq_mapError (h : w'.readText path' = w.readText path) :
    w'.readDocument path' = (w.readDocument path).mapError (·.inFile path'.text) := by
  rw [readDocument, readDocument, h]
  cases w.readText path with
  | error cause => rfl
  | ok source =>
    cases hparse : Xml.Document.parse source with
    | error cause => simp only [hparse, Except.mapError, Failure.inFile]
    | ok d => simp only [hparse, Except.mapError]

namespace Import

variable {config : MergeConfig} {directory directory' : Path} {paths paths' : List Path}

/-! ## Carriers -/

/-- The definition in what was read from a file, if there is one. -/
def definitionIn? : Except FileError String → Option Artifact
  | .error _ => none
  | .ok source =>
    match Xml.Document.parse source with
    | .error _ => none
    | .ok d => (ArtifactKind.addOnInstruction.load d).artifact?

/-- What a file carries is told by its text. -/
theorem carried?_eq (w : Workspace) (path : Path) :
    carried? w path = definitionIn? (w.readText path) := by
  rw [carried?, Workspace.load, Workspace.readDocument]
  cases w.readText path with
  | error cause => rfl
  | ok source =>
    cases hparse : Xml.Document.parse source <;> simp [definitionIn?, hparse, Except.map]

/-- The files that carry a definition, each with its name and what is read from it. -/
def carriers (w : Workspace) (paths : List Path) : List (Option String × Except FileError String) :=
  (paths.filter fun path => (carried? w path).isSome).map fun path =>
    (path.fileName?, w.readText path)

/-- The definitions, each with the name of its file, are told by the carriers. -/
theorem map_exports (w : Workspace) (paths : List Path) :
    (exports w paths).map (fun pair => (pair.1.fileName?, pair.2))
      = (carriers w paths).filterMap fun carrier =>
        (definitionIn? carrier.2).map (carrier.1, ·) := by
  rw [exports, carriers, List.map_filterMap, List.filterMap_map, List.filterMap_filter]
  refine List.filterMap_congr fun path _ => ?_
  rw [Function.comp_apply, ← carried?_eq]
  cases carried? w path <;> rfl

/-- The entries of a report are told by the definitions and the outcomes. -/
theorem map_entry_mergedFiles (pairs : List (Path × Artifact)) (outcomes : List MergeOutcome) :
    (mergedFiles pairs outcomes).map (·.entry)
      = ((pairs.map fun pair => (pair.1.fileName?, pair.2)).zip outcomes).map
          fun (definition, outcome) => (definition.1, definition.2.identity, outcome) := by
  rw [mergedFiles, List.map_map, List.zip_map_left, List.map_map]
  rfl

section

variable (h : carriers w' paths' = carriers w paths)
include h

/-- The same carriers have the same definitions. -/
theorem carried_eq_of_carriers_eq :
    paths'.filterMap (carried? w') = paths.filterMap (carried? w) := by
  have definitions : ∀ (w : Workspace) (paths : List Path), paths.filterMap (carried? w)
      = ((exports w paths).map fun pair => (pair.1.fileName?, pair.2)).map (·.2) := by
    intro w paths
    rw [← map_snd_exports, List.map_map]
    rfl
  rw [definitions, definitions, map_exports, map_exports, h]

/-- With the same outcomes they are reported in the same way. -/
theorem entries_eq_of_carriers_eq (outcomes : List MergeOutcome) :
    (mergedFiles (exports w' paths') outcomes).map (·.entry)
      = (mergedFiles (exports w paths) outcomes).map (·.entry) := by
  rw [map_entry_mergedFiles, map_entry_mergedFiles, map_exports, map_exports, h]

end

/-! ## Runs -/

/-- A run fails if the input project cannot be read. -/
theorem run_of_read_error {cause : Failure}
    (hread : w.readDocument (directory.join config.inputProject) = .error cause) :
    ((run config directory).run w).result = .error cause := by
  rw [run_eq, hread]

/-- A run fails if a merge fails. -/
theorem run_of_mergeAll_error {input : Xml.Document} {merged : Project} {cause : Failure}
    (hread : w.readDocument (directory.join config.inputProject) = .ok input)
    (hloads : ∀ path ∈ candidates config w directory, ∃ loaded,
      w.load .addOnInstruction path = .ok loaded)
    (hmerges : Project.mergeAll ⟨input⟩ ((candidates config w directory).filterMap (carried? w))
      = (merged, .error cause)) :
    ((run config directory).run w).result = .error cause := by
  have stopped : ((importFiles w {} (candidates config w directory ++ [])).run ⟨input⟩).result
      = .error cause :=
    (run_importFiles_append_of_merge_error hloads hmerges []).2
  rw [List.append_nil] at stopped
  rw [run_eq, hread]
  simp only [importDirectory, stopped]

/-- Two runs come to the same. -/
inductive RunsAgree (config : MergeConfig) (w : Workspace) (directory : Path) (w' : Workspace)
    (directory' : Path) :
    Prop where
  /-- Both fail, and with one failure, except that each may show its own input project. -/
  | fail (cause : Failure)
      (failed : ((run config directory).run w).result
        = .error (cause.inFile (directory.join config.inputProject).text))
      (failed' : ((run config directory').run w').result
        = .error (cause.inFile (directory'.join config.inputProject).text))
  /-- Both succeed, report the same definitions merged from files of the same names with the same
  outcomes, and leave outputs of one text. -/
  | succeed (report report' : ImportReport) (output : String)
      (succeeded : ((run config directory).run w).result = .ok report)
      (succeeded' : ((run config directory').run w').result = .ok report')
      (entries : report'.merged.map (·.entry) = report.merged.map (·.entry))
      (written : ((run config directory).run w).state.readText (directory.join config.outputProject)
        = .ok output)
      (written' : ((run config directory').run w').state.readText
        (directory'.join config.outputProject) = .ok output)

/-- **Irrelevant files do not influence a run.** Two directories have the same input project, the
files that carry a definition have the same names and texts in both, in order, all other candidates
are passed over, and the output can be written. Then a run comes to the same in both. -/
theorem run_agrees
    (hinput : w'.readText (directory'.join config.inputProject)
      = w.readText (directory.join config.inputProject))
    (hcarriers : carriers w' (candidates config w' directory')
      = carriers w (candidates config w directory))
    (hloads : ∀ path ∈ candidates config w directory, ∃ loaded,
      w.load .addOnInstruction path = .ok loaded)
    (hloads' : ∀ path ∈ candidates config w' directory', ∃ loaded,
      w'.load .addOnInstruction path = .ok loaded)
    (houtput : ∀ content, ∃ written, w.writeText (directory.join config.outputProject) content
      = .ok written)
    (houtput' : ∀ content, ∃ written, w'.writeText (directory'.join config.outputProject) content
      = .ok written) :
    RunsAgree config w directory w' directory' := by
  have shown :=
    Workspace.readDocument_eq_mapError (show w.readText (directory.join config.inputProject)
        = _ from rfl)
  have hread' := Workspace.readDocument_eq_mapError hinput
  cases hread : w.readDocument (directory.join config.inputProject) with
  | error cause =>
    rw [hread] at shown hread'
    exact .fail cause (run_of_read_error (hread.trans shown)) (run_of_read_error hread')
  | ok input =>
    rw [hread] at hread'
    rcases hmerges : Project.mergeAll ⟨input⟩
      ((candidates config w directory).filterMap (carried? w))
      with ⟨merged, cause | outcomes⟩
    · -- the failure of a merge shows no file
      obtain ⟨container, rfl⟩ := Project.exists_containerNotFound_of_mergeAll hmerges
      have failed := run_of_mergeAll_error hread hloads hmerges
      rw [← carried_eq_of_carriers_eq hcarriers] at hmerges
      exact .fail (.containerNotFound container) failed
        (run_of_mergeAll_error hread' hloads' hmerges)
    · obtain ⟨report, succeeded, merges, written⟩ := exists_run hread hloads hmerges houtput
      rw [← carried_eq_of_carriers_eq hcarriers] at hmerges
      obtain ⟨report', succeeded', merges', written'⟩ := exists_run hread' hloads' hmerges houtput'
      refine .succeed report report' merged.document.render succeeded succeeded' ?_ written written'
      rw [merges, merges']
      exact entries_eq_of_carriers_eq hcarriers outcomes

/-- The carriers can be told from what comes of loading the candidates. -/
theorem carriers_of_loads {loads : List (Path × LoadOutcome)}
    (hcandidates : candidates config w directory = loads.map (·.1))
    (hloads : ∀ pair ∈ loads, w.load .addOnInstruction pair.1 = .ok pair.2) :
    carriers w (candidates config w directory)
      = (loads.filter fun pair => pair.2.artifact?.isSome).map fun pair =>
        (pair.1.fileName?, w.readText pair.1) := by
  have carried : ∀ pair ∈ loads, (carried? w pair.1).isSome = pair.2.artifact?.isSome := by
    intro pair hpair
    rw [carried?, hloads pair hpair]
  rw [carriers, hcandidates, List.filter_map, List.map_map,
    List.filter_congr (q := fun pair => pair.2.artifact?.isSome) carried]
  rfl

/-- An export of something else. -/
def foreign : Xml.Document :=
  .ofRoot { name := "Export", attributes := [("TargetType", "Routine")] }

/-- A directory with what is in the station, and with exports of something else in between, a note,
a directory with an old export whose own name has the extension, and an output of an earlier run. -/
def annex : Workspace where
  entries :=
    [(["plant"], .directory),
      (["plant", "0.L5X"], .text foreign.render),
      (["plant", "1.L5X"], .text (Project.exporting (Project.definition "A" "new")).render),
      (["plant", "2.L5X"], .text (Project.exporting (Project.definition "C" "new")).render),
      (["plant", "25.L5X"], .text foreign.render),
      (["plant", "3.L5X"], .text (Project.exporting (Project.definition "A" "newest")).render),
      (["plant", "notes.txt"], .text "keep"),
      (["plant", "old.L5X"], .directory),
      (["plant", "old.L5X", "4.L5X"],
        .text (Project.exporting (Project.definition "A" "old")).render),
      (["plant", "out.L5X"], .text Project.scattered.document.render),
      (["plant", "unittest.L5X"], .text Project.scattered.document.render)]
  current := ["plant"]

/-- The candidates of the annex in order, and what comes of loading them. -/
def annexLoads : List (Path × LoadOutcome) :=
  [(⟨"0.L5X"⟩, .skipped (.wrongKind (some "Routine"))),
    (⟨"1.L5X"⟩, .loaded ⟨.addOnInstruction, "A", Project.definition "A" "new"⟩),
    (⟨"2.L5X"⟩, .loaded ⟨.addOnInstruction, "C", Project.definition "C" "new"⟩),
    (⟨"25.L5X"⟩, .skipped (.wrongKind (some "Routine"))),
    (⟨"3.L5X"⟩, .loaded ⟨.addOnInstruction, "A", Project.definition "A" "newest"⟩),
    (⟨"out.L5X"⟩, .skipped (.wrongKind none)),
    (⟨"unittest.L5X"⟩, .skipped (.wrongKind none))]

/-- The candidates are found in order. -/
theorem candidates_annex : candidates {} annex ⟨"."⟩ = annexLoads.map (·.1) := by
  have names : annex.namesIn ["plant"]
      = ["0.L5X", "1.L5X", "2.L5X", "25.L5X", "3.L5X", "notes.txt", "old.L5X", "out.L5X",
          "unittest.L5X"] :=
    List.mergeSort_of_pairwise (by decide)
  rw [candidates, Workspace.filesWithExtension_current rfl (by decide),
    show annex.current = ["plant"] from rfl, names]
  decide +kernel

/-- The candidates are loaded. -/
theorem load_annex : ∀ pair ∈ annexLoads, annex.load .addOnInstruction pair.1 = .ok pair.2 := by
  simp only [annexLoads, List.forall_mem_cons]
  refine ⟨?_, ?_, ?_, ?_, ?_, ?_, ?_, List.forall_mem_nil _⟩
  · exact Workspace.load_of_readText (d := foreign) (by decide) rfl
  · exact Workspace.load_of_readText (d := Project.exporting (Project.definition "A" "new"))
      (by decide) rfl
  · exact Workspace.load_of_readText (d := Project.exporting (Project.definition "C" "new"))
      (by decide) rfl
  · exact Workspace.load_of_readText (d := foreign) (by decide) rfl
  · exact Workspace.load_of_readText (d := Project.exporting (Project.definition "A" "newest"))
      (by decide) rfl
  · exact Workspace.load_of_readText (d := Project.scattered.document) (by decide) rfl
  · exact Workspace.load_of_readText (d := Project.scattered.document) (by decide) rfl

/-- A run in the annex does what one in the station does. -/
theorem run_agrees_annex :
    annex.readText ⟨"./unittest.L5X"⟩ = station.readText ⟨"./unittest.L5X"⟩
      ∧ carriers annex (candidates {} annex ⟨"."⟩) = carriers station (candidates {} station ⟨"."⟩)
      ∧ (candidates {} annex ⟨"."⟩).length = 7 ∧ (candidates {} station ⟨"."⟩).length = 4
      ∧ ∃ report report' : ImportReport, ((run {} ⟨"."⟩).run station).result = .ok report
          ∧ ((run {} ⟨"."⟩).run annex).result = .ok report'
          ∧ report'.merged.map (·.entry) = report.merged.map (·.entry) := by
  have input : annex.readText ⟨"./unittest.L5X"⟩ = station.readText ⟨"./unittest.L5X"⟩ := rfl
  have same :
      carriers annex (candidates {} annex ⟨"."⟩) = carriers station
        (candidates {} station ⟨"."⟩) := by
    rw [carriers_of_loads candidates_annex load_annex,
      carriers_of_loads candidates_station load_station]
    rfl
  have loads : ∀ path ∈ candidates {} annex ⟨"."⟩, ∃ loaded,
      annex.load .addOnInstruction path = .ok loaded :=
    exists_load_of_loads candidates_annex load_annex
  have target : station.target ⟨"./out.L5X"⟩ = .ok ["out.L5X"] := by decide
  have target' : annex.target ⟨"./out.L5X"⟩ = .ok ["plant", "out.L5X"] := by decide
  refine ⟨input, same, ?_, ?_, ?_⟩
  · rw [candidates_annex]
    rfl
  · rw [candidates_station]
    rfl
  · obtain ⟨report, success⟩ := exists_run_station
    cases run_agrees input same loads_station loads (Workspace.exists_writeText target)
      (Workspace.exists_writeText target') with
    | fail cause failed failed' =>
      rw [success] at failed
      cases failed
    | succeed report report' output succeeded succeeded' entries written written' =>
      exact ⟨report, report', succeeded, succeeded', entries⟩

end Import

end PlcWorkbench
