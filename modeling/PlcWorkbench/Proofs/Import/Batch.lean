import PlcWorkbench.Import
import PlcWorkbench.Proofs.Project.Batch
import PlcWorkbench.Proofs.Success
import PlcWorkbench.Proofs.Workspace.ReadBack

/-!
# An import as a batch of merges

What a successful import did to the project and to the files. The files that carry a definition are
merged in order, and the others leave the project as it is, so an import is a batch of merges
(`succeeds_importFiles_iff`). A run that succeeds imports into the project that it opened and writes
the outcome (`succeeds_run_iff`).
-/

namespace PlcWorkbench

/-- The artifact that was loaded, if one was. -/
def LoadOutcome.artifact? : LoadOutcome → Option Artifact
  | .loaded a => some a
  | .skipped _ => none

namespace Import

/-! ## Importing files -/

/-- The definition that a file carries, if it carries one. -/
def carried? (w : Workspace) (path : Path) : Option Artifact :=
  match w.load .addOnInstruction path with
  | .ok loaded => loaded.artifact?
  | .error _ => none

/-- A file carries what is loaded from it. -/
theorem carried?_eq_some_iff {w : Workspace} {path : Path} {a : Artifact} :
    carried? w path = some a ↔ w.load .addOnInstruction path = .ok (.loaded a) := by
  rw [carried?]
  rcases w.load .addOnInstruction path with cause | (a' | reason)
  · simp
  · simp [LoadOutcome.artifact?]
  · simp [LoadOutcome.artifact?]

variable {w w' : Workspace} {report report' : ImportReport} {path : Path} {p : Project}

/-- What holds of the definitions that files carry holds of those that are loaded from them. -/
theorem forall_carried_iff {paths : List Path} {P : Artifact → Prop} :
    (∀ a ∈ paths.filterMap (carried? w), P a)
      ↔ ∀ path ∈ paths, ∀ a, w.load .addOnInstruction path = .ok (.loaded a) → P a := by
  simp only [List.mem_filterMap, carried?_eq_some_iff]
  constructor
  · intro h path hpath a hload
    exact h a ⟨path, hpath, hload⟩
  · rintro h a ⟨path, hpath, hload⟩
    exact h path hpath a hload

/-- What a file carries was loaded from a document. -/
theorem exists_load_of_carried? {a : Artifact} (h : carried? w path = some a) :
    ∃ d, ArtifactKind.addOnInstruction.load d = .loaded a := by
  obtain ⟨d, -, hd⟩ := map_eq_ok_iff.1 (carried?_eq_some_iff.1 h)
  exact ⟨d, hd⟩

/-- The definitions that files carry are of one kind. -/
theorem kind_of_carried {paths : List Path} :
    ∀ a ∈ paths.filterMap (carried? w), a.kind = .addOnInstruction := by
  intro a ha
  obtain ⟨path, -, hcarried⟩ := List.mem_filterMap.1 ha
  obtain ⟨d, hd⟩ := exists_load_of_carried? hcarried
  exact (Artifact.isOf_of_load hd).kind_eq

/-- What files carry fits if it is simple. -/
theorem fits_of_carried {paths : List Path}
    (h : ∀ a ∈ paths.filterMap (carried? w), ArtifactKind.addOnInstruction.IsSimple a.payload) :
    ∀ a ∈ paths.filterMap (carried? w), a.Fits .addOnInstruction := by
  intro a ha
  obtain ⟨path, -, hcarried⟩ := List.mem_filterMap.1 ha
  obtain ⟨d, hd⟩ := exists_load_of_carried? hcarried
  exact Artifact.fits_of_load hd (h a ha)

/-- The log entry for a definition that was merged. -/
def mergedEntry (path : Path) (identity : String) (outcome : MergeOutcome) : LogEntry where
  level := .info
  message := "Merged AOI '" ++ identity ++ "' (" ++ outcome.title ++ ")"
  file := some path.text

/-- The log entry for a file that was passed over. -/
def skippedEntry (path : Path) (reason : SkipReason) : LogEntry where
  level := .warn
  message := "Skipping '" ++ path.text ++ "': " ++ reason.message

/-- What importing one file does: its definition is merged and reported, or the file is skipped and
reported. -/
theorem run_importFile (w : Workspace) (report : ImportReport) (path : Path) (p : Project) :
    (importFile w report path).run p =
      match w.load .addOnInstruction path with
      | .error cause => ⟨p, [], .error cause⟩
      | .ok (.skipped reason) =>
        ⟨p, [skippedEntry path reason], .ok (report.addSkipped ⟨path, reason⟩)⟩
      | .ok (.loaded a) =>
        match p.merge a with
        | (p, .error cause) => ⟨p, [], .error cause⟩
        | (p, .ok outcome) =>
          ⟨p, [mergedEntry path a.identity outcome],
            .ok (report.addMerged ⟨path, a.identity, outcome⟩)⟩ := by
  rw [importFile]
  rcases hload : w.load .addOnInstruction path with cause | (a | reason)
  · simp
  · rcases hmerge : p.merge a with ⟨merged, cause | outcome⟩
    · simp [hmerge]
    · simp [hmerge, mergedEntry]
  · simp [skippedEntry]

/-- A file is imported if it is passed over, or if the definition that it carries is merged. -/
theorem succeeds_importFile_iff {q : Project} :
    (importFile w report path).Succeeds p report' q
      ↔ (∃ reason, w.load .addOnInstruction path = .ok (.skipped reason)
          ∧ q = p ∧ report' = report.addSkipped ⟨path, reason⟩)
        ∨ ∃ a outcome, w.load .addOnInstruction path = .ok (.loaded a)
          ∧ p.merge a = (q, .ok outcome)
          ∧ report' = report.addMerged ⟨path, a.identity, outcome⟩ := by
  rw [Task.succeeds_iff, run_importFile]
  rcases w.load .addOnInstruction path with cause | (a | reason)
  · simp
  · rcases hmerge : p.merge a with ⟨merged, cause | outcome⟩
    · simp [hmerge]
    · simp [hmerge, eq_comm, and_comm]
  · simp [eq_comm, and_comm]

/-- The files that carry a definition, with their definitions. -/
def exports (w : Workspace) (paths : List Path) : List (Path × Artifact) :=
  paths.filterMap fun path => (carried? w path).map (path, ·)

/-- What is reported of a file that is passed over. -/
def passedOver? (w : Workspace) (path : Path) : Option SkippedFile :=
  match w.load .addOnInstruction path with
  | .ok (.skipped reason) => some ⟨path, reason⟩
  | _ => none

/-- What is reported of merges with these outcomes. -/
def mergedFiles (pairs : List (Path × Artifact)) (outcomes : List MergeOutcome) : List MergedFile :=
  (pairs.zip outcomes).map fun (pair, outcome) => ⟨pair.1, pair.2.identity, outcome⟩

/-- The definitions that the files carry. -/
theorem map_snd_exports (w : Workspace) (paths : List Path) :
    (exports w paths).map (·.2) = paths.filterMap (carried? w) := by
  rw [exports, List.map_filterMap]
  apply List.filterMap_congr
  intro path _
  cases carried? w path <;> rfl

/-- A file that carries a definition is not passed over. -/
theorem of_loaded {a : Artifact} (h : w.load .addOnInstruction path = .ok (.loaded a)) :
    carried? w path = some a ∧ passedOver? w path = none := by
  rw [carried?, passedOver?, h]
  exact ⟨rfl, rfl⟩

/-- A file that is passed over carries no definition. -/
theorem of_skipped {reason : SkipReason}
    (h : w.load .addOnInstruction path = .ok (.skipped reason)) :
    carried? w path = none ∧ passedOver? w path = some ⟨path, reason⟩ := by
  rw [carried?, passedOver?, h]
  exact ⟨rfl, rfl⟩

/-- The report with the files that are merged with these outcomes, and with those that are passed
over. -/
def reportFiles (w : Workspace) (paths : List Path) (outcomes : List MergeOutcome)
    (report : ImportReport) :
    ImportReport :=
  { report with
    merged := report.merged ++ mergedFiles (exports w paths) outcomes
    skipped := report.skipped ++ paths.filterMap (passedOver? w) }

/-- **An import is a batch of merges** of the definitions that the files carry. It succeeds if every
file can be read and every merge succeeds, and it reports each file as merged or as passed over. -/
theorem succeeds_importFiles_iff {paths : List Path} {q : Project} :
    (importFiles w report paths).Succeeds p report' q
      ↔ (∀ path ∈ paths, ∃ loaded, w.load .addOnInstruction path = .ok loaded)
        ∧ ∃ outcomes, p.mergeAll (paths.filterMap (carried? w)) = (q, .ok outcomes)
          ∧ report' = reportFiles w paths outcomes report := by
  induction paths generalizing report p with
  | nil =>
    rw [importFiles, Task.succeeds_pure_iff]
    constructor
    · rintro ⟨rfl, rfl⟩
      exact ⟨List.forall_mem_nil _, [], rfl, by simp [reportFiles, exports, mergedFiles]⟩
    · rintro ⟨-, outcomes, hmerges, rfl⟩
      cases hmerges
      exact ⟨by simp [reportFiles, exports, mergedFiles], rfl⟩
  | cons path rest ih =>
    rw [importFiles, Task.succeeds_bind_iff, List.forall_mem_cons]
    constructor
    · rintro ⟨between, next, hfile, hrest⟩
      obtain ⟨hloads, others, hmerges, rfl⟩ := ih.1 hrest
      rcases succeeds_importFile_iff.1 hfile with ⟨reason, hload, rfl, rfl⟩
        | ⟨a, outcome, hload, hmerge, rfl⟩
      · obtain ⟨carried, passed⟩ := of_skipped hload
        refine ⟨⟨⟨_, hload⟩, hloads⟩, others, ?_, ?_⟩
        · rwa [List.filterMap_cons_none carried]
        · simp [reportFiles, exports, carried, passed, ImportReport.addSkipped]
      · obtain ⟨carried, passed⟩ := of_loaded hload
        refine ⟨⟨⟨_, hload⟩, hloads⟩, outcome :: others, ?_, ?_⟩
        · rw [List.filterMap_cons_some carried]
          exact Project.mergeAll_cons_eq_ok_iff.2 ⟨next, outcome, others, hmerge, hmerges, rfl⟩
        · simp [reportFiles, exports, mergedFiles, carried, passed, ImportReport.addMerged]
    · rintro ⟨⟨⟨loaded, hload⟩, hloads⟩, outcomes, hmerges, rfl⟩
      cases loaded with
      | skipped reason =>
        obtain ⟨carried, passed⟩ := of_skipped hload
        rw [List.filterMap_cons_none carried] at hmerges
        refine ⟨_, p, succeeds_importFile_iff.2 (.inl ⟨reason, hload, rfl, rfl⟩),
          ih.2 ⟨hloads, outcomes, hmerges, ?_⟩⟩
        simp [reportFiles, exports, carried, passed, ImportReport.addSkipped]
      | loaded a =>
        obtain ⟨carried, passed⟩ := of_loaded hload
        rw [List.filterMap_cons_some carried] at hmerges
        obtain ⟨next, outcome, others, hmerge, hothers, rfl⟩ :=
          Project.mergeAll_cons_eq_ok_iff.1 hmerges
        refine ⟨_, next, succeeds_importFile_iff.2 (.inr ⟨a, outcome, hload, hmerge, rfl⟩),
          ih.2 ⟨hloads, others, hothers, ?_⟩⟩
        simp [reportFiles, exports, mergedFiles, carried, passed, ImportReport.addMerged]

/-! ## Whole runs -/

variable {config : MergeConfig} {directory : Path}

/-- The log entry that a run starts with. -/
def openingEntry (config : MergeConfig) (directory : Path) : LogEntry where
  level := .info
  message := "Opening project '" ++ (directory.join config.inputProject).text ++ "'"

/-- The log entry that a run ends with. -/
def writtenEntry (config : MergeConfig) (directory : Path) (report : ImportReport) : LogEntry where
  level := .info
  message :=
    "Wrote '" ++ (directory.join config.outputProject).text ++ "' ("
      ++ toString report.merged.length
    ++ " merged, " ++ toString report.skipped.length ++ " skipped)"

/-- What a run does: it opens a project, imports and writes, and the files stay as they are unless
all of it succeeds. -/
theorem run_eq (config : MergeConfig) (directory : Path) (w : Workspace) :
    (run config directory).run w =
      match w.readDocument (directory.join config.inputProject) with
      | .error cause => ⟨w, [openingEntry config directory], .error cause⟩
      | .ok input =>
        let imported := (importDirectory config w directory).run ⟨input⟩
        let log := openingEntry config directory :: imported.log
        match imported.result with
        | .error cause => ⟨w, log, .error cause⟩
        | .ok report =>
          match w.writeText (directory.join config.outputProject)
            imported.state.document.render with
          | .error cause => ⟨w, log, .error (.file cause)⟩
          | .ok w' => ⟨w', log ++ [writtenEntry config directory report],
              .ok { report with output := some (directory.join config.outputProject) }⟩ := by
  rw [run]
  cases hread : w.readDocument (directory.join config.inputProject) with
  | error cause => simp [Project.read, hread, Except.map, openingEntry]
  | ok input =>
    rcases himport : (importDirectory config w directory).run ⟨input⟩
      with ⟨merged, log, cause | report⟩
    · simp [Project.read, hread, Except.map, run.importInto, himport, openingEntry]
    · cases hwrite : w.writeText (directory.join config.outputProject) merged.document.render with
      | error cause =>
        simp [Project.read, hread, Except.map, run.importInto, himport, Project.save, hwrite,
          openingEntry]
      | ok w' =>
        simp [Project.read, hread, Except.map, run.importInto, himport, Project.save, hwrite,
          openingEntry, writtenEntry]

/-- **A run succeeds** if the input project and all candidates can be read, every merge succeeds,
and the output can be written; it then leaves the files with the output and reports what it did. -/
theorem succeeds_run_iff :
    (run config directory).Succeeds w report w'
      ↔ ∃ (input : Xml.Document) (merged : Project) (outcomes : List MergeOutcome),
        w.readDocument (directory.join config.inputProject) = .ok input
          ∧ (∀ path ∈ candidates config w directory, ∃ loaded,
              w.load .addOnInstruction path = .ok loaded)
          ∧ Project.mergeAll ⟨input⟩ ((candidates config w directory).filterMap (carried? w))
              = (merged, .ok outcomes)
          ∧ w.writeText (directory.join config.outputProject) merged.document.render = .ok w'
          ∧ report = reportFiles w (candidates config w directory) outcomes
              { output := some (directory.join config.outputProject) } := by
  rw [Task.succeeds_iff, run_eq]
  constructor
  · rintro ⟨hresult, hstate⟩
    cases hread : w.readDocument (directory.join config.inputProject) with
    | error cause =>
      rw [hread] at hresult
      cases hresult
    | ok input =>
      rcases himport : (importDirectory config w directory).run ⟨input⟩
        with ⟨merged, log, cause | imported⟩
      · simp only [hread, himport] at hresult
        cases hresult
      · obtain ⟨hloads, outcomes, hmerges, rfl⟩ := succeeds_importFiles_iff.1 ⟨log, himport⟩
        simp only [hread, himport] at hresult hstate
        cases hwrite : w.writeText (directory.join config.outputProject) merged.document.render with
        | error cause =>
          rw [hwrite] at hresult
          cases hresult
        | ok written =>
          rw [hwrite] at hresult hstate
          cases hresult
          cases hstate
          exact ⟨input, merged, outcomes, rfl, hloads, hmerges, hwrite, rfl⟩
  · rintro ⟨input, merged, outcomes, hread, hloads, hmerges, hwrite, rfl⟩
    have imported : (importDirectory config w directory).Succeeds ⟨input⟩
        (reportFiles w (candidates config w directory) outcomes {}) merged :=
      succeeds_importFiles_iff.2 ⟨hloads, outcomes, hmerges, rfl⟩
    obtain ⟨log, himport⟩ := imported
    rw [hread]
    simp only [himport]
    rw [hwrite]
    exact ⟨rfl, rfl⟩

/-- The definitions that are reported as merged are those that were. -/
theorem map_name_mergedFiles {paths : List Path} {outcomes : List MergeOutcome} {merged : Project}
    (h : p.mergeAll (paths.filterMap (carried? w)) = (merged, .ok outcomes)) :
    (mergedFiles (exports w paths) outcomes).map (·.name)
      = (paths.filterMap (carried? w)).map (·.identity) := by
  have length := Project.length_of_mergeAll h
  rw [← map_snd_exports, List.length_map] at length
  have pairs :=
    congrArg (List.map fun pair => pair.2.identity) (List.map_fst_zip (Nat.le_of_eq length.symm))
  rw [← map_snd_exports, mergedFiles, List.map_map, List.map_map]
  rw [List.map_map] at pairs
  exact pairs

/-- A run that succeeds opens a project, merges what the candidates carry, and writes the
outcome. -/
theorem exists_of_run (h : ((run config directory).run w).result = .ok report) :
    ∃ (input : Xml.Document) (merged : Project) (outcomes : List MergeOutcome),
      w.readDocument (directory.join config.inputProject) = .ok input
        ∧ Project.mergeAll ⟨input⟩ ((candidates config w directory).filterMap (carried? w))
            = (merged, .ok outcomes)
        ∧ report.merged.map (·.name) = ((candidates config w directory).filterMap (carried? w)).map
            (·.identity)
        ∧ w.writeText (directory.join config.outputProject) merged.document.render
            = .ok ((run config directory).run w).state := by
  obtain ⟨input, merged, outcomes, hread, -, hmerges, hwrite, hreport⟩ :=
    succeeds_run_iff.1 (Task.succeeds_iff.2 ⟨h, rfl⟩)
  refine ⟨input, merged, outcomes, hread, hmerges, ?_, hwrite⟩
  rw [hreport]
  exact map_name_mergedFiles hmerges

/-- A run succeeds if everything can be read, every merge succeeds, and the output can be written.
It reports the merges, and the output has what they made. -/
theorem exists_run {input : Xml.Document} {merged : Project} {outcomes : List MergeOutcome}
    (hread : w.readDocument (directory.join config.inputProject) = .ok input)
    (hload : ∀ path ∈ candidates config w directory, ∃ loaded,
      w.load .addOnInstruction path = .ok loaded)
    (hmerges : Project.mergeAll ⟨input⟩ ((candidates config w directory).filterMap (carried? w))
      = (merged, .ok outcomes))
    (hwrite : ∀ content, ∃ w', w.writeText (directory.join config.outputProject) content = .ok w') :
    ∃ report, ((run config directory).run w).result = .ok report
      ∧ report.merged = mergedFiles (exports w (candidates config w directory)) outcomes
      ∧ ((run config directory).run w).state.readText (directory.join config.outputProject)
        = .ok merged.document.render := by
  obtain ⟨w', hw'⟩ := hwrite merged.document.render
  obtain ⟨hresult, hstate⟩ := Task.succeeds_iff.1
    (succeeds_run_iff.2 ⟨input, merged, outcomes, hread, hload, hmerges, hw', rfl⟩)
  refine ⟨_, hresult, List.nil_append _, ?_⟩
  rw [hstate]
  exact Workspace.readText_writeText hw'

end Import

end PlcWorkbench
