import PlcWorkbench.Proofs.Import.Delivery
import PlcWorkbench.Proofs.Project.Outcome
import PlcWorkbench.Proofs.Workspace.Tree

/-!
# What an import reports

The report of an import accounts for every file: a candidate is either merged or skipped, in the
order of the candidates, and whether a merge replaced a definition can be told from the project at
the start and the entries before. An import that stops at a file that cannot be loaded leaves the
project with the files before it merged.

* `accounts_of_succeeds` : the report of an import that succeeds;
* `run_importFiles_of_load_error` : the project after an import that stops;
* `importDirectory_accounts` : both, with the order of the candidates.
-/

namespace PlcWorkbench

/-- Mapping back what a partial function yields leaves the values at which it yields something. -/
theorem map_filterMap_eq_filter {α β : Type} {f : α → Option β} {g : β → α}
    (h : ∀ a b, f a = some b → g b = a) (values : List α) :
    (values.filterMap f).map g = values.filter fun a => (f a).isSome := by
  rw [List.map_filterMap, ← List.filterMap_eq_filter]
  apply List.filterMap_congr
  intro a _
  cases hvalue : f a with
  | none => simp [Option.guard, hvalue]
  | some b => simp [Option.guard, hvalue, h a b hvalue]

namespace ImportReport

/-- The definition of a merged entry was there before: in the project at the start, or as an earlier
entry. -/
def WasThere (p : Project) (merged : List MergedFile) (i : Fin merged.length) : Prop :=
  (p.find? .addOnInstruction merged[i].name).isSome ∨ merged[i].name ∈ (merged.take i).map (·.name)

instance (p : Project) (merged : List MergedFile) (i : Fin merged.length) :
    Decidable (WasThere p merged i) :=
  inferInstanceAs (Decidable (_ ∨ _))

/-- The report accounts for the files that are imported into a project. -/
structure Accounts (report : ImportReport) (w : Workspace) (files : List Path) (p : Project) :
    Prop where
  /-- Every file is either merged or skipped, and once. -/
  each_once : (report.merged.map (·.path) ++ report.skipped.map (·.path)).Perm files
  merged_order : (report.merged.map (·.path)).Sublist files
  skipped_order : (report.skipped.map (·.path)).Sublist files
  /-- A merged entry has the identity that its file carries. -/
  identity : ∀ entry ∈ report.merged, ∃ payload,
    w.load .addOnInstruction entry.path = .ok (.loaded ⟨.addOnInstruction, entry.name, payload⟩)
  /-- A skipped entry has the reason for which its file carries nothing. -/
  reason : ∀ entry ∈ report.skipped, w.load .addOnInstruction entry.path
    = .ok (.skipped entry.reason)
  /-- A merge replaced if and only if its definition was there. -/
  outcome : ∀ i : Fin report.merged.length,
    report.merged[i].outcome = .replaced ↔ WasThere p report.merged i
  replaced : report.replacedCount = (List.finRange report.merged.length).countP fun i =>
    WasThere p report.merged i

/-- The entries that replaced can be counted by their places. -/
theorem replacedCount_eq (report : ImportReport) :
    report.replacedCount
      = (List.finRange report.merged.length).countP fun i =>
        report.merged[i].outcome = .replaced := by
  rw [replacedCount, ← List.countP_eq_length_filter]
  conv_lhs => rw [← List.map_getElem_finRange report.merged]
  rw [List.countP_map]
  rfl

end ImportReport

namespace Import

variable {config : MergeConfig} {directory path : Path} {w : Workspace}
  {report report' : ImportReport}
  {p q : Project} {paths before after : List Path} {outcomes : List MergeOutcome} {cause : Failure}

/-! ## The entries of a report -/

/-- Each file that carries a definition has an entry. -/
theorem map_path_mergedFiles (h : p.mergeAll (paths.filterMap (carried? w)) = (q, .ok outcomes)) :
    (mergedFiles (exports w paths) outcomes).map (·.path) = paths.filter fun path =>
      (carried? w path).isSome := by
  have length := Project.length_of_mergeAll h
  rw [← map_snd_exports, List.length_map] at length
  rw [mergedFiles, List.map_map]
  calc ((exports w paths).zip outcomes).map (fun entry => entry.1.1)
      = (exports w paths).map (·.1) := by
        conv_rhs => rw [← List.map_fst_zip (Nat.le_of_eq length.symm), List.map_map]
        rfl
    _ = paths.filter fun path => ((carried? w path).map (path, ·)).isSome := by
        refine map_filterMap_eq_filter (fun path pair hpair => ?_) paths
        obtain ⟨a, -, rfl⟩ := Option.map_eq_some_iff.1 hpair
        rfl
    _ = paths.filter fun path => (carried? w path).isSome := by
        simp only [Option.isSome_map]

/-- The outcomes are those of the merges. -/
theorem map_outcome_mergedFiles
    (h : p.mergeAll (paths.filterMap (carried? w)) = (q, .ok outcomes)) :
    (mergedFiles (exports w paths) outcomes).map (·.outcome) = outcomes := by
  have length := Project.length_of_mergeAll h
  rw [← map_snd_exports, List.length_map] at length
  rw [mergedFiles, List.map_map]
  exact List.map_snd_zip (Nat.le_of_eq length)

/-- An entry has the identity of the definition that its file carries. -/
theorem load_of_mem_mergedFiles {entry : MergedFile}
    (h : entry ∈ mergedFiles (exports w paths) outcomes) :
    ∃ payload, w.load .addOnInstruction entry.path
      = .ok (.loaded ⟨.addOnInstruction, entry.name, payload⟩) := by
  obtain ⟨⟨pair, outcome⟩, hmem, rfl⟩ := List.mem_map.1 h
  obtain ⟨path, -, hpair⟩ := List.mem_filterMap.1 (List.of_mem_zip hmem).1
  obtain ⟨a, hcarried, rfl⟩ := Option.map_eq_some_iff.1 hpair
  obtain ⟨d, hd⟩ := exists_load_of_carried? hcarried
  have hkind := (Artifact.isOf_of_load hd).kind_eq
  exact ⟨a.payload, by rw [carried?_eq_some_iff.1 hcarried, ← hkind]⟩

/-- A file is passed over for the reason for which it carries nothing. -/
theorem passedOver?_eq_some_iff {entry : SkippedFile} :
    passedOver? w path = some entry
      ↔ entry.path = path ∧ w.load .addOnInstruction path = .ok (.skipped entry.reason) := by
  rw [passedOver?]
  rcases w.load .addOnInstruction path with cause | (a | reason)
  · simp
  · simp
  · cases entry
    simp [eq_comm]

/-- A file that can be loaded is passed over if it carries no definition. -/
theorem isSome_passedOver? {loaded : LoadOutcome} (h : w.load .addOnInstruction path = .ok loaded) :
    (passedOver? w path).isSome = !(carried? w path).isSome := by
  cases loaded with
  | loaded a =>
    obtain ⟨carried, passed⟩ := of_loaded h
    rw [carried, passed]
    rfl
  | skipped reason =>
    obtain ⟨carried, passed⟩ := of_skipped h
    rw [carried, passed]
    rfl

/-! ## An import that succeeds -/

/-- A merge replaced if and only if its definition was there. -/
theorem outcome_mergedFiles (hroot : p.document.root.name ≠ ArtifactKind.addOnInstruction.tag)
    (hflat : ArtifactKind.addOnInstruction.AreFlat p.document.root.elements)
    (hfits : ∀ a ∈ paths.filterMap (carried? w), a.Fits .addOnInstruction)
    (hmerges : p.mergeAll (paths.filterMap (carried? w)) = (q, .ok outcomes))
    {merged : List MergedFile}
    (hmerged : mergedFiles (exports w paths) outcomes = merged) (i : Fin merged.length) :
    merged[i].outcome = .replaced ↔ ImportReport.WasThere p merged i := by
  have expected := Project.getElem?_of_mergeAll (by decide) hroot hflat hfits hmerges i.val
  have names := map_name_mergedFiles hmerges
  have told := map_outcome_mergedFiles hmerges
  rw [hmerged] at names told
  subst told
  obtain ⟨a, ha, hname⟩ : ∃ a, (paths.filterMap (carried? w))[i.val]? = some a
    ∧ a.identity = merged[i].name := by
    rw [← Option.map_eq_some_iff, ← List.getElem?_map, ← names, List.getElem?_map,
      List.getElem?_eq_getElem i.isLt]
    rfl
  rw [ha, Option.map_some, hname, List.map_take, ← names, ← List.map_take, List.getElem?_map,
    List.getElem?_eq_getElem i.isLt, Option.map_some, Option.some_inj] at expected
  rw [Fin.getElem_fin, expected, ImportReport.WasThere]
  split
  · rename_i hthere
    exact iff_of_true rfl hthere
  · rename_i hthere
    exact iff_of_false nofun hthere

/-- **The report accounts for every file and every merge.** -/
theorem accounts_of_succeeds (hroot : p.document.root.name ≠ ArtifactKind.addOnInstruction.tag)
    (hflat : ArtifactKind.addOnInstruction.AreFlat p.document.root.elements)
    (hfits : ∀ a ∈ paths.filterMap (carried? w), a.Fits .addOnInstruction)
    (h : (importFiles w {} paths).Succeeds p report q) :
    report.Accounts w paths p := by
  obtain ⟨hloads, outcomes, hmerges, rfl⟩ := succeeds_importFiles_iff.1 h
  have merged_paths := map_path_mergedFiles hmerges
  have skipped_paths : (paths.filterMap (passedOver? w)).map (·.path)
      = paths.filter fun path => !(carried? w path).isSome := by
    rw [map_filterMap_eq_filter fun path entry hpassed => (passedOver?_eq_some_iff.1 hpassed).1]
    refine List.filter_congr fun path hpath => ?_
    obtain ⟨loaded, hload⟩ := hloads path hpath
    exact isSome_passedOver? hload
  have outcome := outcome_mergedFiles hroot hflat hfits hmerges rfl
  rw [show reportFiles w paths outcomes {}
    = ⟨none, mergedFiles (exports w paths) outcomes, paths.filterMap (passedOver? w)⟩ from rfl]
  refine ⟨?_, ?_, ?_, fun entry => load_of_mem_mergedFiles, ?_, outcome, ?_⟩
  · rw [merged_paths, skipped_paths]
    exact List.filter_append_perm _ _
  · rw [merged_paths]
    exact List.filter_sublist
  · rw [skipped_paths]
    exact List.filter_sublist
  · intro entry hentry
    obtain ⟨path, -, hpath⟩ := List.mem_filterMap.1 hentry
    obtain ⟨rfl, hload⟩ := passedOver?_eq_some_iff.1 hpath
    exact hload
  · rw [ImportReport.replacedCount_eq]
    simp only [outcome]

/-! ## An import that stops -/

/-- Importing files goes on from the project and the report that the first ones leave. -/
theorem run_importFiles_append (h : (importFiles w report before).Succeeds p report' q)
    (rest : List Path) :
    ((importFiles w report (before ++ rest)).run p).state
      = ((importFiles w report' rest).run q).state
      ∧ ((importFiles w report (before ++ rest)).run p).result
          = ((importFiles w report' rest).run q).result := by
  induction before generalizing report p with
  | nil =>
    rw [importFiles, Task.succeeds_pure_iff] at h
    obtain ⟨rfl, rfl⟩ := h
    exact ⟨rfl, rfl⟩
  | cons path before ih =>
    rw [importFiles, Task.succeeds_bind_iff] at h
    obtain ⟨between, next, hfile, hbefore⟩ := h
    obtain ⟨state, result⟩ :=
      hfile.run_bind (f := fun report => importFiles w report (before ++ rest))
    rw [List.cons_append, importFiles, state, result]
    exact ih hbefore

/-- A merge that fails stops the import. -/
theorem run_importFiles_append_of_merge_error
    (hbefore : ∀ earlier ∈ before, ∃ loaded, w.load .addOnInstruction earlier = .ok loaded)
    (hmerges : p.mergeAll (before.filterMap (carried? w)) = (q, .error cause)) (rest : List Path) :
    ((importFiles w report (before ++ rest)).run p).state = q
      ∧ ((importFiles w report (before ++ rest)).run p).result = .error cause := by
  induction before generalizing report p with
  | nil => cases hmerges
  | cons earlier before ih =>
    rw [List.forall_mem_cons] at hbefore
    obtain ⟨⟨loaded, hload⟩, hothers⟩ := hbefore
    rw [List.cons_append, importFiles]
    cases loaded with
    | skipped reason =>
      have passed :
          (importFile w report earlier).Succeeds p (report.addSkipped ⟨earlier, reason⟩) p :=
        succeeds_importFile_iff.2 (.inl ⟨reason, hload, rfl, rfl⟩)
      obtain ⟨state, result⟩ :=
        passed.run_bind (f := fun report => importFiles w report (before ++ rest))
      rw [List.filterMap_cons_none (of_skipped hload).1] at hmerges
      rw [state, result]
      exact ih hothers hmerges
    | loaded a =>
      rw [List.filterMap_cons_some (of_loaded hload).1, Project.mergeAll] at hmerges
      rcases hmerge : p.merge a with ⟨next, failed | outcome⟩
      · rw [hmerge] at hmerges
        cases hmerges
        rw [Task.run_bind, run_importFile, hload]
        simp only [hmerge, and_self]
      · have merged :
            (importFile w report earlier).Succeeds p
              (report.addMerged ⟨earlier, a.identity, outcome⟩) next :=
          succeeds_importFile_iff.2 (.inr ⟨a, outcome, hload, hmerge, rfl⟩)
        obtain ⟨state, result⟩ :=
          merged.run_bind (f := fun report => importFiles w report (before ++ rest))
        rw [state, result]
        rw [hmerge] at hmerges
        rcases hrest : next.mergeAll (before.filterMap (carried? w)) with ⟨last, failed | others⟩
        · simp only [hrest] at hmerges
          cases hmerges
          exact ih hothers hrest
        · simp only [hrest] at hmerges
          cases hmerges

/-- **An import that stops** at a file that cannot be loaded leaves the project with the files
before it merged. The failure is that of the file, unless a merge failed before. -/
theorem run_importFiles_of_load_error
    (hbefore : ∀ earlier ∈ before, ∃ loaded, w.load .addOnInstruction earlier = .ok loaded)
    (hpath : w.load .addOnInstruction path = .error cause) :
    ((importFiles w report (before ++ path :: after)).run p).state
        = (before.filterMap (carried? w)).foldl (fun p a => (p.merge a).1) p
      ∧ ((importFiles w report (before ++ path :: after)).run p).result
        = (p.mergeAll (before.filterMap (carried? w))).2.bind fun _ => .error cause := by
  rw [← Project.mergeAll_fst kind_of_carried]
  rcases hmerges : p.mergeAll (before.filterMap (carried? w)) with ⟨q, failed | outcomes⟩
  · exact run_importFiles_append_of_merge_error hbefore hmerges _
  · have imported :
        (importFiles w report before).Succeeds p (reportFiles w before outcomes report) q :=
      succeeds_importFiles_iff.2 ⟨hbefore, outcomes, hmerges, rfl⟩
    obtain ⟨state, result⟩ := run_importFiles_append imported (path :: after)
    rw [state, result, importFiles, Task.run_bind, run_importFile, hpath]
    exact ⟨rfl, rfl⟩

/-! ## Whole directories -/

/-- An import into a flat project succeeds if every file can be loaded, and if there is a container
for what they carry. -/
theorem exists_succeeds_importFiles_iff
    (hroot : p.document.root.name ≠ ArtifactKind.addOnInstruction.tag)
    (hflat : ArtifactKind.addOnInstruction.AreFlat p.document.root.elements)
    (hfits : ∀ a ∈ paths.filterMap (carried? w), a.Fits .addOnInstruction) :
    (∃ report' q, (importFiles w report paths).Succeeds p report' q)
      ↔ (∀ path ∈ paths, ∃ loaded, w.load .addOnInstruction path = .ok loaded)
        ∧ ((p.document.root.findFirst? ArtifactKind.addOnInstruction.containerTag).isSome
          ∨ paths.filterMap (carried? w) = []) := by
  constructor
  · rintro ⟨report', q, success⟩
    obtain ⟨hloads, outcomes, hmerges, -⟩ := succeeds_importFiles_iff.1 success
    refine ⟨hloads, ?_⟩
    cases hcarried : paths.filterMap (carried? w) with
    | nil => exact .inr rfl
    | cons a rest =>
      rw [hcarried] at hmerges hfits
      have container := Project.container_of_mergeAll hmerges
      rw [(hfits a List.mem_cons_self).kind_eq] at container
      exact .inl container
  · rintro ⟨hloads, hcontainer | hnone⟩
    · obtain ⟨q, outcomes, hmerges, -⟩ :=
        Project.exists_mergeAll_of_isRegular (by decide) ⟨hcontainer, hroot, hflat⟩ hfits
      exact ⟨_, q, succeeds_importFiles_iff.2 ⟨hloads, outcomes, hmerges, rfl⟩⟩
    · exact ⟨_, p, succeeds_importFiles_iff.2 ⟨hloads, [], by rw [hnone]; rfl, rfl⟩⟩

/-- **The report of an import accounts for every file and every effect.** The import succeeds if
every candidate can be loaded and there is a container for what they carry. Then the project is the
fold of merges over what the candidates carry; each candidate is merged or skipped, once and in the
order of the candidates, and a merge replaced if and only if its definition was there. If a
candidate cannot be loaded, the project is the fold over the candidates before it, whatever it was
at the start. In a tree of files the candidates are in ascending order. -/
theorem importDirectory_accounts (hroot : p.document.root.name ≠ ArtifactKind.addOnInstruction.tag)
    (hflat : ArtifactKind.addOnInstruction.AreFlat p.document.root.elements) :
    ((∀ a ∈ (candidates config w directory).filterMap (carried? w),
          ArtifactKind.addOnInstruction.IsSimple a.payload) →
        ((∃ report q, (importDirectory config w directory).Succeeds p report q)
            ↔ (∀ path ∈ candidates config w directory, ∃ loaded,
                w.load .addOnInstruction path = .ok loaded)
              ∧ ((p.document.root.findFirst? ArtifactKind.addOnInstruction.containerTag).isSome
                ∨ (candidates config w directory).filterMap (carried? w) = []))
          ∧ ∀ report q, (importDirectory config w directory).Succeeds p report q →
              report.Accounts w (candidates config w directory) p
                ∧ q = ((candidates config w directory).filterMap (carried? w)).foldl
                    (fun p a => (p.merge a).1) p)
      ∧ (∀ before path after cause, candidates config w directory = before ++ path :: after →
          (∀ earlier ∈ before, ∃ loaded, w.load .addOnInstruction earlier = .ok loaded) →
          w.load .addOnInstruction path = .error cause →
          ((importDirectory config w directory).run p).state
              = (before.filterMap (carried? w)).foldl (fun p a => (p.merge a).1) p
            ∧ ((importDirectory config w directory).run p).result
              = (p.mergeAll (before.filterMap (carried? w))).2.bind fun _ => .error cause)
      ∧ (w.IsTree → (candidates config w directory).Pairwise Path.Precedes) := by
  refine ⟨fun hsimple => ⟨?_, fun report q himport => ⟨?_, ?_⟩⟩,
    fun before path after cause hsplit hbefore hpath => ?_,
      fun htree => htree.pairwise_filesWithExtension directory config.extension⟩
  · exact exists_succeeds_importFiles_iff hroot hflat (fits_of_carried hsimple)
  · exact accounts_of_succeeds hroot hflat (fits_of_carried hsimple) himport
  · obtain ⟨-, outcomes, hmerges, -⟩ := succeeds_importFiles_iff.1 himport
    rw [← Project.mergeAll_fst kind_of_carried, hmerges]
  · rw [importDirectory, hsplit]
    exact run_importFiles_of_load_error hbefore hpath

/-- An import of the directory into the project succeeds; its report accounts for the four
candidates. -/
theorem importDirectory_accounts_station :
    ∃ report q, (importDirectory {} station ⟨"."⟩).Succeeds Project.scattered report q
      ∧ report.Accounts station (stationLoads.map (·.1)) Project.scattered
      ∧ q = Project.updates.foldl (fun p a => (p.merge a).1) Project.scattered
      ∧ (stationLoads.map (·.1)).Pairwise Path.Precedes := by
  obtain ⟨complete, -, ordered⟩ :=
    @importDirectory_accounts {} ⟨"."⟩ station Project.scattered (by decide) (by decide)
  have simple : ∀ a ∈ (candidates {} station ⟨"."⟩).filterMap (carried? station),
      ArtifactKind.addOnInstruction.IsSimple a.payload := by
    rw [carried_station]
    decide
  obtain ⟨succeeds, accounts⟩ := complete simple
  obtain ⟨report, q, imported⟩ := succeeds.2 ⟨loads_station, .inl (by decide)⟩
  obtain ⟨haccounts, hq⟩ := accounts report q imported
  rw [carried_station] at hq
  rw [← candidates_station]
  exact ⟨report, q, imported, haccounts, hq, ordered (by decide)⟩

end Import

end PlcWorkbench
