import PlcWorkbench.Proofs.Import.Delivery
import PlcWorkbench.Proofs.Project.Reopen
import PlcWorkbench.Proofs.Workspace.Rescan

/-!
# Running again

The file that a run writes may be a candidate of the next run. It is read back as a project whose
root is the input project's up to its content, so it declares the same and is passed over. All other
candidates are found and read as before, in the same order, and so is the input project. So the next
run merges the same definitions with the same outcomes and writes the same file.

* `load_output` : what a run writes is passed over when it is read back;
* `AgreesBut`, `agreesBut_put` : the candidates are as before, apart from the file that was written;
* `run_again` : a run that succeeded succeeds again and changes nothing.
-/

namespace PlcWorkbench

open Xml (Leaf Tag Content Element)

namespace Workspace

variable {w w' : Workspace} {path path' : Path} {kind : ArtifactKind}

/-- What is read from a file depends on what is found there. -/
theorem readDocument_of_find?_eq (h : w'.find? path' = w.find? path) {d : Xml.Document}
    (hread : w.readDocument path = .ok d) : w'.readDocument path' = .ok d := by
  obtain ⟨source, htext, hparse⟩ := readDocument_eq_ok_iff.1 hread
  refine readDocument_eq_ok_iff.2 ⟨source, ?_, hparse⟩
  rw [readText_eq_ok_iff] at htext ⊢
  exact h.trans htext

/-- So does what is loaded from it. -/
theorem load_of_find?_eq (h : w'.find? path' = w.find? path) {loaded : LoadOutcome}
    (hload : w.load kind path = .ok loaded) : w'.load kind path' = .ok loaded := by
  obtain ⟨d, hread, hloaded⟩ := map_eq_ok_iff.1 hload
  exact map_eq_ok_iff.2 ⟨d, readDocument_of_find?_eq h hread, hloaded⟩

/-- A definition that was loaded can be read back if its names are clean. -/
theorem isLegible_of_load {a : Artifact} (h : w.load kind path = .ok (.loaded a))
    (hclean : a.payload.All (fun _ => True) Tag.IsClean) :
    a.payload.All Leaf.IsWritable Tag.IsLegible := by
  obtain ⟨d, hread, hload⟩ := map_eq_ok_iff.1 h
  obtain ⟨source, -, hparse⟩ := readDocument_eq_ok_iff.1 hread
  exact (Artifact.isLegible_of_load hparse hload hclean).1

/-- Names without slashes that differ are those of different files in a directory. -/
theorem resolve_join_ne {directory : Path} {name name' : String} {parent : Location} {last : String}
    (h : w.LeadsTo (directory.join name) parent last) (hname : '/' ∉ name.toList)
    (hname' : '/' ∉ name'.toList)
    (hne : name' ≠ name) : w.resolve (directory.join name') ≠ .ok (parent ++ [last]) := by
  intro hresolve
  -- both ways lead through the same directory
  obtain ⟨names, hcomponents, hwalk⟩ := h.way
  rw [Path.components_join directory hname] at hcomponents
  obtain ⟨rfl, hlast⟩ := List.append_inj' hcomponents rfl
  obtain rfl : name = last := List.singleton_inj.1 hlast
  obtain ⟨-, hwalk'⟩ := resolve_eq_ok_iff.1 hresolve
  rw [Path.components_join directory hname', walk_append_eq_ok_iff, start,
    Path.isAbsolute_join directory hname']
    at hwalk'
  obtain ⟨between, hbetween, hstep⟩ := hwalk'
  rw [start, Path.isAbsolute_join directory hname] at hwalk
  obtain rfl : parent = between := Except.ok.inj (hwalk.symm.trans hbetween)
  -- the last step goes to the name, unless it stays or goes back
  obtain ⟨-, -, hadvance⟩ := walk_cons_eq_ok_iff.1 hstep
  have step : advance parent name' = parent ++ [name] := Except.ok.inj hadvance
  rw [advance] at step
  split at step
  · exact absurd (congrArg List.length step) (by simp)
  · split at step
    · exact absurd (congrArg List.length step) (by simp)
    · exact hne (List.singleton_inj.1 (List.append_cancel_left step))

/-- Once a file is there, a path leads elsewhere than to it if it does not reach the file's
place. -/
theorem LeadsTo.decide_resolve_ne {parent : Location} {name : String}
    (h : w.LeadsTo path parent name) {entry : Entry} (hfile : entry ≠ .directory) (other : Path) :
    decide ((w.put (parent ++ [name]) entry).resolve other
        ≠ (w.put (parent ++ [name]) entry).resolve path)
      = !w.reaches (parent ++ [name]) other := by
  rw [(h.put hfile).resolve_eq, decide_not, reaches]
  simp only [resolve_put_eq_ok_iff h.free hfile]

end Workspace

namespace Import

variable {w w' : Workspace} {config : MergeConfig} {directory path : Path} {report : ImportReport}
  {input : Xml.Document} {merged : Project} {outcomes : List MergeOutcome}
  {paths paths' : List Path}

/-! ## The output as a candidate -/

/-- What is written after merging is read back and passed over, if the input project is none that is
loaded: the root declares what it declared. -/
theorem load_output (hread : w.readDocument path = .ok input) (hclean : input.IsClean)
    (hkind : input.root.attribute? ArtifactKind.addOnInstruction.discriminatorKey
      ≠ some ArtifactKind.addOnInstruction.tag)
    (hloaded : ∀ path ∈ paths, ∀ a, w.load .addOnInstruction path = .ok (.loaded a) →
      a.payload.All (fun _ => True) Tag.IsClean)
    (hmerges : Project.mergeAll ⟨input⟩ (paths.filterMap (carried? w)) = (merged, .ok outcomes))
    {output : Path} (htext : w'.readText output = .ok merged.document.render) :
    ∃ reason, w'.load .addOnInstruction output = .ok (.skipped reason) := by
  have payloads : ∀ a ∈ paths.filterMap (carried? w), a.payload.All Leaf.IsWritable Tag.IsLegible :=
    forall_carried_iff.2 fun path hpath a hload =>
      Workspace.isLegible_of_load hload (hloaded path hpath a hload)
  have legible := Project.isLegible_mergeAll (p := ⟨input⟩)
    ((Workspace.isSound_of_readDocument hread).isLegible hclean) payloads
  obtain ⟨root, hroot, htag, -⟩ :=
    Project.exists_withRoot_mergeAll ⟨input⟩ (paths.filterMap (carried? w))
  rw [hmerges] at legible hroot
  obtain rfl : merged = (Project.mk input).withRoot root := hroot
  refine ⟨.wrongKind (input.root.attribute? ArtifactKind.addOnInstruction.discriminatorKey), ?_⟩
  refine map_eq_ok_iff.2 ⟨_, Workspace.readDocument_eq_ok_iff.2 ⟨_, htext, legible.parse_eq⟩, ?_⟩
  have declared : root.joinText.attribute? ArtifactKind.addOnInstruction.discriminatorKey
      = input.root.attribute? ArtifactKind.addOnInstruction.discriminatorKey :=
    congrArg (fun t : Tag => Dictionary.get? t.attributes
      ArtifactKind.addOnInstruction.discriminatorKey) htag
  rw [ArtifactKind.load]
  simp only [show ((Project.mk input).withRoot root).document.joinText.root
      = root.joinText from rfl, declared,
    if_neg hkind]

/-! ## The other candidates -/

/-- Lists that are the same up to elements that are mapped to nothing are mapped to the same. -/
theorem filterMap_eq_of_filter_eq {α β : Type} {l l' : List α} {keep : α → Bool}
    {f f' : α → Option β} (h : l'.filter keep = l.filter keep)
    (hskip : ∀ x ∈ l, keep x = false → f x = none)
    (hskip' : ∀ x ∈ l', keep x = false → f' x = none)
    (hsame : ∀ x ∈ l, keep x = true → f' x = f x) :
    l'.filterMap f' = l.filterMap f := by
  have kept : ∀ (l : List α) (f : α → Option β), (∀ x ∈ l, keep x = false → f x = none) →
      l.filterMap f = (l.filter keep).filterMap f := by
    intro l f hskip
    rw [List.filterMap_filter]
    apply List.filterMap_congr
    intro x hx
    split
    · rfl
    · rename_i hkeep
      exact hskip x hx (Bool.not_eq_true _ ▸ hkeep)
  rw [kept l f hskip, kept l' f' hskip', h]
  apply List.filterMap_congr
  intro x hx
  exact hsame x (List.mem_of_mem_filter hx) (List.of_mem_filter hx)

/-- The files are the same and hold the same, apart from some that are passed over. -/
structure AgreesBut (dropped : Path → Bool) (w w' : Workspace) (paths paths' : List Path) :
    Prop where
  filter_eq : paths'.filter (!dropped ·) = paths.filter (!dropped ·)
  load_eq : ∀ path ∈ paths, dropped path = false →
    w'.load .addOnInstruction path = w.load .addOnInstruction path
  skipped : ∀ path ∈ paths, dropped path = true →
    ∃ reason, w.load .addOnInstruction path = .ok (.skipped reason)
  skipped' : ∀ path ∈ paths', dropped path = true →
    ∃ reason, w'.load .addOnInstruction path = .ok (.skipped reason)

namespace AgreesBut

variable {dropped : Path → Bool}

/-- Files that agree can be read if they could be. -/
theorem exists_load (h : AgreesBut dropped w w' paths paths')
    (hloads : ∀ path ∈ paths, ∃ loaded, w.load .addOnInstruction path = .ok loaded) :
    ∀ path ∈ paths', ∃ loaded, w'.load .addOnInstruction path = .ok loaded := by
  intro path hpath
  cases hdropped : dropped path with
  | true =>
    obtain ⟨reason, hload⟩ := h.skipped' path hpath hdropped
    exact ⟨_, hload⟩
  | false =>
    have kept : path ∈ paths'.filter (!dropped ·) := List.mem_filter.2 ⟨hpath, by simp [hdropped]⟩
    rw [h.filter_eq] at kept
    have hmem := List.mem_of_mem_filter kept
    rw [h.load_eq path hmem hdropped]
    exact hloads path hmem

/-- They carry the same definitions in the same order. -/
theorem exports_eq (h : AgreesBut dropped w w' paths paths') :
    exports w' paths' = exports w paths := by
  refine filterMap_eq_of_filter_eq h.filter_eq ?_ ?_ ?_
  · intro path hpath hkeep
    obtain ⟨reason, hload⟩ := h.skipped path hpath (by simpa using hkeep)
    rw [(of_skipped hload).1]
    rfl
  · intro path hpath hkeep
    obtain ⟨reason, hload⟩ := h.skipped' path hpath (by simpa using hkeep)
    rw [(of_skipped hload).1]
    rfl
  · intro path hpath hkeep
    rw [carried?, carried?, h.load_eq path hpath (by simpa using hkeep)]

/-- The same definitions are merged. -/
theorem carried_eq (h : AgreesBut dropped w w' paths paths') :
    paths'.filterMap (carried? w') = paths.filterMap (carried? w) := by
  rw [← map_snd_exports, ← map_snd_exports, h.exports_eq]

/-- Apart from them the same files are passed over. -/
theorem passedOver_eq (h : AgreesBut dropped w w' paths paths') :
    (paths'.filterMap (passedOver? w')).filter (!dropped ·.path)
      = (paths.filterMap (passedOver? w)).filter (!dropped ·.path) := by
  rw [List.filter_filterMap, List.filter_filterMap]
  refine filterMap_eq_of_filter_eq h.filter_eq ?_ ?_ ?_
  · intro path hpath hkeep
    obtain ⟨reason, hload⟩ := h.skipped path hpath (by simpa using hkeep)
    rw [(of_skipped hload).2]
    simpa using hkeep
  · intro path hpath hkeep
    obtain ⟨reason, hload⟩ := h.skipped' path hpath (by simpa using hkeep)
    rw [(of_skipped hload).2]
    simpa using hkeep
  · intro path hpath hkeep
    rw [passedOver?, passedOver?, h.load_eq path hpath (by simpa using hkeep)]

end AgreesBut

/-- Once a file is written that is passed over, and was passed over if it was there, the candidates
agree with those before apart from it. -/
theorem agreesBut_put {output : Path} {parent : Location} {name content : String}
    (h : w.LeadsTo output parent name)
    (hloads : ∀ path ∈ candidates config w directory, ∃ loaded,
      w.load .addOnInstruction path = .ok loaded)
    (hbefore : w.find? output = none ∨ ∃ reason,
      w.load .addOnInstruction output = .ok (.skipped reason))
    (hafter : ∃ reason, (w.put (parent ++ [name]) (.text content)).load .addOnInstruction output
      = .ok (.skipped reason)) :
    AgreesBut (w.reaches (parent ++ [name])) w (w.put (parent ++ [name]) (.text content))
      (candidates config w directory)
      (candidates config (w.put (parent ++ [name]) (.text content)) directory) where
  filter_eq :=
    h.filesWithExtension_put (Workspace.text_ne_directory content) directory config.extension
  load_eq := by
    intro path hpath hdropped
    obtain ⟨loaded, hload⟩ := hloads path hpath
    rw [hload]
    have elsewhere := Workspace.reaches_eq_false_iff.1 hdropped
    exact Workspace.load_of_find?_eq (Workspace.find?_put_of_ne h.free
      (Workspace.text_ne_directory content) elsewhere)
      hload
  skipped := by
    intro path hpath hdropped
    have same : w.find? path = w.find? output := by
      rw [Workspace.find?_of_resolve (Workspace.reaches_iff.1 hdropped),
        Workspace.find?_of_resolve h.resolve_eq]
    rcases hbefore with habsent | ⟨reason, hload⟩
    · -- a candidate is a file that is there
      have file := Workspace.isFile_of_mem_filesWithExtension hpath
      rw [same, habsent] at file
      cases file
    · exact ⟨reason, Workspace.load_of_find?_eq same hload⟩
  skipped' := by
    intro path _ hdropped
    obtain ⟨reason, hload⟩ := hafter
    refine ⟨reason, Workspace.load_of_find?_eq ?_ hload⟩
    rw [Workspace.find?_put_self h.free (Workspace.text_ne_directory content)
      (Workspace.reaches_iff.1 hdropped),
      Workspace.find?_put_self h.free (Workspace.text_ne_directory content) h.resolve_eq]

/-! ## The next run -/

/-- **Running again changes nothing.** A run that succeeded succeeds again on the files that it left
behind, and leaves them as they are. It reports the same merges, and the same files as passed over,
apart from its own output. -/
theorem run_again (hinput : '/' ∉ config.inputProject.toList)
    (houtput : '/' ∉ config.outputProject.toList)
    (hdiffer : config.inputProject ≠ config.outputProject)
    (hrun : (run config directory).Succeeds w report w')
    (hread : w.readDocument (directory.join config.inputProject) = .ok input)
    (hclean : input.IsClean)
    (hkind : input.root.attribute? ArtifactKind.addOnInstruction.discriminatorKey
      ≠ some ArtifactKind.addOnInstruction.tag)
    (hloaded : ∀ path ∈ candidates config w directory, ∀ a,
      w.load .addOnInstruction path = .ok (.loaded a) →
      a.payload.All (fun _ => True) Tag.IsClean)
    (hskipped : w.find? (directory.join config.outputProject) = none
      ∨ ∃ reason, w.load .addOnInstruction (directory.join config.outputProject)
          = .ok (.skipped reason)) :
    ∃ report', (run config directory).Succeeds w' report' w' ∧ report'.output = report.output
      ∧ report'.merged = report.merged
      ∧ report'.skipped.filter (fun file => w'.resolve file.path
          ≠ w'.resolve (directory.join config.outputProject))
        = report.skipped.filter
          fun file => w'.resolve file.path ≠ w'.resolve (directory.join config.outputProject) := by
  obtain ⟨input', merged, outcomes, hread', hloads, hmerges, hwrite, rfl⟩ := succeeds_run_iff.1 hrun
  obtain rfl : input = input' := Except.ok.inj (hread.symm.trans hread')
  have rewritten := Workspace.writeText_writeText hwrite
  have passed :=
    load_output hread hclean hkind hloaded hmerges (Workspace.readText_writeText hwrite)
  obtain ⟨parent, name, hleads, rfl⟩ := Workspace.writeText_eq_ok_iff.1 hwrite
  have hfile := Workspace.text_ne_directory merged.document.render
  have agrees := agreesBut_put hleads hloads hskipped passed
  -- the input project is another file than the output
  have apart := Workspace.resolve_join_ne hleads houtput hinput hdiffer
  have reread :=
    Workspace.readDocument_of_find?_eq (Workspace.find?_put_of_ne hleads.free hfile apart) hread
  have merges := hmerges
  rw [← agrees.carried_eq] at merges
  refine ⟨_, succeeds_run_iff.2 ⟨input, merged, outcomes, reread, agrees.exists_load hloads, merges,
    rewritten, rfl⟩, rfl, ?_, ?_⟩
  · rw [reportFiles, reportFiles, agrees.exports_eq]
  · simp only [reportFiles, hleads.decide_resolve_ne hfile, List.nil_append]
    exact agrees.passedOver_eq

/-- A second run in the directory, which then has an output, merges the same. -/
theorem run_again_station :
    ∃ report w' report', (run {} ⟨"."⟩).Succeeds station report w'
      ∧ (run {} ⟨"."⟩).Succeeds w' report' w'
      ∧ report'.output = report.output ∧ report'.merged = report.merged
      ∧ report'.skipped.filter (fun file => w'.resolve file.path ≠ w'.resolve ⟨"./out.L5X"⟩)
        = report.skipped.filter fun file => w'.resolve file.path ≠ w'.resolve ⟨"./out.L5X"⟩ := by
  obtain ⟨report, success⟩ := exists_run_station
  have hrun := Task.succeeds_iff.2 ⟨success, rfl⟩
  have clean : ∀ path ∈ candidates {} station ⟨"."⟩, ∀ a,
      station.load .addOnInstruction path = .ok (.loaded a) →
      a.payload.All (fun _ => True) Tag.IsClean := by
    have all : ∀ a ∈ Project.updates, a.payload.All (fun _ => True) Tag.IsClean := by decide
    rw [← carried_station] at all
    exact forall_carried_iff.1 all
  have absent : station.find? ⟨"./out.L5X"⟩ = none := by decide
  obtain ⟨report', again⟩ :=
    run_again (by decide) (by decide) (by decide) hrun read_station (by decide) (by decide)
    clean (.inl absent)
  exact ⟨report, _, report', hrun, again⟩

end Import

end PlcWorkbench
