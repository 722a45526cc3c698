import PlcWorkbench.Proofs.Import.Batch
import PlcWorkbench.Proofs.Workspace.Tree
import PlcWorkbench.Proofs.Xml.Accepted

/-!
# Delivery

The file that a run writes is read back as a project with the definitions that it should have: those
that the candidates carry as they were last loaded, all others as they were in the input project,
texts joined. The parts are the batch of merges, the round trip through the written file, and that
everything read from a file can be written as far as its names are plain.
-/

namespace PlcWorkbench

open Xml (Leaf Tag Content Element)

variable {kind : ArtifactKind} {p : Project} {artifacts : List Artifact}

namespace Project

/-! ## Batches that succeed -/

/-- A batch of merges that succeeds on a flat project with unique identities puts in one artifact
after the other; the last artifact of an identity is found under it, and what was found before if
there is none. -/
theorem of_mergeAll (hkind : kind.tag ≠ kind.containerTag) (hroot : p.document.root.name ≠ kind.tag)
    (hflat : kind.AreFlat p.document.root.elements)
    (hunique : ∀ identity, p.count kind identity ≤ 1)
    (ha : ∀ a ∈ artifacts, a.Fits kind) {merged : Project} {outcomes : List MergeOutcome}
    (h : p.mergeAll artifacts = (merged, .ok outcomes)) :
    merged = artifacts.foldl (put · kind) p ∧ ∀ identity, merged.find? kind identity
      = ((artifacts.reverse.find? (·.identity == identity)).map (·.payload)).or
          (p.find? kind identity) := by
  cases artifacts with
  | nil =>
    -- nothing was merged, so there need not be a container
    cases h
    exact ⟨rfl, fun identity => rfl⟩
  | cons a rest =>
    have container := container_of_mergeAll h
    rw [(ha a List.mem_cons_self).kind_eq] at container
    have regular : p.IsRegular kind := ⟨container, hroot, hflat⟩
    obtain ⟨outcomes', hmerges⟩ := mergeAll_eq_foldl hkind regular ha fun b _ => hunique b.identity
    rw [hmerges] at h
    cases h
    exact ⟨rfl, find?_foldl_put hkind regular ha⟩

/-! ## What can be written -/

/-- A project stays one that can be written if an artifact is put in that can be. -/
theorem isWritable_put {a : Artifact} (h : p.document.IsWritable)
    (ha : a.payload.All Leaf.IsWritable Tag.IsWritable) :
    (p.put kind a).document.IsWritable where
  declaration := h.declaration
  prolog := h.prolog
  root := h.root.prune.extendFirst ⟨ha.1, ha.2, trivial⟩

/-- The same for any number of artifacts. -/
theorem isWritable_foldl_put (kind : ArtifactKind) (h : p.document.IsWritable)
    (ha : ∀ a ∈ artifacts, a.payload.All Leaf.IsWritable Tag.IsWritable) :
    (artifacts.foldl (put · kind) p).document.IsWritable := by
  induction artifacts generalizing p with
  | nil => exact h
  | cons a rest ih =>
    rw [List.forall_mem_cons] at ha
    exact ih (isWritable_put h ha.1) ha.2

/-- In a document with its texts joined the same definitions are found, with their texts joined. -/
theorem find?_joinText (d : Xml.Document) (identity : String) :
    Project.find? ⟨d.joinText⟩ kind identity = (Project.find? ⟨d⟩ kind identity).map
      Element.joinText := by
  rw [find?, show (Project.mk d.joinText).document.root = d.root.joinText from rfl,
    Element.findAll_joinText, List.find?_map]
  rfl

end Project

namespace Workspace

variable {w w' : Workspace} {path : Path}

/-- A document is read from a file if its text is read and parsed. -/
theorem readDocument_eq_ok_iff {d : Xml.Document} :
    w.readDocument path = .ok d ↔ ∃ source, w.readText path = .ok source
      ∧ Xml.Document.parse source = .ok d := by
  rw [readDocument]
  cases w.readText path with
  | error cause => simp
  | ok source => cases hparse : Xml.Document.parse source <;> simp [hparse]

/-- A document that was read from a file is one that was parsed. -/
theorem isSound_of_readDocument {d : Xml.Document} (h : w.readDocument path = .ok d) :
    d.IsSound := by
  obtain ⟨source, -, hparse⟩ := readDocument_eq_ok_iff.1 h
  exact Xml.Document.isSound_of_parse hparse

/-- A definition that was loaded can be written if its names are plain. -/
theorem isWritable_of_load {a : Artifact} (h : w.load kind path = .ok (.loaded a))
    (hplain : a.payload.All (fun _ => True) Tag.IsPlain) :
    a.payload.All Leaf.IsWritable Tag.IsWritable := by
  obtain ⟨d, hread, hload⟩ := map_eq_ok_iff.1 h
  obtain ⟨inside, -⟩ := Element.mem_elements_of_findFirst? (Artifact.of_load hload).2.1
  have sound := (isSound_of_readDocument hread).root.of_mem inside
  exact (sound.and hplain).imp (fun _ hl => hl.1) fun _ ht => ⟨ht.2, ht.1⟩

/-- A document that can be written is read from a file that holds its text, with its own texts
joined. -/
theorem readDocument_of_readText {d : Xml.Document} (h : d.IsWritable)
    (hread : w.readText path = .ok d.render) :
    w.readDocument path = .ok d.joinText := by
  rw [readDocument, hread]
  simp only [Xml.Document.parse_eq_complete (Xml.Document.head?_render h),
    Xml.Assembly.complete_render h]

/-- What is loaded from a file that holds its text. -/
theorem load_of_readText {d : Xml.Document} (h : d.IsWritable)
    (hread : w.readText path = .ok d.render) :
    w.load kind path = .ok (kind.load d.joinText) :=
  map_eq_ok_iff.2 ⟨_, readDocument_of_readText h hread, rfl⟩

end Workspace

namespace Import

variable {w : Workspace} {paths : List Path}

/-! ## The last of each identity -/

/-- The artifact is what one of the files carries, and no later file carries one of its identity. -/
def IsLast (w : Workspace) (paths : List Path) (a : Artifact) : Prop :=
  ∃ before path after, paths = before ++ path :: after
    ∧ w.load .addOnInstruction path = .ok (.loaded a)
    ∧ ∀ later ∈ after, ∀ b, w.load .addOnInstruction later = .ok (.loaded b) →
        b.identity ≠ a.identity

/-- The last of an identity among the artifacts is the one from the last of the files. -/
theorem find?_eq_some_iff_isLast {identity : String} {a : Artifact} :
    (paths.filterMap (carried? w)).reverse.find? (·.identity == identity) = some a
      ↔ a.identity = identity ∧ IsLast w paths a := by
  -- in the reversed list, what comes before the one that is found comes after it in the files
  rw [List.find?_eq_some_iff_append]
  constructor
  · rintro ⟨hidentity, after, before, hsplit, hafter⟩
    rw [List.reverse_eq_iff, List.reverse_append, List.reverse_cons, List.append_assoc,
      List.singleton_append] at hsplit
    obtain ⟨front, back, rfl, -, hback⟩ := List.filterMap_eq_append_iff.1 hsplit
    obtain ⟨skipped, path, later, rfl, -, hpath, hlater⟩ := List.filterMap_eq_cons_iff.1 hback
    have same : a.identity = identity := beq_iff_eq.1 hidentity
    refine ⟨same, front ++ skipped, path, later, by rw [List.append_assoc],
      carried?_eq_some_iff.1 hpath, ?_⟩
    intro path' hmem b hload
    have hb : b ∈ after.reverse := by
      rw [← hlater]
      exact List.mem_filterMap.2 ⟨path', hmem, carried?_eq_some_iff.2 hload⟩
    have differs := hafter b (List.mem_reverse.1 hb)
    rw [same]
    simpa using differs
  · rintro ⟨rfl, front, path, later, rfl, hload, hlater⟩
    refine ⟨beq_self_eq_true _, (later.filterMap (carried? w)).reverse,
      (front.filterMap (carried? w)).reverse, ?_, ?_⟩
    · rw [List.filterMap_append, List.filterMap_cons_some (carried?_eq_some_iff.2 hload),
        List.reverse_append, List.reverse_cons, List.append_assoc, List.singleton_append]
    · intro b hb
      obtain ⟨path', hmem, hcarried⟩ := List.mem_filterMap.1 (List.mem_reverse.1 hb)
      have differs := hlater path' hmem b (carried?_eq_some_iff.1 hcarried)
      simpa using differs

/-- Where no artifact has an identity, none is the last. -/
theorem find?_reverse_eq_none {artifacts : List Artifact} {identity : String}
    (h : identity ∉ artifacts.map (·.identity)) :
    artifacts.reverse.find? (·.identity == identity) = none := by
  rw [List.find?_eq_none]
  intro a ha hsame
  exact h (List.mem_map.2 ⟨a, List.mem_reverse.1 ha, beq_iff_eq.1 hsame⟩)

/-- Where some artifact has an identity, one is the last. -/
theorem exists_isLast {identity : String}
    (h : identity ∈ (paths.filterMap (carried? w)).map (·.identity)) :
    ∃ a, (paths.filterMap (carried? w)).reverse.find? (·.identity == identity) = some a
      ∧ a.identity = identity ∧ IsLast w paths a := by
  obtain ⟨b, hb, hsame⟩ := List.mem_map.1 h
  have found :
      ((paths.filterMap (carried? w)).reverse.find? (·.identity == identity)).isSome = true := by
    rw [List.find?_isSome]
    exact ⟨b, List.mem_reverse.2 hb, beq_iff_eq.2 hsame⟩
  obtain ⟨a, ha⟩ := Option.isSome_iff_exists.1 found
  exact ⟨a, ha, find?_eq_some_iff_isLast.1 ha⟩

/-! ## Delivery -/

variable {config : MergeConfig} {directory : Path} {report : ImportReport} {input : Xml.Document}

/-- What the files carry fits and can be written, if what is loaded is plain and simple. -/
theorem of_carried
    (hloaded : ∀ path ∈ paths, ∀ a, w.load .addOnInstruction path = .ok (.loaded a) →
      a.payload.All (fun _ => True) Tag.IsPlain
        ∧ ArtifactKind.addOnInstruction.IsSimple a.payload) :
    ∀ a ∈ paths.filterMap (carried? w),
      a.Fits .addOnInstruction ∧ a.payload.All Leaf.IsWritable Tag.IsWritable := by
  refine forall_carried_iff.2 fun path hpath a hload => ?_
  obtain ⟨plain, simple⟩ := hloaded path hpath a hload
  obtain ⟨d, -, hd⟩ := map_eq_ok_iff.1 hload
  exact ⟨Artifact.fits_of_load hd simple, Workspace.isWritable_of_load hload plain⟩

/-- **A run delivers what the candidates carry.** It merges their definitions, one after the other
in ascending order of the files if these are a tree. The written file is read back; in it, the
definition of each identity that was merged is the one that was loaded last, and any other is what
it was in the input project. -/
theorem run_delivers (hrun : ((run config directory).run w).result = .ok report)
    (hinput : w.readDocument (directory.join config.inputProject) = .ok input)
    (hplain : input.IsPlain)
    (hroot : input.root.name ≠ ArtifactKind.addOnInstruction.tag)
    (hflat : ArtifactKind.addOnInstruction.AreFlat input.root.elements)
    (hunique : ∀ identity, Project.count ⟨input⟩ .addOnInstruction identity ≤ 1)
    (hloaded : ∀ path ∈ candidates config w directory, ∀ a,
      w.load .addOnInstruction path = .ok (.loaded a) →
      a.payload.All (fun _ => True) Tag.IsPlain
        ∧ ArtifactKind.addOnInstruction.IsSimple a.payload) :
    ∃ output,
      ((run config directory).run w).state.readDocument (directory.join config.outputProject)
        = .ok output
        ∧ report.merged.map (·.name)
            = ((candidates config w directory).filterMap (carried? w)).map (·.identity)
        ∧ (w.IsTree → (candidates config w directory).Pairwise Path.Precedes)
        ∧ (∀ identity ∈ report.merged.map (·.name), ∃ a, a.identity = identity
            ∧ IsLast w (candidates config w directory) a
            ∧ Project.find? ⟨output⟩ .addOnInstruction identity = some a.payload.joinText)
        ∧ ∀ identity, identity ∉ report.merged.map (·.name) →
            Project.find? ⟨output⟩ .addOnInstruction identity
              = (Project.find? ⟨input⟩ .addOnInstruction identity).map (·.joinText) := by
  obtain ⟨input', merged, outcomes, hread, hmerges, hnames, hwrite⟩ := exists_of_run hrun
  obtain rfl : input = input' := Except.ok.inj (hinput.symm.trans hread)
  have loaded := of_carried hloaded
  obtain ⟨rfl, hfind⟩ :=
    Project.of_mergeAll (by decide) hroot hflat hunique (fun a ha => (loaded a ha).1) hmerges
  have writable : (Project.mk input).document.IsWritable :=
    (Workspace.isSound_of_readDocument hinput).isWritable hplain
  have written :=
    Project.isWritable_foldl_put .addOnInstruction writable fun a ha => (loaded a ha).2
  refine ⟨_, Workspace.readDocument_of_readText written (Workspace.readText_writeText hwrite),
    hnames, fun htree => htree.pairwise_filesWithExtension directory config.extension, ?_, ?_⟩
  · intro identity hidentity
    rw [hnames] at hidentity
    obtain ⟨a, hlast, own, last⟩ := exists_isLast hidentity
    refine ⟨a, own, last, ?_⟩
    rw [Project.find?_joinText, hfind, hlast]
    rfl
  · intro identity hidentity
    rw [hnames] at hidentity
    rw [Project.find?_joinText, hfind, find?_reverse_eq_none hidentity]
    rfl

/-- Candidates that are listed with what comes of loading them can be loaded. -/
theorem exists_load_of_loads {loads : List (Path × LoadOutcome)}
    (hcandidates : candidates config w directory = loads.map (·.1))
    (hloads : ∀ pair ∈ loads, w.load .addOnInstruction pair.1 = .ok pair.2) :
    ∀ path ∈ candidates config w directory, ∃ loaded,
      w.load .addOnInstruction path = .ok loaded := by
  intro path hpath
  rw [hcandidates] at hpath
  obtain ⟨pair, hpair, rfl⟩ := List.mem_map.1 hpath
  exact ⟨pair.2, hloads pair hpair⟩

/-- A directory with a project that has definitions of `A` and `B`, and with exports of `A`, of `C`,
and of `A` again. -/
def station : Workspace where
  entries :=
    [(["1.L5X"], .text (Project.exporting (Project.definition "A" "new")).render),
      (["2.L5X"], .text (Project.exporting (Project.definition "C" "new")).render),
      (["3.L5X"], .text (Project.exporting (Project.definition "A" "newest")).render),
      (["unittest.L5X"], .text Project.scattered.document.render)]

/-- The candidates of the directory in order, and what comes of loading them; the project is one of
them. -/
def stationLoads : List (Path × LoadOutcome) :=
  [(⟨"1.L5X"⟩, .loaded ⟨.addOnInstruction, "A", Project.definition "A" "new"⟩),
    (⟨"2.L5X"⟩, .loaded ⟨.addOnInstruction, "C", Project.definition "C" "new"⟩),
    (⟨"3.L5X"⟩, .loaded ⟨.addOnInstruction, "A", Project.definition "A" "newest"⟩),
    (⟨"unittest.L5X"⟩, .skipped (.wrongKind none))]

/-- The candidates are found in order. -/
theorem candidates_station : candidates {} station ⟨"."⟩ = stationLoads.map (·.1) := by
  have names : station.namesIn [] = ["1.L5X", "2.L5X", "3.L5X", "unittest.L5X"] :=
    List.mergeSort_of_pairwise (by decide)
  rw [candidates, Workspace.filesWithExtension_current rfl (by decide),
    show station.current = [] from rfl, names]
  decide +kernel

/-- The candidates are loaded. -/
theorem load_station :
    ∀ pair ∈ stationLoads, station.load .addOnInstruction pair.1 = .ok pair.2 := by
  simp only [stationLoads, List.forall_mem_cons]
  refine ⟨?_, ?_, ?_, ?_, List.forall_mem_nil _⟩
  · exact Workspace.load_of_readText (d := Project.exporting (Project.definition "A" "new"))
      (by decide) rfl
  · exact Workspace.load_of_readText (d := Project.exporting (Project.definition "C" "new"))
      (by decide) rfl
  · exact Workspace.load_of_readText (d := Project.exporting (Project.definition "A" "newest"))
      (by decide) rfl
  · exact Workspace.load_of_readText (d := Project.scattered.document) (by decide) rfl

/-- All candidates can be loaded. -/
theorem loads_station :
    ∀ path ∈ candidates {} station ⟨"."⟩, ∃ loaded,
      station.load .addOnInstruction path = .ok loaded :=
  exists_load_of_loads candidates_station load_station

/-- The candidates carry the updates. -/
theorem carried_station :
    (candidates {} station ⟨"."⟩).filterMap (carried? station) = Project.updates := by
  have carried : ∀ pair ∈ stationLoads, (carried? station ∘ (·.1)) pair = pair.2.artifact? := by
    intro pair hpair
    rw [Function.comp_apply, carried?, load_station pair hpair]
  rw [candidates_station, List.filterMap_map, List.filterMap_congr carried]
  rfl

/-- The project in the directory. -/
theorem read_station : station.readDocument ⟨"./unittest.L5X"⟩ = .ok Project.scattered.document :=
  Workspace.readDocument_of_readText (d := Project.scattered.document) (by decide) rfl

/-- Its definitions have distinct identities. -/
theorem count_scattered (identity : String) :
    Project.scattered.count .addOnInstruction identity ≤ 1 :=
  Project.count_le_one_of_nodup (by decide) identity

/-- A run in the directory succeeds. -/
theorem exists_run_station : ∃ report, ((run {} ⟨"."⟩).run station).result = .ok report := by
  have target : station.target ⟨"./out.L5X"⟩ = .ok ["out.L5X"] := by decide
  have simple : ∀ a ∈ Project.updates, ArtifactKind.addOnInstruction.IsSimple a.payload := by
    decide
  have fits : ∀ a ∈ Project.updates, a.Fits .addOnInstruction :=
    fun a ha => Artifact.fits_of_load (Project.load_updates a ha) (simple a ha)
  have regular : Project.scattered.IsRegular .addOnInstruction := by decide
  obtain ⟨outcomes, merges⟩ :=
    Project.mergeAll_eq_foldl (by decide) regular fits fun a _ => count_scattered a.identity
  rw [← carried_station] at merges
  obtain ⟨report, success, -⟩ :=
    exists_run read_station loads_station merges (Workspace.exists_writeText target)
  exact ⟨report, success⟩

/-- A run in the directory delivers `A` and `C` as they were last exported, and keeps `B`. -/
theorem run_delivers_station :
    ∃ report output, ((run {} ⟨"."⟩).run station).result = .ok report
      ∧ ((run {} ⟨"."⟩).run station).state.readDocument ⟨"./out.L5X"⟩ = .ok output
      ∧ report.merged.map (·.name) = ["A", "C", "A"]
      ∧ (stationLoads.map (·.1)).Pairwise Path.Precedes
      ∧ Project.find? ⟨output⟩ .addOnInstruction "A" = some (Project.definition "A" "newest")
      ∧ Project.find? ⟨output⟩ .addOnInstruction "C" = some (Project.definition "C" "new")
      ∧ Project.find? ⟨output⟩ .addOnInstruction "B"
          = some ⟨⟨"AddOnInstructionDefinition", [("Name", "B")]⟩, .empty⟩ := by
  obtain ⟨report, success⟩ := exists_run_station
  have plain : ∀ path ∈ candidates {} station ⟨"."⟩, ∀ a,
      station.load .addOnInstruction path = .ok (.loaded a) →
      a.payload.All (fun _ => True) Tag.IsPlain
        ∧ ArtifactKind.addOnInstruction.IsSimple a.payload := by
    have all : ∀ a ∈ Project.updates,
        a.payload.All (fun _ => True) Tag.IsPlain
          ∧ ArtifactKind.addOnInstruction.IsSimple a.payload := by decide
    rw [← carried_station] at all
    exact forall_carried_iff.1 all
  obtain ⟨output, written, merged, ordered, delivered, kept⟩ :=
    run_delivers success read_station (by decide) (by decide) (by decide) count_scattered plain
  rw [carried_station] at merged
  have names : report.merged.map (·.name) = ["A", "C", "A"] := merged.trans (by decide)
  have last : ∀ {identity : String} {a : Artifact}, identity ∈ ["A", "C", "A"] →
      Project.updates.reverse.find? (·.identity == identity) = some a →
      Project.find? ⟨output⟩ .addOnInstruction identity = some a.payload.joinText := by
    intro identity a hidentity ha
    obtain ⟨b, own, hlast, found⟩ := delivered identity (names ▸ hidentity)
    have hb := find?_eq_some_iff_isLast.2 ⟨own, hlast⟩
    rw [carried_station, ha] at hb
    cases hb
    exact found
  refine ⟨report, output, success, written, names, ?_, ?_, ?_, ?_⟩
  · rw [← candidates_station]
    exact ordered (by decide)
  · exact last (a := ⟨.addOnInstruction, "A", Project.definition "A" "newest"⟩)
      (by decide) (by decide)
  · exact last (a := ⟨.addOnInstruction, "C", Project.definition "C" "new"⟩) (by decide) (by decide)
  · rw [kept "B" (by rw [names]; decide)]
    decide

end Import

end PlcWorkbench
