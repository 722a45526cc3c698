import PlcWorkbench.Proofs.Project.Batch
import PlcWorkbench.Proofs.Xml.Joined
import PlcWorkbench.Proofs.Xml.Reread

/-!
# Reopening a project between merges

Taking a definition out can leave two texts next to each other, which are one text when the project
is saved and opened again. A merge does the same to both projects: it looks at tags only, and its
edits pass over texts. So two projects that are the same up to joined texts stay the same up to
joined texts, merge by merge, with the same outcomes, and since no text in them is empty they are
written alike in the end.

* `merge_congr`, `mergeAll_congr` : merges respect equality up to joined texts;
* `isLegible_mergeAll` : merging keeps a project that was read one that can be read back;
* `mergeAll_reopen` : saving and reopening between merges changes nothing.
-/

namespace PlcWorkbench

open Xml (Leaf Tag Content Element)

/-! ## Projects up to joined texts -/

namespace Project

variable {p q : Project} {artifacts : List Artifact}

/-- The project with the texts in its tree joined. -/
def joinText (p : Project) : Project := ⟨p.document.joinText⟩

/-- Around roots that are the same up to joined texts, projects that are the same up to joined texts
stay so. -/
theorem withRoot_congr (h : p.joinText = q.joinText) {root root' : Element}
    (hroot : root.joinText = root'.joinText) :
    (p.withRoot root).joinText = (q.withRoot root').joinText := by
  have declaration := congrArg (·.document.declaration) h
  have prolog := congrArg (·.document.prolog) h
  simp only [joinText, Xml.Document.joinText] at declaration prolog
  simp only [joinText, withRoot, Xml.Document.joinText, declaration, prolog, hroot]

/-- **Step.** A merge does the same to projects that are the same up to joined texts. -/
theorem merge_congr (h : p.joinText = q.joinText) (a : Artifact) :
    (p.merge a).1.joinText = (q.merge a).1.joinText ∧ (p.merge a).2 = (q.merge a).2 := by
  have root : p.document.root.joinText = q.document.root.joinText := congrArg (·.document.root) h
  have dropped : (p.document.root.dropFirst (a.kind.defines a.identity)).joinText
      = (q.document.root.dropFirst (a.kind.defines a.identity)).joinText :=
        Element.dropFirst_congr root
  simp only [merge_eq, Element.isSome_findFirst?_congr root,
    Element.isSome_findFirst?_congr dropped, Element.tags_congr root]
  split
  · split
    · exact ⟨withRoot_congr h (Element.extendFirst_congr dropped), rfl⟩
    · exact ⟨withRoot_congr h dropped, rfl⟩
  · exact ⟨h, rfl⟩

/-- **Run.** So does any number of merges. -/
theorem mergeAll_congr (h : p.joinText = q.joinText) (artifacts : List Artifact) :
    (p.mergeAll artifacts).1.joinText = (q.mergeAll artifacts).1.joinText
      ∧ (p.mergeAll artifacts).2 = (q.mergeAll artifacts).2 := by
  induction artifacts generalizing p q with
  | nil => exact ⟨h, rfl⟩
  | cons a rest ih =>
    obtain ⟨same, outcomes⟩ := merge_congr h a
    rw [mergeAll, mergeAll]
    rcases hp : p.merge a with ⟨p', result⟩
    rcases hq : q.merge a with ⟨q', result'⟩
    rw [hp, hq] at same outcomes
    obtain rfl : result = result' := outcomes
    cases result with
    | error cause => exact ⟨same, rfl⟩
    | ok outcome =>
      obtain ⟨same', outcomes'⟩ := ih same
      exact ⟨same', congrArg (Except.map (outcome :: ·)) outcomes'⟩

end Project

/-! ## What merging keeps -/

/-- What was loaded from a document that was read can be read back, if its names are clean, and no
text in it is empty. -/
theorem Artifact.isLegible_of_load {kind : ArtifactKind} {a : Artifact} {source : String}
    {d : Xml.Document} (hparse : Xml.Document.parse source = .ok d) (h : kind.load d = .loaded a)
    (hclean : a.payload.All (fun _ => True) Tag.IsClean) :
    a.payload.All Leaf.IsWritable Tag.IsLegible ∧ a.payload.All Leaf.IsFilled (fun _ => True) := by
  have sound := all_of_load h (Xml.Document.isSound_of_parse hparse).root
  refine ⟨(sound.and hclean).imp (fun _ hl => hl.1) fun _ ht => ⟨ht.2, ht.1⟩, ?_⟩
  exact all_of_load h (Xml.Document.isFilled_of_parse hparse)

namespace Project

variable {p q : Project} {artifacts : List Artifact}

/-- Merging what can be read back into what can be read back keeps it so. -/
theorem isLegible_mergeAll (h : p.document.IsLegible)
    (ha : ∀ a ∈ artifacts, a.payload.All Leaf.IsWritable Tag.IsLegible) :
    (p.mergeAll artifacts).1.document.IsLegible := by
  obtain ⟨root, hroot, -, hall⟩ := exists_withRoot_mergeAll p artifacts
  rw [hroot]
  exact ⟨h.declaration, h.prolog, hall h.root ha⟩

/-- Merging leaves no empty text, if there was none. -/
theorem isFilled_mergeAll (h : p.document.root.All Leaf.IsFilled (fun _ => True))
    (ha : ∀ a ∈ artifacts, a.payload.All Leaf.IsFilled (fun _ => True)) :
    (p.mergeAll artifacts).1.document.root.All Leaf.IsFilled (fun _ => True) := by
  obtain ⟨root, hroot, -, hall⟩ := exists_withRoot_mergeAll p artifacts
  rw [hroot]
  exact hall h ha

/-- Projects that are the same up to joined texts are written alike, if no text is empty. -/
theorem render_congr (h : p.joinText = q.joinText)
    (hp : p.document.root.All Leaf.IsFilled (fun _ => True))
    (hq : q.document.root.All Leaf.IsFilled (fun _ => True)) :
    p.document.render = q.document.render := by
  rw [← Xml.Document.render_joinText hp, ← Xml.Document.render_joinText hq]
  exact congrArg (fun r => Xml.Document.render r.document) h

/-! ## Saving and reopening -/

/-- **Saving and reopening between merges changes nothing.** What is written after the first merges
is read back; the other merges succeed on it, each with the outcome that it has without, and what is
written in the end is the same. -/
theorem mergeAll_reopen {source : String} {d : Xml.Document}
    (hparse : Xml.Document.parse source = .ok d) (hclean : d.IsClean) {before after : List Artifact}
    (hload : ∀ a ∈ before ++ after,
      ∃ (kind : ArtifactKind) (text : String) (exported : Xml.Document),
      Xml.Document.parse text = .ok exported ∧ kind.load exported = .loaded a)
    (hpayload : ∀ a ∈ before ++ after, a.payload.All (fun _ => True) Tag.IsClean)
    {p q : Project} {outcomes outcomes' : List MergeOutcome}
    (hbefore : mergeAll ⟨d⟩ before = (p, .ok outcomes))
    (hafter : p.mergeAll after = (q, .ok outcomes')) :
    ∃ (reopened : Xml.Document) (q' : Project), Xml.Document.parse p.document.render = .ok reopened
      ∧ mergeAll ⟨reopened⟩ after = (q', .ok outcomes')
      ∧ q'.document.render = q.document.render := by
  have loaded : ∀ a ∈ before ++ after,
      a.payload.All Leaf.IsWritable Tag.IsLegible
        ∧ a.payload.All Leaf.IsFilled (fun _ => True) := by
    intro a ha
    obtain ⟨kind, text, exported, hexported, hkind⟩ := hload a ha
    exact Artifact.isLegible_of_load hexported hkind (hpayload a ha)
  rw [List.forall_mem_append] at loaded
  obtain ⟨first, second⟩ := loaded
  -- what is saved can be read back, and no text in it is empty
  have legible :=
    isLegible_mergeAll (p := ⟨d⟩) ((Xml.Document.isSound_of_parse hparse).isLegible hclean)
    fun a ha => (first a ha).1
  have filled :=
    isFilled_mergeAll (p := ⟨d⟩) (Xml.Document.isFilled_of_parse hparse) fun a ha => (first a ha).2
  rw [hbefore] at legible filled
  have reread := legible.parse_eq
  -- the reopened project and the one that was saved are the same up to joined texts
  have start : (Project.mk p.document.joinText).joinText = p.joinText :=
    congrArg Project.mk (Xml.Document.joinText_joinText p.document)
  obtain ⟨same, outcome⟩ := mergeAll_congr start after
  rw [hafter] at same outcome
  refine ⟨_, _, reread, Prod.ext rfl outcome, ?_⟩
  have finished := isFilled_mergeAll filled fun a ha => (second a ha).2
  rw [hafter] at finished
  exact render_congr same (isFilled_mergeAll (Xml.Document.isFilled_of_parse reread) fun a ha =>
    (second a ha).2)
    finished

/-- A project with a definition of `A` between two texts. -/
def interrupted : Project where
  document := .ofRoot
    { name := "Controller"
      content :=
        .leaf (.text "before") <|
        .element ⟨"AddOnInstructionDefinition", [("Name", "A")]⟩ .empty <|
        .leaf (.text "after") <|
        .element ⟨"AddOnInstructionDefinitions", []⟩ .empty .empty }

/-- When `A` is merged, the texts before and after it come to stand next to each other. Merging `C`
and `A` again has the same outcomes whether they are joined in between or not. -/
theorem mergeAll_reopen_interrupted :
    ∃ (p q q' : Project) (reopened : Xml.Document),
      interrupted.mergeAll (updates.take 1) = (p, .ok [.replaced]) ∧ p.joinText ≠ p
        ∧ p.mergeAll (updates.drop 1) = (q, .ok [.inserted, .replaced])
        ∧ Xml.Document.parse p.document.render = .ok reopened
        ∧ mergeAll ⟨reopened⟩ (updates.drop 1) = (q', .ok [.inserted, .replaced])
        ∧ q'.document.render = q.document.render := by
  have parse : ∀ d : Xml.Document, d.IsWritable → d.joinText = d →
      Xml.Document.parse d.render = .ok d := by
    intro d writable joined
    rw [writable.isLegible.parse_eq, joined]
  have export_eq : ∀ a ∈ updates, (exporting a.payload).IsWritable
      ∧ (exporting a.payload).joinText = exporting a.payload := by decide
  have first : interrupted.mergeAll (updates.take 1)
      = ((interrupted.mergeAll (updates.take 1)).1, .ok [.replaced]) := by decide
  have second : (interrupted.mergeAll (updates.take 1)).1.mergeAll (updates.drop 1)
      = (((interrupted.mergeAll (updates.take 1)).1.mergeAll (updates.drop 1)).1,
          .ok [.inserted, .replaced]) := by
    decide
  obtain ⟨reopened, q', reread, merges, same⟩ :=
    mergeAll_reopen (parse interrupted.document (by decide) (by decide)) (by decide)
      (fun a ha =>
        have ⟨writable, joined⟩ := export_eq a ha
        ⟨_, _, _, parse _ writable joined, load_updates a ha⟩)
      (by decide) first second
  exact ⟨_, _, q', reopened, first, by decide, second, reread, merges, same⟩

end Project

end PlcWorkbench
