import PlcWorkbench.Proofs.Project.Outcome
import PlcWorkbench.Proofs.Xml.Removal

/-!
# Merges that fail

A merge looks for the container twice, before and after it takes a definition out. If the first
search fails, nothing has been touched. The second one fails if every container was inside that
definition, and then the definition is gone.

* `exists_containerNotFound_of_mergeAll` : for which reason merges fail;
* `LosesContainers` : a merge takes every container out;
* `merge_eq_of_losesContainers` : what it leaves;
* `merge_isAtomic_iff` : when a merge that fails changes nothing.
-/

namespace PlcWorkbench

open Xml (Element)

namespace Project

variable {p : Project} {a : Artifact}

/-! ## The failure -/

/-- A merge fails for want of a container. -/
theorem eq_containerNotFound_of_merge {q : Project} {cause : Failure}
    (h : p.merge a = (q, .error cause)) :
    cause = .containerNotFound a.kind.containerTag := by
  rw [merge_eq] at h
  split at h
  · dsimp only at h
    split at h
    · cases h
    · cases h
      rfl
  · cases h
    rfl

/-- A batch of merges fails for want of a container. -/
theorem exists_containerNotFound_of_mergeAll {artifacts : List Artifact} {q : Project}
    {cause : Failure} (h : p.mergeAll artifacts = (q, .error cause)) :
    ∃ container, cause = .containerNotFound container := by
  induction artifacts generalizing p with
  | nil => cases h
  | cons a rest ih =>
    rw [mergeAll] at h
    rcases hmerge : p.merge a with ⟨next, failed | outcome⟩
    · rw [hmerge] at h
      cases h
      exact ⟨_, eq_containerNotFound_of_merge hmerge⟩
    · rw [hmerge] at h
      rcases hrest : next.mergeAll rest with ⟨last, failed | others⟩
      · simp only [hrest] at h
        cases h
        exact ih hrest
      · simp only [hrest] at h
        cases h

/-! ## What a failure leaves -/

/-- The definition that a merge of the artifact takes out has every container of the project inside
it, and there is one. -/
def LosesContainers (p : Project) (a : Artifact) : Prop :=
  ∃ found, p.document.root.content.elements.find? (a.kind.isDefinition a.identity) = some found
    ∧ found.findAll a.kind.containerTag ≠ []
    ∧ p.document.root.findAll a.kind.containerTag = found.findAll a.kind.containerTag

/-- Every container is taken out if one is found at first, and none without the definition. -/
theorem losesContainers_iff :
    p.LosesContainers a
      ↔ (p.document.root.findFirst? a.kind.containerTag).isSome = true
        ∧ (p.document.root.dropFirst (a.kind.defines a.identity)).findFirst? a.kind.containerTag
            = none := by
  rw [LosesContainers, ← Element.map_fst_removeFirst?, Element.dropFirst_eq_getD,
    ← ArtifactKind.isDefinition_eq_defines, Option.isSome_iff_ne_none, ne_eq,
    Element.findFirst?_eq_none_iff_findAll]
  cases hremoved : p.document.root.removeFirst? (a.kind.isDefinition a.identity) with
  | none =>
    -- without a definition the two searches are the same
    rw [Option.map_none, Option.map_none, Option.getD_none, Element.findFirst?_eq_none_iff_findAll]
    exact iff_of_false (fun ⟨found, hfound, _⟩ => by cases hfound) fun ⟨hsome, hnone⟩ => hsome hnone
  | some pair =>
    obtain ⟨found, root⟩ := pair
    rw [Option.map_some, Option.map_some, Option.getD_some,
      Element.findFirst?_eq_none_iff_of_removeFirst? hremoved]
    constructor
    · rintro ⟨_, ⟨⟩, hfilled, hinside⟩
      exact ⟨hinside ▸ hfilled, hinside⟩
    · rintro ⟨hfilled, hinside⟩
      exact ⟨found, rfl, hinside ▸ hfilled, hinside⟩

/-- **A merge that takes every container out** fails, and leaves the project without the
definition. -/
theorem merge_eq_of_losesContainers (h : p.LosesContainers a) :
    p.merge a = (p.withRoot (p.document.root.dropFirst (a.kind.defines a.identity)),
      .error (.containerNotFound a.kind.containerTag)) := by
  obtain ⟨hbefore, hafter⟩ := losesContainers_iff.1 h
  rw [merge_eq, if_pos hbefore]
  simp only [hafter]
  rfl

/-- Any other merge fails only if there is no container. -/
theorem findFirst?_eq_none_of_not_losesContainers (h : ¬ p.LosesContainers a) {cause : Failure}
    (hfailed : (p.merge a).2 = .error cause) :
    p.document.root.findFirst? a.kind.containerTag = none := by
  by_contra hbefore
  rw [← ne_eq, ← Option.isSome_iff_ne_none] at hbefore
  have hafter := mt (fun hnone => losesContainers_iff.2 ⟨hbefore, hnone⟩) h
  rw [← ne_eq, ← Option.isSome_iff_ne_none] at hafter
  rw [merge_eq, if_pos hbefore] at hfailed
  simp only [if_pos hafter] at hfailed
  cases hfailed

/-- **A merge that fails leaves the project as it was** unless the definition that it took out had
every container inside it. -/
theorem merge_isAtomic_iff (p : Project) (a : Artifact) :
    (∀ cause, (p.merge a).2 = .error cause → (p.merge a).1 = p) ↔ ¬ p.LosesContainers a := by
  constructor
  · intro atomic loses
    have hmerge := merge_eq_of_losesContainers loses
    have left := atomic _ (congrArg Prod.snd hmerge)
    rw [hmerge] at left
    -- the container is found in what was there, and not in what is left
    obtain ⟨hbefore, hafter⟩ := losesContainers_iff.1 loses
    rw [show p.document.root.dropFirst (a.kind.defines a.identity) = p.document.root from
      congrArg (·.document.root) left] at hafter
    rw [hafter] at hbefore
    cases hbefore
  · intro kept cause hfailed
    rw [merge_eq_error (findFirst?_eq_none_of_not_losesContainers kept hfailed)]

/-- A project whose only container is inside a definition of `A`. -/
def enclosed : Project where
  document := .ofRoot
    { name := "Controller"
      content :=
        .element ⟨"AddOnInstructionDefinition", [("Name", "A")]⟩
          (.element ⟨"AddOnInstructionDefinitions", []⟩ .empty .empty) .empty }

/-- Merging an export of `A` into it fails and empties the controller. -/
theorem not_isAtomic_enclosed :
    ArtifactKind.addOnInstruction.load (exporting (definition "A" "new"))
        = .loaded ⟨.addOnInstruction, "A", definition "A" "new"⟩
      ∧ enclosed.merge ⟨.addOnInstruction, "A", definition "A" "new"⟩
        = (⟨.ofRoot { name := "Controller" }⟩,
            .error (.containerNotFound "AddOnInstructionDefinitions"))
      ∧ enclosed ≠ ⟨.ofRoot { name := "Controller" }⟩ := by
  refine ⟨rfl, by decide, by decide⟩

end Project

end PlcWorkbench
