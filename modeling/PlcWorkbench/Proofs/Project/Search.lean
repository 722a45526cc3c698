import PlcWorkbench.Proofs.Project.Merge
import PlcWorkbench.Proofs.Xml.Listing

/-!
# Searching a project

The definitions of a project are searched anywhere in the tree, while their names are taken from the
container. Since the container is one of the elements of the tree and its children are among those
inside it, every name that is listed belongs to a definition that is found.

* `names_sublist` : the names in the container are among the identities of all definitions;
* `exists_find?` : a definition is found for each of them;
* `searches_agree` : searching and editing trees and projects agree.
-/

namespace PlcWorkbench

open Xml (Element)

namespace Project

variable {p : Project} {kind : ArtifactKind} {listed : List String} {identity : String}

/-- The names are those of the definitions among the children of the container. -/
theorem exists_container_of_names (h : p.names kind = .ok listed) :
    ∃ container ∈ p.document.root.elements,
      listed = (container.content.children.filter (·.name == kind.tag)).filterMap
        (·.attribute? kind.identityKey) := by
  unfold names Project.container at h
  split at h
  · rename_i found hfound
    cases h
    exact ⟨found, (Element.mem_elements_of_findFirst? hfound).1, rfl⟩
  · cases h

/-- **The names in the container** are among the identities of the definitions, in the same
order. -/
theorem names_sublist (h : p.names kind = .ok listed) :
    listed.Sublist ((p.document.root.findAll kind.tag).filterMap
      (·.attribute? kind.identityKey)) := by
  obtain ⟨container, hmem, rfl⟩ := exists_container_of_names h
  have inside : container.content.children.Sublist p.document.root.elements :=
    calc
      container.content.children.Sublist container.content.elements :=
        Xml.Content.children_sublist_elements _
      List.Sublist _ container.elements := List.sublist_cons_self _ _
      List.Sublist _ p.document.root.elements := Element.elements_sublist_of_mem hmem
  rw [Element.findAll_eq_filter]
  exact (inside.filter _).filterMap _

/-- A definition is found for each identity of one. -/
theorem exists_find?
    (h : identity ∈ (p.document.root.findAll kind.tag).filterMap (·.attribute? kind.identityKey)) :
    ∃ found ∈ p.document.root.findAll kind.tag,
      p.find? kind identity = some found ∧ found.attribute? kind.identityKey = some identity := by
  obtain ⟨e, he, hidentity⟩ := List.mem_filterMap.1 h
  have found :
      ((p.document.root.findAll kind.tag).find? (kind.identifies identity)).isSome = true := by
    rw [List.find?_isSome]
    exact ⟨e, he, beq_iff_eq.2 hidentity⟩
  obtain ⟨first, hfirst⟩ := Option.isSome_iff_exists.1 found
  have identified : kind.identifies identity first = true := List.find?_some hfirst
  exact ⟨first, List.mem_of_find?_eq_some hfirst, hfirst, beq_iff_eq.1 identified⟩

/-- **Searches agree.** In every tree, the listing of a name, the search for its first element and
the edit of that element go by the same order, and each edit of one element keeps its name. In a
project, the names in the container are among the identities of all definitions, and a definition is
found for each of them. -/
theorem searches_agree (p : Project) (kind : ArtifactKind) :
    (∀ (e : Element) (name : String), e.SearchesAgree name)
      ∧ (∀ (edit : Xml.Edit) (e : Element), (edit.perform e).2.name = e.name)
      ∧ ∀ listed, p.names kind = .ok listed →
        listed.Sublist ((p.document.root.findAll kind.tag).filterMap
          (·.attribute? kind.identityKey))
          ∧ ∀ identity ∈ listed, ∃ found ∈ p.document.root.findAll kind.tag,
            p.find? kind identity = some found ∧ found.attribute? kind.identityKey
              = some identity := by
  refine ⟨Element.searchesAgree, Xml.Edit.name_perform, ?_⟩
  intro listed hnames
  have among := names_sublist hnames
  exact ⟨among, fun identity hidentity => exists_find? (among.subset hidentity)⟩

/-- A definition of `A` that holds one of `B`, ahead of a container with one of each. -/
def layered : Project where
  document := .ofRoot
    { name := "Controller"
      content :=
        .element ⟨"AddOnInstructionDefinition", [("Name", "A")]⟩
          (.element ⟨"AddOnInstructionDefinition", [("Name", "B")]⟩
            (.ofLeaf (.text "inner")) .empty) <|
        .element ⟨"AddOnInstructionDefinitions", []⟩
          (.element ⟨"AddOnInstructionDefinition", [("Name", "B")]⟩ .empty <|
            .element ⟨"AddOnInstructionDefinition", [("Name", "A")]⟩ .empty .empty) .empty }

/-- Emptying the definition of `A` shows in its block only, and there is one still for each name in
the container. -/
theorem searches_agree_layered :
    (∃ (root' : Element) (s : Xml.Spot),
        layered.document.root.updateFirst? "AddOnInstructionDefinition"
          (Xml.Edit.removeFirst fun _ => true).perform
            = some (some ⟨⟨"AddOnInstructionDefinition", [("Name", "B")]⟩, .ofLeaf (.text "inner")⟩,
                root')
          ∧ root'.findFirst? "AddOnInstructionDefinition"
            = some ⟨⟨"AddOnInstructionDefinition", [("Name", "A")]⟩, .empty⟩
          ∧ root'.rows = s.before
            ++ (Element.rowsAt ⟨⟨"AddOnInstructionDefinition", [("Name", "A")]⟩, .empty⟩ s.depth
                ++ s.after))
      ∧ layered.names .addOnInstruction = .ok ["B", "A"]
      ∧ ∃ found ∈ layered.document.root.findAll "AddOnInstructionDefinition",
        layered.find? .addOnInstruction "B" = some found ∧ found.attribute? "Name" = some "B" := by
  obtain ⟨searches, -, named⟩ := searches_agree layered .addOnInstruction
  have listed : layered.names .addOnInstruction = .ok ["B", "A"] := by decide
  obtain ⟨root', s, hupdate, hfound, -, -, hrows⟩ :=
    (searches layered.document.root "AddOnInstructionDefinition").edited
      (Xml.Edit.removeFirst fun _ => true).perform
      _ _ rfl rfl
  exact ⟨⟨root', s, hupdate, hfound, hrows⟩, listed, (named _ listed).2 "B" (by decide)⟩

end Project

end PlcWorkbench
