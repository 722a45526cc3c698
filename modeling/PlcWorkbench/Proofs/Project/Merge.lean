import PlcWorkbench.Project
import PlcWorkbench.Proofs.Project.Flat
import Mathlib.Data.List.Nodup

/-!
# Merging into a project

A project is regular for a kind of artifact if it has a container, its root is no definition, and it
is flat. In a regular project a merge is a `replace`: the definitions of one identity are dropped
wherever they stand, and the new one is put at the end of the container.

* `tree_replace`, `replace_replace` : what a replacement makes of the tree, and of another
  replacement;
* `find?_replace`, `names_replace` : the definitions that are found afterwards, and those in the
  container;
* `merge_eq_put` : a merge of an artifact whose identity is unique is a replacement;
* `merge_isFiniteMap` : merging behaves as an update of a finite map.
-/

namespace PlcWorkbench

open Xml (Tag Content Element)

variable {kind : ArtifactKind}

namespace ArtifactKind

variable {identity : String}

/-! ## Identities -/

/-- Whether an element has this identity, whatever its name. -/
def identifies (kind : ArtifactKind) (identity : String) (e : Element) : Bool :=
  e.attribute? kind.identityKey == some identity

/-- A definition has the name of one and the identity. -/
theorem isDefinition_eq_and (e : Element) :
    kind.isDefinition identity e = (kind.identifies identity e && e.name == kind.tag) :=
  Bool.and_comm _ _

/-- The identities of the definitions among elements with these tags. -/
def identities (kind : ArtifactKind) (tags : List Tag) : List String :=
  (tags.filter (·.name == kind.tag)).filterMap fun t =>
    Dictionary.get? t.attributes kind.identityKey

/-- The identities of more elements come after. -/
theorem identities_append (tags tags' : List Tag) :
    kind.identities (tags ++ tags') = kind.identities tags ++ kind.identities tags' := by
  rw [identities, List.filter_append, List.filterMap_append]
  rfl

/-- Without the definitions of an identity, the identity is gone and the others stay. -/
theorem identities_filter (tags : List Tag) :
    kind.identities (tags.filter fun t => !kind.defines identity t)
      = (kind.identities tags).filter (· ≠ identity) := by
  induction tags with
  | nil => rfl
  | cons t tags ih =>
    by_cases hname : t.name = kind.tag
    · cases hkey : Dictionary.get? t.attributes kind.identityKey with
      | none => simpa [identities, defines, hname, hkey] using ih
      | some identity' =>
        by_cases heq : identity' = identity
        · simpa [identities, defines, hname, hkey, heq] using ih
        · simpa [identities, defines, hname, hkey, heq] using ih
    · simpa [identities, defines, hname] using ih

end ArtifactKind

/-! ## Artifacts -/

/-- The payload is a definition of this kind, and it has the artifact's identity. -/
structure Artifact.IsOf (a : Artifact) (kind : ArtifactKind) : Prop where
  kind_eq : a.kind = kind
  name : a.payload.name = kind.tag
  identity : a.payload.attribute? kind.identityKey = some a.identity

/-- The payload is simple as well. -/
structure Artifact.Fits (a : Artifact) (kind : ArtifactKind) : Prop extends a.IsOf kind where
  simple : kind.IsSimple a.payload

namespace Artifact

variable {a : Artifact}

/-- What was loaded is the first definition of the document, with its identity. -/
theorem of_load {d : Xml.Document} (h : kind.load d = .loaded a) :
    a.kind = kind ∧ d.root.findFirst? kind.tag = some a.payload
      ∧ a.payload.attribute? kind.identityKey = some a.identity := by
  rw [ArtifactKind.load] at h
  split at h
  · split at h
    · cases h
    · rename_i definition hfound
      split at h
      · cases h
      · rename_i identity hidentity
        cases h
        exact ⟨rfl, hfound, hidentity⟩
  · cases h

/-- What every part of a document meets, every part of what is loaded from it meets. -/
theorem all_of_load {d : Xml.Document} (h : kind.load d = .loaded a) {onLeaf : Xml.Leaf → Prop}
    {onTag : Tag → Prop} (hall : d.root.All onLeaf onTag) : a.payload.All onLeaf onTag :=
  hall.of_mem (Element.mem_elements_of_findFirst? (of_load h).2.1).1

/-- What was loaded is of the kind that it was loaded for. -/
theorem isOf_of_load {d : Xml.Document} (h : kind.load d = .loaded a) : a.IsOf kind := by
  obtain ⟨hkind, hfound, hidentity⟩ := of_load h
  exact ⟨hkind, (Element.mem_elements_of_findFirst? hfound).2, hidentity⟩

/-- What was loaded, if it is simple, fits the kind that it was loaded for. -/
theorem fits_of_load {d : Xml.Document} (h : kind.load d = .loaded a)
    (hsimple : kind.IsSimple a.payload) :
    a.Fits kind :=
  ⟨isOf_of_load h, hsimple⟩

/-- The payload's tag defines the artifact's identity and no other. -/
theorem IsOf.defines_iff (h : a.IsOf kind) {identity : String} :
    kind.defines identity a.payload.toTag = true ↔ identity = a.identity := by
  rw [ArtifactKind.defines_iff, show Dictionary.get? a.payload.attributes kind.identityKey
      = _ from h.identity]
  constructor
  · intro hdef
    exact (Option.some.inj hdef.2).symm
  · rintro rfl
    exact ⟨h.name, rfl⟩

/-- The payload holds one definition, which is itself. -/
theorem Fits.findAll (h : a.Fits kind) :
    (Content.ofElement a.payload).findAll kind.tag = [a.payload] := by
  have inside : a.payload.content.findAll kind.tag = [] :=
    Content.findAll_eq_nil fun t ht => (ArtifactKind.isSimple_iff_tags.1 h.simple t ht).1
  rw [Content.findAll_ofElement, Element.findAll, if_pos h.name, inside]

/-- The payload's tag has the artifact's identity. -/
theorem IsOf.identities (h : a.IsOf kind) : kind.identities [a.payload.toTag] = [a.identity] := by
  have key : Dictionary.get? a.payload.attributes kind.identityKey = some a.identity := h.identity
  simp [ArtifactKind.identities, h.name, key]

/-- The payload is flat. -/
theorem Fits.flat (h : a.Fits kind) : kind.AreFlat (Content.ofElement a.payload).elements := by
  rw [Content.elements_ofElement, Element.elements, ArtifactKind.AreFlat, List.forall_mem_cons]
  exact ⟨fun _ => h.simple, fun e he hname => absurd hname (h.simple e he).1⟩

end Artifact

namespace Project

variable {p : Project} {identity : String} {drops : Tag → Bool} {more : Content}

/-! ## Regular projects -/

/-- There is a container, the root is no definition, and no definition holds another one or a
container. -/
structure IsRegular (kind : ArtifactKind) (p : Project) : Prop where
  container : (p.document.root.findFirst? kind.containerTag).isSome = true
  root : p.document.root.name ≠ kind.tag
  flat : kind.AreFlat p.document.root.elements

instance (p : Project) : Decidable (p.IsRegular kind) :=
  decidable_of_iff
    ((p.document.root.findFirst? kind.containerTag).isSome = true ∧ p.document.root.name ≠ kind.tag
      ∧ kind.AreFlat p.document.root.elements)
    ⟨fun ⟨container, root, flat⟩ => ⟨container, root, flat⟩, fun h => ⟨h.container, h.root, h.flat⟩⟩

/-- The root as a content of its own, in which it is searched and edited like any other element. -/
def tree (p : Project) : Content := .ofElement p.document.root

/-- The definitions in document order, at any depth. -/
def definitions (p : Project) (kind : ArtifactKind) : List Element :=
  p.document.root.findAll kind.tag

/-- How many definitions have this identity. -/
def count (p : Project) (kind : ArtifactKind) (identity : String) : Nat :=
  p.document.root.elements.countP (kind.isDefinition identity)

/-- The definitions are found in the tree. -/
theorem findAll_tree : p.tree.findAll kind.tag = p.definitions kind := Content.findAll_ofElement _

/-- The definitions are the elements with the name of one. -/
theorem definitions_eq_filter :
    p.definitions kind = p.document.root.elements.filter (·.name == kind.tag) := by
  rw [← findAll_tree, Content.findAll_eq_filter, tree, Content.elements_ofElement]

/-- Definitions are counted among the definitions. -/
theorem count_eq :
    p.count kind identity = (p.definitions kind).countP (kind.identifies identity) := by
  rw [definitions_eq_filter, List.countP_filter, count]
  congr
  funext e
  exact ArtifactKind.isDefinition_eq_and e

/-- Definitions with distinct identities are unique. -/
theorem count_le_one_of_nodup (h : ((p.definitions kind).map (·.attribute? kind.identityKey)).Nodup)
    (identity : String) : p.count kind identity ≤ 1 := by
  have once := List.nodup_iff_count_le_one.1 h (some identity)
  rw [List.count, List.countP_map] at once
  rw [count_eq]
  exact once

/-- A definition is looked for among the definitions. -/
theorem find?_eq : p.find? kind identity = (p.definitions kind).find? (kind.identifies identity) :=
  rfl

/-- A definition is not found if no element is one. -/
theorem find?_eq_none_iff :
    p.find? kind identity = none ↔ ∀ t ∈ p.tree.tags, kind.defines identity t = false := by
  rw [find?_eq, definitions_eq_filter, List.find?_eq_none, ← Content.forall_mem_elements
    (p := fun t => kind.defines identity t = false), tree, Content.elements_ofElement]
  simp only [List.mem_filter, beq_iff_eq, and_imp, ArtifactKind.defines, ArtifactKind.identifies,
    Element.attribute?, Bool.and_eq_false_imp, beq_eq_false_iff_ne, ne_eq]

/-- The identities in the container are those of its children. -/
theorem names_of_findFirst? {e : Element} (h : p.tree.findFirst? kind.containerTag = some e) :
    p.names kind = .ok (kind.identities (e.content.children.map (·.toTag))) := by
  rw [tree, Content.findFirst?_ofElement] at h
  rw [names, container, h, ArtifactKind.identities, List.filter_map, List.filterMap_map]
  rfl

namespace IsRegular

/-- No part of the tree is exempt from flatness. -/
theorem flat_tree (h : p.IsRegular kind) : kind.AreFlat p.tree.elements := by
  rw [tree, Content.elements_ofElement]
  exact h.flat

/-- The container is in the tree. -/
theorem container_tree (h : p.IsRegular kind) :
    (p.tree.findFirst? kind.containerTag).isSome = true := by
  rw [tree, Content.findFirst?_ofElement]
  exact h.container

/-- The root is no definition, so no definition is the root. -/
theorem drops_root (h : p.IsRegular kind) (hdrops : ∀ t, drops t = true → t.name = kind.tag) :
    drops p.document.root.toTag = false := by
  rw [← Bool.not_eq_true]
  exact fun hdrop => h.root (hdrops _ hdrop)

end IsRegular

/-! ## Replacing definitions -/

/-- The project without the definitions that meet the condition, and with more at the end of its
container. -/
def replace (p : Project) (kind : ArtifactKind) (drops : Tag → Bool) (more : Content) : Project :=
  p.withRoot ((p.document.root.prune drops).extendFirst kind.containerTag more)

/-- Replacing nothing by nothing. -/
theorem replace_empty : p.replace kind (fun _ => false) .empty = p := by
  have pruned : p.document.root.prune (fun _ => false) = p.document.root := by
    rw [Element.prune, Content.prune_eq_self fun _ _ => rfl]
  rw [replace, pruned, Element.extendFirst_empty]
  rfl

variable (hkind : kind.tag ≠ kind.containerTag)
include hkind

/-- The container is spared. -/
theorem IsRegular.findFirst?_prune (h : p.IsRegular kind)
    (hdrops : ∀ t, drops t = true → t.name = kind.tag) :
    (p.tree.prune drops).findFirst? kind.containerTag
      = (p.tree.findFirst? kind.containerTag).map fun e => e.prune drops :=
  Content.findFirst?_prune (ArtifactKind.ne_containerTag hkind hdrops) (h.flat_tree.spares hdrops)

/-- There is a container still. -/
theorem IsRegular.container_prune (h : p.IsRegular kind)
    (hdrops : ∀ t, drops t = true → t.name = kind.tag) :
    ((p.document.root.prune drops).findFirst? kind.containerTag).isSome = true := by
  rw [← Content.findFirst?_ofElement, ← Content.prune_ofElement (h.drops_root hdrops),
    show Content.ofElement _ = p.tree from rfl, h.findFirst?_prune hkind hdrops, Option.isSome_map]
  exact h.container_tree

/-- A replacement prunes the tree and fills the container. -/
theorem tree_replace (h : p.IsRegular kind) (more : Content)
    (hdrops : ∀ t, drops t = true → t.name = kind.tag) :
    (p.replace kind drops more).tree = (p.tree.prune drops).extendFirst kind.containerTag more := by
  have pruned : p.tree.prune drops = .ofElement (p.document.root.prune drops) :=
    Content.prune_ofElement (h.drops_root hdrops)
  rw [pruned, Content.extendFirst_ofElement (h.container_prune hkind hdrops)]
  rfl

/-- A replacement by what is flat keeps a project regular. -/
theorem IsRegular.replace (h : p.IsRegular kind) (hdrops : ∀ t, drops t = true → t.name = kind.tag)
    (hmore : kind.AreFlat more.elements) : (p.replace kind drops more).IsRegular kind := by
  have tree := tree_replace hkind h more hdrops
  refine ⟨?_, ?_, ?_⟩
  · rw [← Content.findFirst?_ofElement]
    rw [show Content.ofElement _ = _ from tree, Content.findFirst?_extendFirst, Option.isSome_map,
      h.findFirst?_prune hkind hdrops, Option.isSome_map]
    exact h.container_tree
  · rw [show (p.replace kind drops more).document.root.name = p.document.root.name from
      congrArg Tag.name (Element.toTag_extendFirst _)]
    exact h.root
  · rw [← Content.elements_ofElement, show Content.ofElement _ = _ from tree]
    exact (h.flat_tree.prune drops).extendFirst hkind hmore

/-- A replacement of a replacement drops what either drops, and adds what the second does not drop
of the first's addition before its own. -/
theorem replace_replace (h : p.IsRegular kind) {drops' : Tag → Bool} {more' : Content}
    (hdrops : ∀ t, drops t = true → t.name = kind.tag)
    (hdrops' : ∀ t, drops' t = true → t.name = kind.tag)
    (hmore : kind.AreFlat more.elements) :
    (p.replace kind drops more).replace kind drops' more'
      = p.replace kind (fun t => drops t || drops' t) ((more.prune drops').append more') := by
  have both : ∀ t, (drops t || drops' t) = true → t.name = kind.tag := by
    intro t ht
    rcases Bool.or_eq_true_iff.1 ht with hdrop | hdrop
    · exact hdrops t hdrop
    · exact hdrops' t hdrop
  -- the first addition is part of the tree that the second replacement prunes
  have trees : ((p.replace kind drops more).replace kind drops' more').tree
      = (p.replace kind (fun t => drops t || drops' t)
          ((more.prune drops').append more')).tree := by
    rw [tree_replace hkind (h.replace hkind hdrops hmore) _ hdrops', tree_replace hkind h _ hdrops,
      tree_replace hkind h _ both,
        Content.prune_extendFirst (ArtifactKind.ne_containerTag hkind hdrops')
        ((h.flat_tree.prune drops).spares hdrops'), Content.prune_prune,
        Content.extendFirst_extendFirst]
  exact congrArg p.withRoot (Content.ofElement_injective trees)

/-! ## What is found after a replacement -/

/-- The definitions after a replacement: the new ones stand somewhere between those that are
left. -/
theorem exists_definitions_replace (h : p.IsRegular kind) (more : Content)
    (hdrops : ∀ t, drops t = true → t.name = kind.tag) :
    ∃ before after, ((p.definitions kind).filter fun e => !drops e.toTag) = before ++ after ∧
      (p.replace kind drops more).definitions kind = before
        ++ (more.findAll kind.tag ++ after) := by
  rw [← findAll_tree, ← findAll_tree, tree_replace hkind h _ hdrops,
    ← h.flat_tree.findAll_prune hdrops]
  apply (h.flat_tree.prune drops).exists_findAll_extendFirst hkind
  rw [h.findFirst?_prune hkind hdrops, Option.isSome_map]
  exact h.container_tree

/-- A replacement counts the definitions that are left and the new ones. -/
theorem count_replace (h : p.IsRegular kind) (hdrops : ∀ t, drops t = true → t.name = kind.tag) :
    (p.replace kind drops more).count kind identity
      = ((p.definitions kind).filter fun e => !drops e.toTag).countP (kind.identifies identity)
        + (more.findAll kind.tag).countP (kind.identifies identity) := by
  obtain ⟨before, after, hold, hnew⟩ := exists_definitions_replace hkind h more hdrops
  rw [count_eq, hnew, hold, List.countP_append, List.countP_append, List.countP_append]
  omega

/-- A definition is found among those that are left, else among the new ones, if it is not among
both. -/
theorem find?_replace (h : p.IsRegular kind) (hdrops : ∀ t, drops t = true → t.name = kind.tag)
    (hone : ((p.definitions kind).filter fun e => !drops e.toTag).find? (kind.identifies identity)
      = none
      ∨ (more.findAll kind.tag).find? (kind.identifies identity) = none) :
    (p.replace kind drops more).find? kind identity
      = (((p.definitions kind).filter fun e => !drops e.toTag).find? (kind.identifies identity)).or
        ((more.findAll kind.tag).find? (kind.identifies identity)) := by
  obtain ⟨before, after, hold, hnew⟩ := exists_definitions_replace hkind h more hdrops
  rw [find?_eq, hnew]
  rw [hold] at hone ⊢
  rw [List.find?_append] at hone
  rw [List.find?_append, List.find?_append, List.find?_append]
  -- what is new stands between what is left, so the order of the search matters only if both have a
  -- match
  rcases hone with hnone | hnone
  · obtain ⟨hbefore, hafter⟩ := Option.or_eq_none_iff.1 hnone
    rw [hbefore, hafter, Option.or_none, Option.none_or, Option.none_or, Option.none_or]
  · rw [hnone, Option.or_none, Option.none_or]

/-- The container after a replacement. -/
theorem findFirst?_replace (h : p.IsRegular kind)
    (hdrops : ∀ t, drops t = true → t.name = kind.tag) :
    (p.replace kind drops more).tree.findFirst? kind.containerTag
      = (p.tree.findFirst? kind.containerTag).map fun e => (e.prune drops).push more := by
  rw [tree_replace hkind h _ hdrops, Content.findFirst?_extendFirst,
    h.findFirst?_prune hkind hdrops, Option.map_map]
  rfl

/-! ## Putting an artifact in -/

omit hkind

/-- The project with an artifact in place of the definitions of its identity. -/
def put (p : Project) (kind : ArtifactKind) (a : Artifact) : Project :=
  p.replace kind (kind.defines a.identity) (.ofElement a.payload)

/-- Only definitions are taken out. -/
theorem name_of_defines (kind : ArtifactKind) (identity : String) (t : Tag)
    (h : kind.defines identity t = true) :
    t.name = kind.tag :=
  (ArtifactKind.defines_iff.1 h).1

/-- No definition of the artifact's identity is left when it is put in. -/
theorem find?_filter_defines :
    ((p.definitions kind).filter fun e => !kind.defines identity e.toTag).find?
      (kind.identifies identity)
      = none := by
  rw [definitions_eq_filter, List.find?_eq_none]
  intro e he
  obtain ⟨hdef, hkeep⟩ := List.mem_filter.1 he
  intro hidentity
  have hname := (List.mem_filter.1 hdef).2
  rw [show kind.defines identity e.toTag = true from Bool.and_eq_true_iff.2 ⟨hname, hidentity⟩]
    at hkeep
  cases hkeep

/-- The definitions of other identities are left. -/
theorem filter_defines_of_ne {identity' : String} (h : identity' ≠ identity) :
    ((p.definitions kind).filter fun e => !kind.defines identity e.toTag).filter
      (kind.identifies identity')
      = (p.definitions kind).filter (kind.identifies identity') := by
  rw [List.filter_filter]
  apply List.filter_congr
  intro e he
  cases hidentity : kind.identifies identity' e with
  | false => rfl
  | true =>
    rw [Bool.true_and, Bool.not_eq_true', ← Bool.not_eq_true]
    intro hdef
    have hkey : e.attribute? kind.identityKey = some identity' := beq_iff_eq.1 hidentity
    exact h (Option.some.inj (hkey.symm.trans (ArtifactKind.defines_iff.1 hdef).2))

variable {a : Artifact}

/-- The definitions of an identity that an artifact adds: itself, if it is its own. -/
theorem find?_ofElement_payload (ha : a.Fits kind) (identity : String) :
    ((Content.ofElement a.payload).findAll kind.tag).find? (kind.identifies identity)
      = if identity = a.identity then some a.payload else none := by
  rw [ha.findAll]
  by_cases h : identity = a.identity
  · rw [if_pos h, h]
    exact List.find?_cons_of_pos (beq_iff_eq.2 ha.identity)
  · rw [if_neg h, List.find?_cons_of_neg, List.find?_nil]
    intro hidentity
    exact h (Option.some.inj ((beq_iff_eq.1 hidentity).symm.trans ha.identity))

include hkind

/-- Putting an artifact in keeps a project regular. -/
theorem IsRegular.put (h : p.IsRegular kind) (ha : a.Fits kind) : (p.put kind a).IsRegular kind :=
  h.replace hkind (name_of_defines _ _) ha.flat

/-- Afterwards the artifact's definition is found under its identity, and what was found under any
other is found still. -/
theorem find?_put (h : p.IsRegular kind) (ha : a.Fits kind) :
    (p.put kind a).find? kind identity
      = if identity = a.identity then some a.payload else p.find? kind identity := by
  have payload := find?_ofElement_payload ha identity
  by_cases heq : identity = a.identity
  · subst heq
    rw [put, find?_replace hkind h (name_of_defines _ _) (.inl find?_filter_defines),
      find?_filter_defines, Option.none_or, payload, if_pos rfl, if_pos rfl]
  · rw [if_neg heq] at payload
    rw [put, find?_replace hkind h (name_of_defines _ _) (.inr payload), payload, Option.or_none,
      if_neg heq, ← List.head?_filter, filter_defines_of_ne heq, List.head?_filter]
    rfl

/-- Afterwards there is one definition of the artifact's identity, and there are as many as before
of any other. -/
theorem count_put (h : p.IsRegular kind) (ha : a.Fits kind) :
    (p.put kind a).count kind identity = if identity = a.identity then 1
      else p.count kind identity := by
  have payload := find?_ofElement_payload ha identity
  rw [put, count_replace hkind h (name_of_defines _ _), ha.findAll]
  rw [ha.findAll] at payload
  by_cases heq : identity = a.identity
  · rw [if_pos heq] at payload ⊢
    have one : kind.identifies identity a.payload = true := List.find?_some payload
    rw [heq, List.countP_eq_zero.2 (List.find?_eq_none.1 find?_filter_defines), ← heq,
      List.countP_cons_of_pos one]
    rfl
  · rw [if_neg heq] at payload ⊢
    rw [List.countP_eq_zero.2 (List.find?_eq_none.1 payload), List.countP_eq_length_filter,
      filter_defines_of_ne heq, ← List.countP_eq_length_filter, count_eq]
    rfl

/-- Afterwards the artifact's identity comes last in the container. -/
theorem names_put (h : p.IsRegular kind) (ha : a.Fits kind) :
    ∃ names, p.names kind = .ok names
      ∧ (p.put kind a).names kind = .ok (names.filter (· ≠ a.identity) ++ [a.identity]) := by
  obtain ⟨e, he⟩ := Option.isSome_iff_exists.1 h.container_tree
  have he' : (p.put kind a).tree.findFirst? kind.containerTag
      = some ((e.prune (kind.defines a.identity)).push (.ofElement a.payload)) := by
    rw [put, findFirst?_replace hkind h (name_of_defines _ _), he]
    rfl
  refine ⟨_, names_of_findFirst? he, ?_⟩
  rw [names_of_findFirst? he']
  congr 1
  rw [show ((e.prune (kind.defines a.identity)).push (.ofElement a.payload)).content
      = (e.content.prune (kind.defines a.identity)).append (.ofElement a.payload) from rfl,
    Content.children_append, List.map_append, Content.children_prune,
    ArtifactKind.identities_append, ArtifactKind.identities_filter]
  exact congrArg _ ha.identities

/-! ## Merging -/

omit hkind

/-- What a merge does: it drops the first definition of the identity and fills the container, if
there is one before and after that. -/
theorem merge_eq (p : Project) (a : Artifact) :
    p.merge a =
      if (p.document.root.findFirst? a.kind.containerTag).isSome then
        let root := p.document.root.dropFirst (a.kind.defines a.identity)
        if (root.findFirst? a.kind.containerTag).isSome then
          (p.withRoot (root.extendFirst a.kind.containerTag (.ofElement a.payload)),
            .ok (if p.document.root.content.tags.any (a.kind.defines a.identity) then .replaced
                else .inserted))
        else (p.withRoot root, .error (.containerNotFound a.kind.containerTag))
      else (p, .error (.containerNotFound a.kind.containerTag)) := by
  have removed := Element.removeFirst?_eq (a.kind.defines a.identity) p.document.root
  rw [merge, container]
  cases hcontainer : p.document.root.findFirst? a.kind.containerTag with
  | none => rfl
  | some container =>
    rw [ArtifactKind.isDefinition_eq_defines]
    simp only [Option.isSome_some, if_true]
    -- the root that the container is looked for in again, in one form for both outcomes
    have filled :
        ∀ root : Element,
          root.updateFirst? a.kind.containerTag (fun e => ((), e.pushChild a.payload))
        = if (root.findFirst? a.kind.containerTag).isSome then
            some ((), root.extendFirst a.kind.containerTag (.ofElement a.payload)) else none :=
      fun root => Element.updateFirst?_push root
    cases hmatch : p.document.root.content.tags.any (a.kind.defines a.identity) with
    | false =>
      have unchanged : p.document.root.dropFirst (a.kind.defines a.identity) = p.document.root := by
        rw [Element.dropFirst, Content.dropFirst_eq_self hmatch]
      rw [hmatch, if_neg Bool.false_ne_true, Option.map_eq_none_iff] at removed
      simp only [removed, filled, unchanged, hcontainer, Option.isSome_some, if_true]
      rfl
    | true =>
      rw [hmatch, if_pos rfl, Option.map_eq_some_iff] at removed
      obtain ⟨pair, hpair, hroot⟩ := removed
      simp only [hpair, hroot, filled]
      cases ((p.document.root.dropFirst (a.kind.defines a.identity)).findFirst?
        a.kind.containerTag).isSome with
      | true => rfl
      | false => rfl

/-- A merge changes nothing but the root, keeps its tag, and puts nothing into it but the
payload. -/
theorem exists_withRoot_merge (p : Project) (a : Artifact) :
    ∃ root : Element, (p.merge a).1 = p.withRoot root ∧ root.toTag = p.document.root.toTag
      ∧ ∀ {onLeaf : Xml.Leaf → Prop} {onTag : Tag → Prop}, p.document.root.All onLeaf onTag →
          a.payload.All onLeaf onTag → root.All onLeaf onTag := by
  rw [merge_eq]
  split
  · dsimp only
    split
    · exact ⟨_, rfl, Element.toTag_extendFirst _,
        fun h ha => h.dropFirst.extendFirst ⟨ha.1, ha.2, trivial⟩⟩
    · exact ⟨_, rfl, rfl, fun h _ => h.dropFirst⟩
  · exact ⟨_, rfl, rfl, fun h _ => h⟩

/-- There is a definition to drop if one is found. -/
theorem any_defines_eq (h : p.IsRegular kind) :
    p.document.root.content.tags.any (kind.defines identity) = (p.find? kind identity).isSome := by
  have tags : p.tree.tags = p.document.root.toTag :: p.document.root.content.tags :=
    Content.tags_ofElement _
  have none_iff : p.document.root.content.tags.any (kind.defines identity) = false
      ↔ p.find? kind identity = none := by
    rw [find?_eq_none_iff, tags, List.forall_mem_cons, List.any_eq_false]
    simp only [Bool.not_eq_true]
    exact (and_iff_right (h.drops_root (name_of_defines _ _))).symm
  rw [Bool.eq_iff_iff, Option.isSome_iff_ne_none, ne_eq, ← none_iff, Bool.not_eq_false]

/-- If there is one definition at most, what is left without the first is pruned of it. -/
theorem prune_eq_of_count_le (hcount : p.count kind identity ≤ 1) :
    p.document.root.prune (kind.defines identity)
      = p.document.root.dropFirst (kind.defines identity) := by
  have one : p.document.root.content.tags.countP (kind.defines identity) ≤ 1 := by
    rw [← Content.map_toTag_elements, List.countP_map]
    exact Nat.le_trans (List.sublist_cons_self _ _).countP_le hcount
  have outermost := Nat.le_trans (Content.countOutermost_le_countP _ _) one
  rw [Element.prune, Element.dropFirst, Content.prune_eq_dropFirst outermost]

include hkind

/-- **A merge puts the artifact in**, if its identity is unique, and tells whether it was there
before. -/
theorem merge_eq_put (h : p.IsRegular kind) (ha : a.Fits kind)
    (hcount : p.count kind a.identity ≤ 1) :
    p.merge a = (p.put kind a, .ok (if (p.find? kind a.identity).isSome then .replaced
        else .inserted)) := by
  have found := h.container_prune hkind (name_of_defines kind a.identity)
  rw [merge_eq, ha.kind_eq, if_pos h.container, ← prune_eq_of_count_le hcount, any_defines_eq h]
  simp only [if_pos found]
  rfl

/-- **Merging updates a finite map.** -/
theorem merge_isFiniteMap (h : p.IsRegular kind) {source : Xml.Document}
    (hload : kind.load source = .loaded a) (hsimple : kind.IsSimple a.payload)
    (hcount : p.count kind a.identity ≤ 1) :
    ∃ (p' : Project) (names : List String),
      p.merge a = (p', .ok (if (p.find? kind a.identity).isSome then .replaced else .inserted))
        ∧ p'.find? kind a.identity = some a.payload
        ∧ (∀ identity, identity ≠ a.identity → p'.find? kind identity = p.find? kind identity)
        ∧ p.names kind = .ok names ∧ p'.names kind
            = .ok (names.filter (· ≠ a.identity) ++ [a.identity]) := by
  have ha := Artifact.fits_of_load hload hsimple
  obtain ⟨names, hbefore, hafter⟩ := names_put hkind h ha
  refine ⟨p.put kind a, names, merge_eq_put hkind h ha hcount, ?_, ?_, hbefore, hafter⟩
  · rw [find?_put hkind h ha, if_pos rfl]
  · intro identity hne
    rw [find?_put hkind h ha, if_neg hne]

omit hkind

/-- A project with a definition of `A` ahead of its container, and one of `B` in it. -/
def scattered : Project where
  document := .ofRoot
    { name := "Controller"
      content :=
        .element ⟨"AddOnInstructionDefinition", [("Name", "A")]⟩ (.ofLeaf (.text "old")) <|
        .leaf (.text "between") <|
        .element ⟨"AddOnInstructionDefinitions", []⟩
          (.element ⟨"AddOnInstructionDefinition", [("Name", "B")]⟩ .empty .empty) .empty }

/-- A definition with this name and text. -/
def definition (name characters : String) : Element where
  name := "AddOnInstructionDefinition"
  attributes := [("Name", name)]
  content := .ofLeaf (.text characters)

/-- An export document that carries an element. -/
def exporting (e : Element) : Xml.Document :=
  .ofRoot
    { name := "Export"
      attributes := [("TargetType", "AddOnInstructionDefinition")]
      content := .ofElement e }

/-- The definition ahead of the container is replaced by the one at the container's end. -/
theorem merge_isFiniteMap_scattered :
    ∃ (p' : Project) (names : List String),
      scattered.merge ⟨.addOnInstruction, "A", definition "A" "new"⟩ = (p', .ok .replaced)
        ∧ p'.find? .addOnInstruction "A" = some (definition "A" "new")
        ∧ (∀ identity, identity ≠ "A" →
            p'.find? .addOnInstruction identity = scattered.find? .addOnInstruction identity)
        ∧ scattered.names .addOnInstruction = .ok names
        ∧ p'.names .addOnInstruction = .ok (names.filter (· ≠ "A") ++ ["A"]) :=
  merge_isFiniteMap (by decide) (by decide)
    (show ArtifactKind.addOnInstruction.load (exporting (definition "A" "new")) = _ from rfl)
      (by decide) (by decide)

end Project

end PlcWorkbench
