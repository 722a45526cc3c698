import PlcWorkbench.Artifact
import PlcWorkbench.Proofs.Xml.Surgery

/-!
# Flat trees

A tree is flat for a kind of artifact if no definition of that kind holds another one or a
container. In a flat tree definitions are the leaves of all searching and editing: pruning
definitions spares the containers, leaves the other definitions as they are, and adding definitions
to a container puts them between those before and after it.
-/

namespace PlcWorkbench

open Xml (Tag Content Element)

namespace ArtifactKind

variable {kind : ArtifactKind} {identity : String}

/-! ## Tags of definitions -/

/-- Whether a tag is that of the definition with this identity. -/
def defines (kind : ArtifactKind) (identity : String) (t : Tag) : Bool :=
  t.name == kind.tag && Dictionary.get? t.attributes kind.identityKey == some identity

/-- Whether an element is a definition shows in its tag. -/
theorem isDefinition_eq_defines (kind : ArtifactKind) (identity : String) :
    kind.isDefinition identity = fun e => kind.defines identity e.toTag := rfl

/-- A definition has the name and the identity. -/
theorem defines_iff {t : Tag} :
    kind.defines identity t = true
      ↔ t.name = kind.tag ∧ Dictionary.get? t.attributes kind.identityKey = some identity := by
  rw [defines, Bool.and_eq_true, beq_iff_eq, beq_iff_eq]

/-! ## Flatness -/

/-- No definition and no container stands strictly inside the element. -/
def IsSimple (kind : ArtifactKind) (e : Element) : Prop :=
  ∀ inside ∈ e.content.elements, inside.name ≠ kind.tag ∧ inside.name ≠ kind.containerTag

instance (e : Element) : Decidable (kind.IsSimple e) :=
  inferInstanceAs
    (Decidable (∀ inside ∈ e.content.elements, inside.name ≠ kind.tag
        ∧ inside.name ≠ kind.containerTag))

/-- No definition among the elements has a definition or a container strictly inside it. -/
def AreFlat (kind : ArtifactKind) (elements : List Element) : Prop :=
  ∀ e ∈ elements, e.name = kind.tag → kind.IsSimple e

instance (elements : List Element) : Decidable (kind.AreFlat elements) :=
  inferInstanceAs (Decidable (∀ e ∈ elements, e.name = kind.tag → kind.IsSimple e))

/-- Inside a simple element no tag is that of a definition or a container. -/
theorem isSimple_iff_tags {e : Element} :
    kind.IsSimple e ↔ ∀ t ∈ e.content.tags, t.name ≠ kind.tag ∧ t.name ≠ kind.containerTag :=
  Content.forall_mem_elements (p := fun t => t.name ≠ kind.tag ∧ t.name ≠ kind.containerTag)

/-- Flatness, item by item. -/
theorem areFlat_element {tag : Tag} {inner next : Content} :
    kind.AreFlat (Content.element tag inner next).elements ↔
      (tag.name = kind.tag → kind.IsSimple ⟨tag, inner⟩)
        ∧ kind.AreFlat inner.elements ∧ kind.AreFlat next.elements := by
  rw [AreFlat, Content.elements, List.forall_mem_cons, List.forall_mem_append]
  rfl

/-- Contents that are flat are flat together. -/
theorem AreFlat.append {c d : Content} (h : kind.AreFlat c.elements)
    (h' : kind.AreFlat d.elements) :
    kind.AreFlat (c.append d).elements := by
  rw [Content.elements_append, AreFlat, List.forall_mem_append]
  exact ⟨h, h'⟩

/-- Pruning keeps simple elements simple. -/
theorem IsSimple.prune {tag : Tag} {inner : Content} (h : kind.IsSimple ⟨tag, inner⟩)
    (drops : Tag → Bool) :
    kind.IsSimple ⟨tag, inner.prune drops⟩ := by
  rw [isSimple_iff_tags] at h ⊢
  intro t ht
  exact h t (List.mem_of_mem_filter ((Content.tags_prune_sublist inner).subset ht))

/-- Pruning keeps a tree flat. -/
theorem AreFlat.prune {c : Content} (h : kind.AreFlat c.elements) (drops : Tag → Bool) :
    kind.AreFlat (c.prune drops).elements := by
  induction c with
  | empty => exact h
  | leaf l next ih => exact ih h
  | element tag inner next ihInner ihNext =>
    obtain ⟨here, hinner, hnext⟩ := areFlat_element.1 h
    rw [Content.prune]
    split
    · exact ihNext hnext
    · exact areFlat_element.2 ⟨fun hname => (here hname).prune drops, ihInner hinner, ihNext hnext⟩

/-- Dropping the first match keeps a tree flat. -/
theorem AreFlat.dropFirst {c : Content} (h : kind.AreFlat c.elements) (drops : Tag → Bool) :
    kind.AreFlat (c.dropFirst drops).elements := by
  induction c with
  | empty => exact h
  | leaf l next ih => exact ih h
  | element tag inner next ihInner ihNext =>
    obtain ⟨here, hinner, hnext⟩ := areFlat_element.1 h
    rw [Content.dropFirst]
    split
    · exact hnext
    · split
      · refine areFlat_element.2 ⟨fun hname => ?_, ihInner hinner, hnext⟩
        have simple := isSimple_iff_tags.1 (here hname)
        exact isSimple_iff_tags.2 fun t ht =>
          simple t ((Content.tags_dropFirst_sublist drops inner).subset ht)
      · exact areFlat_element.2 ⟨here, hinner, ihNext hnext⟩

variable (hkind : kind.tag ≠ kind.containerTag)
include hkind

/-- Filling a container with what is flat keeps a tree flat. -/
theorem AreFlat.extendFirst {c more : Content} (h : kind.AreFlat c.elements)
    (hmore : kind.AreFlat more.elements) :
    kind.AreFlat (c.extendFirst kind.containerTag more).elements := by
  induction c with
  | empty => exact h
  | leaf l next ih => exact ih h
  | element tag inner next ihInner ihNext =>
    obtain ⟨here, hinner, hnext⟩ := areFlat_element.1 h
    rw [Content.extendFirst]
    split
    · rename_i hname
      exact areFlat_element.2 ⟨fun hdef => absurd (hdef.symm.trans hname) hkind,
        hinner.append hmore, hnext⟩
    · split
      · rename_i hfound
        refine areFlat_element.2 ⟨fun hdef => ?_, ihInner hinner, hnext⟩
        -- a definition holds no container
        have none : inner.findFirst? kind.containerTag = none :=
          Content.findFirst?_eq_none_iff.2 fun t ht => (isSimple_iff_tags.1 (here hdef) t ht).2
        rw [none] at hfound
        cases hfound
      · exact areFlat_element.2 ⟨here, hinner, ihNext hnext⟩

/-- Definitions are no containers. -/
theorem ne_containerTag {drops : Tag → Bool} (hdrops : ∀ t, drops t = true → t.name = kind.tag)
    (t : Tag) (h : drops t = true) : t.name ≠ kind.containerTag := by
  rw [hdrops t h]
  exact hkind

omit hkind

/-- In a flat tree no definition is around the container. -/
theorem AreFlat.spares {c : Content} (h : kind.AreFlat c.elements) {drops : Tag → Bool}
    (hdrops : ∀ t, drops t = true → t.name = kind.tag) : c.Spares drops kind.containerTag := by
  induction c with
  | empty => exact List.forall_mem_nil _
  | leaf l next ih => exact ih h
  | element tag inner next ihInner ihNext =>
    obtain ⟨here, hinner, hnext⟩ := areFlat_element.1 h
    rw [Content.Spares, Content.around]
    split
    · exact List.forall_mem_nil _
    · split
      · rename_i hfound
        refine List.forall_mem_cons.2 ⟨?_, ihInner hinner⟩
        rw [← Bool.not_eq_true]
        intro hdrop
        -- a definition holds no container
        have simple := isSimple_iff_tags.1 (here (hdrops tag hdrop))
        rw [Content.findFirst?_eq_none_iff.2 fun t ht => (simple t ht).2] at hfound
        cases hfound
      · exact ihNext hnext

/-! ## The definitions of a flat tree -/

/-- Pruning definitions leaves the other ones, as they are. -/
theorem AreFlat.findAll_prune {c : Content} (h : kind.AreFlat c.elements) {drops : Tag → Bool}
    (hdrops : ∀ t, drops t = true → t.name = kind.tag) :
    (c.prune drops).findAll kind.tag = (c.findAll kind.tag).filter fun e => !drops e.toTag := by
  induction c with
  | empty => rfl
  | leaf l next ih => exact ih h
  | element tag inner next ihInner ihNext =>
    obtain ⟨here, hinner, hnext⟩ := areFlat_element.1 h
    rw [Content.prune, Content.findAll]
    by_cases hname : tag.name = kind.tag
    · have simple := isSimple_iff_tags.1 (here hname)
      have inside : inner.findAll kind.tag = [] :=
        Content.findAll_eq_nil fun t ht => (simple t ht).1
      have kept : inner.prune drops = inner := by
        apply Content.prune_eq_self
        intro t ht
        rw [← Bool.not_eq_true]
        exact fun hdrop => (simple t ht).1 (hdrops t hdrop)
      simp only [if_pos hname, inside, List.nil_append, List.filter_cons]
      by_cases hdrop : drops tag = true
      · simp only [hdrop, if_true, Bool.not_true, Bool.false_eq_true, if_false, ihNext hnext]
      · rw [Bool.not_eq_true] at hdrop
        simp only [hdrop, Bool.false_eq_true, if_false, Bool.not_false, if_true, Content.findAll,
          if_pos hname, kept, inside, List.nil_append, ihNext hnext]
    · have hdrop : drops tag = false := by
        rw [← Bool.not_eq_true]
        exact fun hdrop => hname (hdrops tag hdrop)
      simp only [hdrop, Bool.false_eq_true, if_false, Content.findAll, if_neg hname,
        List.filter_append, ihInner hinner, ihNext hnext]

/-- Whether some definition is dropped shows among the definitions. -/
theorem any_findAll {drops : Tag → Bool} (hdrops : ∀ t, drops t = true → t.name = kind.tag)
    (c : Content) : ((c.findAll kind.tag).any fun e => drops e.toTag) = c.tags.any drops := by
  rw [Content.findAll_eq_filter, List.any_filter, ← Content.map_toTag_elements, List.any_map]
  congr
  funext e
  rw [Function.comp_apply, Bool.and_eq_right_iff_imp]
  exact fun hdrop => beq_iff_eq.2 (hdrops e.toTag hdrop)

/-- Dropping the first match takes one definition out and leaves the others, as they are. -/
theorem AreFlat.findAll_dropFirst {c : Content} (h : kind.AreFlat c.elements) {drops : Tag → Bool}
    (hdrops : ∀ t, drops t = true → t.name = kind.tag) :
    (c.dropFirst drops).findAll kind.tag = (c.findAll kind.tag).eraseP fun e => drops e.toTag := by
  induction c with
  | empty => rfl
  | leaf l next ih => exact ih h
  | element tag inner next ihInner ihNext =>
    obtain ⟨here, hinner, hnext⟩ := areFlat_element.1 h
    rw [Content.dropFirst, Content.findAll]
    by_cases hname : tag.name = kind.tag
    · -- a definition holds no other, so it is dropped itself or the match comes after it
      have simple := isSimple_iff_tags.1 (here hname)
      have inside : inner.findAll kind.tag = [] :=
        Content.findAll_eq_nil fun t ht => (simple t ht).1
      have spared : inner.tags.any drops = false := by
        rw [← any_findAll hdrops, inside, List.any_nil]
      simp only [if_pos hname, inside, List.nil_append, spared, Bool.false_eq_true, if_false]
      rw [List.eraseP_cons]
      by_cases hdrop : drops tag = true
      · rw [if_pos hdrop, hdrop, cond_true]
      · rw [Bool.not_eq_true] at hdrop
        rw [hdrop, if_neg Bool.false_ne_true, cond_false, Content.findAll, if_pos hname, inside,
          List.nil_append, ihNext hnext]
    · simp only [if_neg hname, if_neg (fun hdrop => hname (hdrops tag hdrop))]
      cases hany : inner.tags.any drops with
      | true =>
        obtain ⟨e, he, hdrop⟩ := List.any_eq_true.1 ((any_findAll hdrops inner).trans hany)
        rw [if_pos rfl, Content.findAll, if_neg hname, ihInner hinner]
        exact (List.eraseP_append_left (p := fun e : Element => drops e.toTag) hdrop _ he).symm
      | false =>
        have spared := List.any_eq_false.1 ((any_findAll hdrops inner).trans hany)
        rw [if_neg Bool.false_ne_true, Content.findAll, if_neg hname, ihNext hnext,
          List.eraseP_append_right _ spared]

include hkind

/-- Definitions that are added to the container stand between those before and those after its
end. -/
theorem AreFlat.exists_findAll_extendFirst {c more : Content} (h : kind.AreFlat c.elements)
    (hcontainer : (c.findFirst? kind.containerTag).isSome = true) :
    ∃ before after, c.findAll kind.tag = before ++ after ∧
      (c.extendFirst kind.containerTag more).findAll kind.tag
        = before ++ (more.findAll kind.tag ++ after) := by
  induction c with
  | empty => cases hcontainer
  | leaf l next ih => exact ih h hcontainer
  | element tag inner next ihInner ihNext =>
    obtain ⟨here, hinner, hnext⟩ := areFlat_element.1 h
    rw [Content.findFirst?] at hcontainer
    rw [Content.extendFirst, Content.findAll]
    by_cases hname : tag.name = kind.containerTag
    · have hdef : tag.name ≠ kind.tag := fun hdef => hkind (hdef.symm.trans hname)
      refine ⟨inner.findAll kind.tag, next.findAll kind.tag, if_neg hdef, ?_⟩
      rw [if_pos hname, Content.findAll, Content.findAll_append, List.append_assoc]
      exact if_neg hdef
    · rw [if_neg hname] at hcontainer ⊢
      by_cases hfound : (inner.findFirst? kind.containerTag).isSome = true
      · obtain ⟨before, after, hold, hnew⟩ := ihInner hinner hfound
        have hdef : tag.name ≠ kind.tag := by
          intro hdef
          rw [Content.findFirst?_eq_none_iff.2 fun t ht => (isSimple_iff_tags.1 (here hdef) t ht).2]
            at hfound
          cases hfound
        refine ⟨before, after ++ next.findAll kind.tag, ?_, ?_⟩
        · simp only [if_neg hdef, hold, List.append_assoc]
        · simp only [if_pos hfound, Content.findAll, if_neg hdef, hnew, List.append_assoc]
      · have hlater : (next.findFirst? kind.containerTag).isSome = true := by
          rw [Bool.not_eq_true, Option.isSome_eq_false_iff, Option.isNone_iff_eq_none] at hfound
          rwa [hfound, Option.none_or] at hcontainer
        obtain ⟨before, after, hold, hnew⟩ := ihNext hnext hlater
        by_cases hdef : tag.name = kind.tag
        · refine ⟨⟨tag, inner⟩ :: (inner.findAll kind.tag ++ before), after, ?_, ?_⟩
          · simp only [if_pos hdef, hold, List.append_assoc, List.cons_append]
          · simp only [if_neg hfound, Content.findAll, if_pos hdef, hnew, List.append_assoc,
              List.cons_append]
        · refine ⟨inner.findAll kind.tag ++ before, after, ?_, ?_⟩
          · simp only [if_neg hdef, hold, List.append_assoc]
          · simp only [if_neg hfound, Content.findAll, if_neg hdef, hnew, List.append_assoc]

end ArtifactKind

end PlcWorkbench
