import PlcWorkbench.Proofs.Project.Batch
import PlcWorkbench.Proofs.Success
import PlcWorkbench.Proofs.Xml.UpTo

/-!
# Distinct names in the container

A merge takes out the first definition of an identity and no other. So the container can come to
hold two definitions of an identity, if one stands ahead of the one in the container. An identity is
unambiguous if that cannot happen: up to the end of the container there is at most one definition of
it, and the container is not inside it. Then a merge takes the definition out of the container if
there is one, and the names in the container are those of a map to which the identity is added last.

* `exists_merge` : up to the end of the container, a merge prunes and fills;
* `names_merge`, `isUnambiguous_merge` : what this makes of the names, and that identities stay
  unambiguous;
* `names_distinct` : names in the container stay distinct while unambiguous identities are merged.
-/

namespace PlcWorkbench

open Xml (Tag Content Element)

variable {kind : ArtifactKind}

namespace Project

variable {p q : Project} {a : Artifact} {artifacts : List Artifact} {identity : String}
  {names : List String}

/-- The project up to the end of its container. -/
def scope (p : Project) (kind : ArtifactKind) : Element := p.document.root.upTo kind.containerTag

/-- No definition of the identity is around the container, and up to the container's end there is at
most one, those inside another one of the identity not counted. -/
structure IsUnambiguous (kind : ArtifactKind) (identity : String) (p : Project) : Prop where
  spared : (p.scope kind).Spares (kind.defines identity) kind.containerTag
  once : (p.scope kind).content.countOutermost (kind.defines identity) ≤ 1

instance (p : Project) : Decidable (p.IsUnambiguous kind identity) :=
  decidable_of_iff
    ((p.scope kind).Spares (kind.defines identity) kind.containerTag
      ∧ (p.scope kind).content.countOutermost (kind.defines identity) ≤ 1)
    ⟨fun ⟨spared, once⟩ => ⟨spared, once⟩, fun h => ⟨h.spared, h.once⟩⟩

/-! ## Names -/

/-- The names in the container are those of its children, and the container is in the scope. -/
theorem names_eq_ok_iff :
    p.names kind = .ok names
      ↔ ∃ e, (p.scope kind).findFirst? kind.containerTag = some e
          ∧ kind.identities (e.content.children.map (·.toTag)) = names := by
  rw [scope, Element.findFirst?_upTo]
  cases hfound : p.document.root.findFirst? kind.containerTag with
  | none =>
    rw [Project.names, container, hfound]
    simp [Except.map]
  | some e =>
    rw [names_of_findFirst? ((Content.findFirst?_ofElement _).trans hfound)]
    simp

/-! ## One merge -/

variable (hkind : kind.tag ≠ kind.containerTag)
include hkind

/-- Definitions are no containers. -/
theorem defines_ne_containerTag (t : Tag) (h : kind.defines identity t = true) :
    t.name ≠ kind.containerTag :=
  ArtifactKind.ne_containerTag hkind (name_of_defines kind identity) t h

/-- A merge of an unambiguous identity succeeds. Up to the end of the container, it drops all
definitions of the identity and puts the payload at the end. -/
theorem exists_merge (ha : a.IsOf kind) (h : p.IsUnambiguous kind a.identity)
    (hnames : p.names kind = .ok names) :
    ∃ q outcome, p.merge a = (q, .ok outcome)
      ∧ q.scope kind = ((p.scope kind).prune (kind.defines a.identity)).extendFirst
          kind.containerTag
          (.ofElement a.payload) := by
  obtain ⟨e, hfound, -⟩ := names_eq_ok_iff.1 hnames
  have before : (p.document.root.findFirst? kind.containerTag).isSome = true := by
    rw [← Element.findFirst?_upTo]
    exact Option.isSome_of_eq_some hfound
  -- up to the end of the container the first definition is the only one
  have dropped : (p.document.root.dropFirst (kind.defines a.identity)).upTo kind.containerTag
      = (p.scope kind).prune (kind.defines a.identity) := by
    rw [Element.upTo_dropFirst (defines_ne_containerTag hkind) (Element.spares_upTo.1 h.spared)]
    exact congrArg (Element.mk _) (Content.prune_eq_dropFirst h.once).symm
  have after :
      ((p.document.root.dropFirst (kind.defines a.identity)).findFirst? kind.containerTag).isSome
        = true := by
    rw [← Element.findFirst?_upTo, dropped,
      Element.findFirst?_prune (defines_ne_containerTag hkind) h.spared, hfound]
    rfl
  rw [merge_eq, ha.kind_eq, if_pos before]
  refine ⟨_, _, if_pos after, ?_⟩
  rw [← dropped, ← Element.upTo_extendFirst]
  rfl

/-- Afterwards the artifact's identity comes last in the container. -/
theorem names_merge (ha : a.IsOf kind) (h : p.IsUnambiguous kind a.identity)
    (hnames : p.names kind = .ok names)
    (hscope : q.scope kind = ((p.scope kind).prune (kind.defines a.identity)).extendFirst
      kind.containerTag
      (.ofElement a.payload)) :
    q.names kind = .ok (names.filter (· ≠ a.identity) ++ [a.identity]) := by
  obtain ⟨e, hfound, hidentities⟩ := names_eq_ok_iff.1 hnames
  refine names_eq_ok_iff.2 ⟨(e.prune (kind.defines a.identity)).push (.ofElement a.payload), ?_, ?_⟩
  · rw [hscope, Element.findFirst?_extendFirst,
      Element.findFirst?_prune (defines_ne_containerTag hkind) h.spared, hfound]
    rfl
  · rw [show ((e.prune (kind.defines a.identity)).push (.ofElement a.payload)).content
        = (e.content.prune (kind.defines a.identity)).append (.ofElement a.payload) from rfl,
      Content.children_append, List.map_append, Content.children_prune,
      ArtifactKind.identities_append, ArtifactKind.identities_filter, hidentities]
    exact congrArg _ ha.identities

/-- An identity stays unambiguous, if the payload holds no definition of it that is another
artifact's. -/
theorem isUnambiguous_merge (ha : a.IsOf kind) (h : p.IsUnambiguous kind a.identity)
    (hidentity : p.IsUnambiguous kind identity)
    (hinside : identity ≠ a.identity → ∀ t ∈ a.payload.content.tags,
      kind.defines identity t = false)
    (hscope : q.scope kind = ((p.scope kind).prune (kind.defines a.identity)).extendFirst
      kind.containerTag
      (.ofElement a.payload)) :
    q.IsUnambiguous kind identity := by
  constructor
  · rw [hscope, Element.spares_extendFirst,
      Element.spares_prune (defines_ne_containerTag hkind) h.spared]
    exact hidentity.spared
  · rw [hscope]
    refine Nat.le_trans (Element.countOutermost_extendFirst_le _) ?_
    rw [show ((p.scope kind).prune (kind.defines a.identity)).content
      = (p.scope kind).content.prune (kind.defines a.identity) from rfl]
    by_cases heq : identity = a.identity
    · -- the artifact itself is the only one
      have payload : (Content.ofElement a.payload).countOutermost (kind.defines identity) = 1 := by
        rw [Content.ofElement, Content.countOutermost, if_pos (ha.defines_iff.2 heq)]
        rfl
      rw [heq] at payload ⊢
      exact Nat.le_of_eq (congrArg₂ _ (Content.countOutermost_prune _) payload)
    · -- what was there before is the only one, if it is still there
      have payload : (Content.ofElement a.payload).countOutermost (kind.defines identity) = 0 := by
        rw [Content.countOutermost_eq_zero_iff, List.any_eq_false, Content.tags_ofElement,
          List.forall_mem_cons]
        exact ⟨fun hdef => heq (ha.defines_iff.1 hdef),
          fun t ht => Bool.eq_false_iff.1 (hinside heq t ht)⟩
      rw [payload]
      exact Nat.le_trans (Content.countOutermost_prune_le _) hidentity.once

/-! ## A batch -/

/-- A batch of merges succeeds if its identities are unambiguous and no payload holds a definition
that is another artifact's. Each identity comes to stand at the end of the names when it is
merged. -/
theorem exists_mergeAll (ha : ∀ a ∈ artifacts, a.IsOf kind)
    (h : ∀ a ∈ artifacts, p.IsUnambiguous kind a.identity)
    (hinside : ∀ a ∈ artifacts, ∀ b ∈ artifacts, a.identity ≠ b.identity →
      ∀ t ∈ b.payload.content.tags, kind.defines a.identity t = false)
    (hnames : p.names kind = .ok names) :
    ∃ q outcomes, p.mergeAll artifacts = (q, .ok outcomes)
      ∧ q.names kind
          = .ok (artifacts.foldl (fun names a => names.filter (· ≠ a.identity) ++ [a.identity])
              names) := by
  induction artifacts generalizing p names with
  | nil => exact ⟨p, [], rfl, hnames⟩
  | cons a rest ih =>
    rw [List.forall_mem_cons] at ha h
    obtain ⟨next, outcome, hmerge, hscope⟩ := exists_merge hkind ha.1 h.1 hnames
    have later : ∀ b ∈ rest, next.IsUnambiguous kind b.identity := fun b hb =>
      isUnambiguous_merge hkind ha.1 h.1 (h.2 b hb)
        (hinside b (List.mem_cons_of_mem _ hb) a List.mem_cons_self) hscope
    obtain ⟨q, outcomes, hrest, hlast⟩ := ih ha.2 later
      (fun b hb c hc => hinside b (List.mem_cons_of_mem _ hb) c (List.mem_cons_of_mem _ hc))
      (names_merge hkind ha.1 h.1 hnames hscope)
    refine ⟨q, outcome :: outcomes, ?_, hlast⟩
    rw [mergeAll, hmerge]
    simp only [hrest]
    rfl

omit hkind in
/-- Moving identities to the end of distinct names keeps them distinct. -/
theorem nodup_foldl_filter (hdistinct : names.Nodup) :
    (artifacts.foldl (fun names a => names.filter (· ≠ a.identity) ++ [a.identity])
      names).Nodup := by
  induction artifacts generalizing names with
  | nil => exact hdistinct
  | cons a rest ih =>
    apply ih
    rw [List.nodup_append]
    refine ⟨hdistinct.filter _, List.nodup_singleton _, ?_⟩
    intro name hname other hother
    rw [List.mem_filter, decide_eq_true_iff] at hname
    rw [List.mem_singleton.1 hother]
    exact hname.2

/-- **Names stay distinct.** While artifacts are merged whose identities are unambiguous in the
project, and whose payloads hold no definition with the identity of another one of them, every merge
succeeds and the names in the container stay distinct. -/
theorem names_distinct (hload : ∀ a ∈ artifacts, ∃ source, kind.load source = .loaded a)
    (h : ∀ a ∈ artifacts, p.IsUnambiguous kind a.identity)
    (hinside : ∀ a ∈ artifacts, ∀ b ∈ artifacts, a.identity ≠ b.identity →
      ∀ t ∈ b.payload.content.tags, kind.defines a.identity t = false)
    (hnames : p.names kind = .ok names) (hdistinct : names.Nodup) {before after : List Artifact}
    (hsplit : artifacts = before ++ after) :
    ∃ (q : Project) (outcomes : List MergeOutcome) (names' : List String),
      p.mergeAll before = (q, .ok outcomes) ∧ q.names kind = .ok names' ∧ names'.Nodup := by
  have sub : ∀ a ∈ before, a ∈ artifacts := by
    intro a hmem
    rw [hsplit]
    exact List.mem_append_left _ hmem
  have ha : ∀ a ∈ before, a.IsOf kind := by
    intro a hmem
    obtain ⟨source, hsource⟩ := hload a (sub a hmem)
    exact Artifact.isOf_of_load hsource
  obtain ⟨q, outcomes, hmerges, hlast⟩ := exists_mergeAll hkind ha (fun a hmem => h a (sub a hmem))
    (fun a hmem b hb => hinside a (sub a hmem) b (sub b hb)) hnames
  exact ⟨q, outcomes, _, hmerges, hlast, nodup_foldl_filter hdistinct⟩

omit hkind

/-- The definition of `A` ahead of the container is the only one, so it does not matter that it is a
stray. -/
theorem names_distinct_scattered :
    ∃ (q : Project) (outcomes : List MergeOutcome) (names : List String),
      scattered.mergeAll updates = (q, .ok outcomes) ∧ q.names .addOnInstruction = .ok names
        ∧ names.Nodup := by
  exact names_distinct (show ArtifactKind.addOnInstruction.tag ≠ _ by decide)
    (fun a ha => ⟨_, load_updates a ha⟩) (by decide) (by decide)
    (show scattered.names .addOnInstruction = .ok ["B"] by decide) (by decide)
    (List.append_nil updates).symm

/-! ## Where names repeat -/

/-- A project with two definitions of `A`, one ahead of the container and one in it. -/
def strayed : Project where
  document := .ofRoot
    { name := "Controller"
      content :=
        .element ⟨"AddOnInstructionDefinition", [("Name", "A")]⟩ .empty <|
        .element ⟨"AddOnInstructionDefinitions", []⟩ (.ofElement (definition "A" "old")) .empty }

/-- The stray is taken out in place of the definition in the container, which then holds two of the
name. -/
theorem names_repeat_strayed :
    strayed.names .addOnInstruction = .ok ["A"]
      ∧ ArtifactKind.addOnInstruction.load (exporting (definition "A" "new"))
          = .loaded ⟨.addOnInstruction, "A", definition "A" "new"⟩
      ∧ (strayed.merge ⟨.addOnInstruction, "A", definition "A" "new"⟩).2 = .ok .replaced
      ∧ (strayed.merge ⟨.addOnInstruction, "A", definition "A" "new"⟩).1.names .addOnInstruction
          = .ok ["A", "A"] := by
  decide

/-- A definition around the container takes it along, and another container comes in its place. -/
example :
    let container := fun content next =>
      Content.element ⟨"AddOnInstructionDefinitions", []⟩ content next
    let p : Project := ⟨.ofRoot
      { name := "Controller"
        content := .element (definition "A" "").toTag (container .empty .empty) <|
          container ((Content.ofElement (definition "B" "")).append
            (.ofElement (definition "B" ""))) .empty }⟩
    p.names .addOnInstruction = .ok []
      ∧ (p.merge ⟨.addOnInstruction, "A", definition "A" "new"⟩).1.names .addOnInstruction
          = .ok ["B", "B", "A"] := by
  decide

/-- A payload brings a definition along that comes to stand ahead of the one in the container. -/
example :
    let p : Project := ⟨.ofRoot
      { name := "Controller",
        content := .element ⟨"AddOnInstructionDefinitions", []⟩ .empty .empty }⟩
    let a : Artifact := ⟨.addOnInstruction, "A", definition "A" ""⟩
    let b : Artifact := ⟨.addOnInstruction, "B", (definition "B" "").pushChild a.payload⟩
    (p.mergeAll [a, b, a]).1.names .addOnInstruction = .ok ["B", "A"]
      ∧ (p.mergeAll [a, b, a, a]).1.names .addOnInstruction = .ok ["B", "A", "A"] := by
  decide

end Project

end PlcWorkbench
