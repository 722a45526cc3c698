import PlcWorkbench.Proofs.Project.Batch
import PlcWorkbench.Proofs.Xml.UpTo

/-!
# Outcomes of merges

Merges into a regular project whose identities need not be unique. A merge succeeds: among the
definitions in document order it erases the first of the artifact's identity, and it inserts the
payload between the others. So a definition of an identity is found later on if one was there at the
start or if one was merged, and this is what the outcomes tell.

* `exists_merge_of_isRegular` : one merge, among the definitions;
* `isSome_find?_iff` : for which identities a definition is found afterwards;
* `exists_mergeAll_of_isRegular` : a batch succeeds, and what the outcome of each merge says;
* `mergeAll_fst` : the project that a batch leaves, whether it succeeds or not.
-/

namespace PlcWorkbench

open Xml (Tag Content Element)

namespace Project

variable {kind : ArtifactKind} {p q : Project} {a : Artifact} {artifacts : List Artifact}
  {identity : String}

/-! ## One merge -/

/-- Without a container a merge fails and changes nothing. -/
theorem merge_eq_error (h : p.document.root.findFirst? a.kind.containerTag = none) :
    p.merge a = (p, .error (.containerNotFound a.kind.containerTag)) := by
  rw [merge_eq, h, Option.isSome_none, if_neg Bool.false_ne_true]

section

variable (hkind : kind.tag ≠ kind.containerTag)
include hkind

/-- No definition is around the container, so it is there still without the first one of an
identity. -/
theorem IsRegular.container_dropFirst (h : p.IsRegular kind) (identity : String) :
    ((p.tree.dropFirst (kind.defines identity)).findFirst? kind.containerTag).isSome = true := by
  rw [Content.isSome_findFirst?_dropFirst (ArtifactKind.ne_containerTag hkind (name_of_defines _ _))
    (h.flat_tree.spares (name_of_defines _ _))]
  exact h.container_tree

/-- A merge into a regular project drops the first definition of the identity and fills the
container, and tells whether there was a definition. -/
theorem exists_tree_merge (h : p.IsRegular kind) (ha : a.Fits kind) :
    ∃ q, p.merge a = (q, .ok (if (p.find? kind a.identity).isSome then .replaced else .inserted))
      ∧ q.document.root.toTag = p.document.root.toTag
      ∧ q.tree = (p.tree.dropFirst (kind.defines a.identity)).extendFirst kind.containerTag
          (.ofElement a.payload) := by
  have dropped : p.tree.dropFirst (kind.defines a.identity)
      = .ofElement (p.document.root.dropFirst (kind.defines a.identity)) :=
    Content.dropFirst_last (h.drops_root (name_of_defines kind a.identity))
  have found := h.container_dropFirst hkind a.identity
  rw [dropped, Content.findFirst?_ofElement] at found
  refine ⟨p.withRoot ((p.document.root.dropFirst (kind.defines a.identity)).extendFirst
    kind.containerTag
    (.ofElement a.payload)), ?_, Element.toTag_extendFirst _, ?_⟩
  · rw [merge_eq, ha.kind_eq, if_pos h.container, any_defines_eq h]
    exact if_pos found
  · rw [dropped, Content.extendFirst_ofElement found]
    rfl

/-- **A merge into a regular project** succeeds and keeps it regular. Among the definitions it
erases the first of the identity and inserts the payload between the others. -/
theorem exists_merge_of_isRegular (h : p.IsRegular kind) (ha : a.Fits kind) :
    ∃ q, p.merge a = (q, .ok (if (p.find? kind a.identity).isSome then .replaced else .inserted))
      ∧ q.IsRegular kind
      ∧ ∃ before after,
          (p.definitions kind).eraseP (fun e => kind.defines a.identity e.toTag) = before ++ after
            ∧ q.definitions kind = before ++ a.payload :: after := by
  obtain ⟨q, hmerge, htag, htree⟩ := exists_tree_merge hkind h ha
  have flat := h.flat_tree.dropFirst (kind.defines a.identity)
  have found := h.container_dropFirst hkind a.identity
  refine ⟨q, hmerge, ⟨?_, ?_, ?_⟩, ?_⟩
  · rw [← Content.findFirst?_ofElement, show Content.ofElement _ = q.tree from rfl, htree,
      Content.findFirst?_extendFirst, Option.isSome_map]
    exact found
  · rw [show q.document.root.name = p.document.root.name from congrArg Tag.name htag]
    exact h.root
  · rw [← Content.elements_ofElement, show Content.ofElement _ = q.tree from rfl, htree]
    exact flat.extendFirst hkind ha.flat
  · obtain ⟨before, after, hold, hnew⟩ :=
      @ArtifactKind.AreFlat.exists_findAll_extendFirst kind hkind _
        (.ofElement a.payload) flat found
    rw [h.flat_tree.findAll_dropFirst (name_of_defines _ _), findAll_tree] at hold
    rw [← htree, findAll_tree, ha.findAll] at hnew
    exact ⟨before, after, hold, hnew⟩

omit hkind in
/-- A definition of an identity is found afterwards if it is the one that was merged, or if one was
found before. -/
theorem isSome_find?_iff (ha : a.Fits kind) {before after : List Element}
    (hold : (p.definitions kind).eraseP (fun e => kind.defines a.identity e.toTag)
      = before ++ after)
    (hnew : q.definitions kind = before ++ a.payload :: after) :
    (q.find? kind identity).isSome ↔ (p.find? kind identity).isSome ∨ identity = a.identity := by
  rw [find?_eq, find?_eq, List.find?_isSome, List.find?_isSome, hnew]
  constructor
  · rintro ⟨e, he, hidentity⟩
    rcases List.mem_append.1 he with hbefore | hafter
    · exact .inl ⟨e, List.mem_of_mem_eraseP (hold ▸ List.mem_append_left _ hbefore), hidentity⟩
    · rcases List.mem_cons.1 hafter with rfl | hafter
      · exact .inr (Option.some.inj ((beq_iff_eq.1 hidentity).symm.trans ha.identity))
      · exact .inl ⟨e, List.mem_of_mem_eraseP (hold ▸ List.mem_append_right _ hafter), hidentity⟩
  · have payload : a.payload ∈ before ++ a.payload :: after :=
      List.mem_append_right _ List.mem_cons_self
    by_cases heq : identity = a.identity
    · exact fun _ => ⟨a.payload, payload, beq_iff_eq.2 (heq ▸ ha.identity)⟩
    · rintro (⟨e, he, hidentity⟩ | hsame)
      · -- what is erased has the artifact's identity
        have kept : ¬ kind.defines a.identity e.toTag = true := fun hdef =>
          heq (Option.some.inj ((beq_iff_eq.1 hidentity).symm.trans
            (ArtifactKind.defines_iff.1 hdef).2))
        have left :=
          (List.mem_eraseP_of_neg (p := fun e : Element => kind.defines a.identity e.toTag) kept).2
            he
        rw [hold] at left
        rcases List.mem_append.1 left with hbefore | hafter
        · exact ⟨e, List.mem_append_left _ hbefore, hidentity⟩
        · exact ⟨e, List.mem_append_right _ (List.mem_cons_of_mem _ hafter), hidentity⟩
      · exact absurd hsame heq

/-! ## A batch -/

/-- **A batch of merges into a regular project** succeeds. A merge replaces if the project had a
definition of its identity or an earlier artifact of the batch has the same. -/
theorem exists_mergeAll_of_isRegular (h : p.IsRegular kind) (ha : ∀ a ∈ artifacts, a.Fits kind) :
    ∃ q outcomes, p.mergeAll artifacts = (q, .ok outcomes) ∧ ∀ i : Nat,
      outcomes[i]? = artifacts[i]?.map fun a =>
      if (p.find? kind a.identity).isSome ∨ a.identity ∈ (artifacts.take i).map (·.identity)
        then .replaced
      else .inserted := by
  induction artifacts generalizing p with
  | nil => exact ⟨p, [], rfl, fun i => by rw [List.getElem?_nil, List.getElem?_nil]; rfl⟩
  | cons a rest ih =>
    rw [List.forall_mem_cons] at ha
    obtain ⟨next, hmerge, hregular, before, after, hold, hnew⟩ :=
      exists_merge_of_isRegular hkind h ha.1
    obtain ⟨q, outcomes, hrest, houtcomes⟩ := ih hregular ha.2
    refine ⟨q, _, mergeAll_cons_eq_ok_iff.2 ⟨next, _, outcomes, hmerge, hrest, rfl⟩, fun i => ?_⟩
    cases i with
    | zero => simp
    | succ i =>
      -- the first artifact is one of those that came before
      rw [List.getElem?_cons_succ, List.getElem?_cons_succ, houtcomes i]
      simp only [isSome_find?_iff ha.1 hold hnew, List.take_succ_cons, List.map_cons, List.mem_cons,
        or_assoc]

/-- The outcomes of a batch that succeeds, where there need not be a container for no merge at
all. -/
theorem getElem?_of_mergeAll (hroot : p.document.root.name ≠ kind.tag)
    (hflat : kind.AreFlat p.document.root.elements) (ha : ∀ a ∈ artifacts, a.Fits kind)
    {outcomes : List MergeOutcome} (h : p.mergeAll artifacts = (q, .ok outcomes)) (i : Nat) :
    outcomes[i]? = artifacts[i]?.map fun a =>
      if (p.find? kind a.identity).isSome ∨ a.identity ∈ (artifacts.take i).map (·.identity)
        then .replaced
      else .inserted := by
  cases artifacts with
  | nil =>
    cases h
    rfl
  | cons a rest =>
    have container := container_of_mergeAll h
    rw [(ha a List.mem_cons_self).kind_eq] at container
    obtain ⟨q', outcomes', hmerges, houtcomes⟩ :=
      exists_mergeAll_of_isRegular hkind ⟨container, hroot, hflat⟩ ha
    rw [hmerges] at h
    cases h
    exact houtcomes i

end

/-! ## The project that a batch leaves -/

/-- A merge that fails leaves no container. -/
theorem findFirst?_of_merge_eq_error {cause : Failure} (h : p.merge a = (q, .error cause)) :
    q.document.root.findFirst? a.kind.containerTag = none := by
  rw [merge_eq] at h
  split at h
  · dsimp only at h
    split at h
    · cases h
    · rename_i hnone
      cases h
      exact Option.not_isSome_iff_eq_none.1 hnone
  · rename_i hnone
    cases h
    exact Option.not_isSome_iff_eq_none.1 hnone

/-- Without a container merges leave the project as it is. -/
theorem foldl_merge_eq_self (hnone : p.document.root.findFirst? kind.containerTag = none)
    (ha : ∀ a ∈ artifacts, a.kind = kind) : artifacts.foldl (fun p a => (p.merge a).1) p = p := by
  induction artifacts with
  | nil => rfl
  | cons a rest ih =>
    rw [List.forall_mem_cons] at ha
    rw [← ha.1] at hnone
    rw [List.foldl_cons, merge_eq_error hnone, ih ha.2]

/-- **A batch leaves the fold of its merges.** This is so even where it stops at a merge that fails,
since the merges after it would change nothing. -/
theorem mergeAll_fst (ha : ∀ a ∈ artifacts, a.kind = kind) :
    (p.mergeAll artifacts).1 = artifacts.foldl (fun p a => (p.merge a).1) p := by
  induction artifacts generalizing p with
  | nil => rfl
  | cons a rest ih =>
    rw [List.forall_mem_cons] at ha
    rw [mergeAll, List.foldl_cons]
    rcases hmerge : p.merge a with ⟨next, cause | outcome⟩
    · have lost := findFirst?_of_merge_eq_error hmerge
      rw [ha.1] at lost
      exact (foldl_merge_eq_self lost ha.2).symm
    · exact ih ha.2

end Project

end PlcWorkbench
