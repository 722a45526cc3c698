import PlcWorkbench.Proofs.Project.Merge

/-!
# Merging a batch

Merges in a row on a regular project. Each puts its artifact at the end of the container, so of the
artifacts with one identity the last stays, and those that stay are in the order in which they came
last.

* `mergeAll_eq_foldl` : a batch of merges puts in one artifact after the other;
* `find?_foldl_put` : afterwards the last artifact of an identity is found under it;
* `foldl_put_eq_putAll` : the normal form, a single replacement;
* `mergeAll_normalForm` : the batch ends in the normal form, and doing it again changes nothing.
-/

namespace PlcWorkbench

open Xml (Tag Content Element)

variable {kind : ArtifactKind}

/-! ## The artifacts that stay -/

namespace Artifact

/-- Of the artifacts with one identity the last, in the order in which these come. -/
def lastOfEach : List Artifact → List Artifact
  | [] => []
  | a :: rest =>
    if rest.any (·.identity == a.identity) then lastOfEach rest else a :: lastOfEach rest

/-- The artifacts that stay are among the artifacts, in the same order. -/
theorem lastOfEach_sublist (artifacts : List Artifact) :
    (lastOfEach artifacts).Sublist artifacts := by
  induction artifacts with
  | nil => exact List.Sublist.refl _
  | cons a rest ih =>
    rw [lastOfEach]
    split
    · exact ih.cons a
    · exact ih.cons_cons a

/-- An artifact stays if no later one has its identity. -/
theorem mem_lastOfEach_iff {a : Artifact} {artifacts : List Artifact} :
    a ∈ lastOfEach artifacts
      ↔ ∃ before after, artifacts = before ++ a :: after ∧ ∀ later ∈ after,
          later.identity ≠ a.identity := by
  induction artifacts with
  | nil => simp [lastOfEach]
  | cons first rest ih =>
    -- in front of the rest, the artifact is the first itself or one of the rest
    have split_iff : (∃ before after, first :: rest = before ++ a :: after
          ∧ ∀ later ∈ after, later.identity ≠ a.identity)
        ↔ (first = a ∧ ∀ later ∈ rest, later.identity ≠ a.identity) ∨ a ∈ lastOfEach rest := by
      rw [ih]
      constructor
      · rintro ⟨before, after, heq, hlater⟩
        rcases List.cons_eq_append_iff.1 heq with ⟨-, hcons⟩ | ⟨before', -, hrest⟩
        · cases hcons
          exact .inl ⟨rfl, hlater⟩
        · exact .inr ⟨before', after, hrest, hlater⟩
      · rintro (⟨rfl, hlater⟩ | ⟨before, after, rfl, hlater⟩)
        · exact ⟨[], rest, rfl, hlater⟩
        · exact ⟨first :: before, after, rfl, hlater⟩
    rw [split_iff, lastOfEach]
    by_cases hany : rest.any (·.identity == first.identity) = true
    · rw [if_pos hany, or_iff_right]
      rintro ⟨rfl, hlater⟩
      obtain ⟨later, hmem, hsame⟩ := List.any_eq_true.1 hany
      exact hlater later hmem (beq_iff_eq.1 hsame)
    · rw [if_neg hany, List.mem_cons]
      refine or_congr_left ?_
      constructor
      · rintro rfl
        refine ⟨rfl, fun later hmem hsame => hany ?_⟩
        exact List.any_eq_true.2 ⟨later, hmem, beq_iff_eq.2 hsame⟩
      · rintro ⟨rfl, -⟩
        rfl

/-- The payloads, one after the other. -/
def payloads : List Artifact → Content
  | [] => .empty
  | a :: rest => .element a.payload.toTag a.payload.content (payloads rest)

/-- Payloads of artifacts that fit are flat together. -/
theorem areFlat_payloads {artifacts : List Artifact} (h : ∀ a ∈ artifacts, a.Fits kind) :
    kind.AreFlat (payloads artifacts).elements := by
  induction artifacts with
  | nil => exact List.forall_mem_nil _
  | cons a rest ih =>
    rw [List.forall_mem_cons] at h
    exact h.1.flat.append (ih h.2)

end Artifact

/-- Whether a tag is that of a definition with the identity of one of the artifacts. -/
def ArtifactKind.definesAny (kind : ArtifactKind) (artifacts : List Artifact) (t : Tag) : Bool :=
  artifacts.any fun a => kind.defines a.identity t

/-- A tag that is met is that of a definition. -/
theorem ArtifactKind.name_of_definesAny (kind : ArtifactKind) (artifacts : List Artifact) (t : Tag)
    (h : kind.definesAny artifacts t = true) : t.name = kind.tag := by
  obtain ⟨a, -, hdef⟩ := List.any_eq_true.1 h
  exact (defines_iff.1 hdef).1

/-- The payload's tag is met if one of the artifacts has its identity. -/
theorem Artifact.Fits.definesAny {a : Artifact} (h : a.Fits kind) (artifacts : List Artifact) :
    kind.definesAny artifacts a.payload.toTag = artifacts.any (·.identity == a.identity) := by
  rw [ArtifactKind.definesAny]
  congr
  funext b
  rw [Bool.eq_iff_iff, h.defines_iff, beq_iff_eq]

/-- Nothing is met inside the payload. -/
theorem Artifact.Fits.prune_content {a : Artifact} (h : a.Fits kind) (artifacts : List Artifact) :
    a.payload.content.prune (kind.definesAny artifacts) = a.payload.content := by
  apply Content.prune_eq_self
  intro t ht
  rw [← Bool.not_eq_true]
  exact fun hdef => (ArtifactKind.isSimple_iff_tags.1 h.simple t ht).1
    (kind.name_of_definesAny artifacts t hdef)

namespace Project

variable {p : Project} {artifacts : List Artifact}

/-! ## Putting in one after the other -/

/-- Merge artifacts one after the other, up to the first failure. -/
def mergeAll : Project → List Artifact → Project × Except Failure (List MergeOutcome)
  | p, [] => (p, .ok [])
  | p, a :: rest =>
    match p.merge a with
    | (p, .error cause) => (p, .error cause)
    | (p, .ok outcome) =>
      let after := p.mergeAll rest
      (after.1, after.2.map (outcome :: ·))

/-- A batch succeeds if its first merge does and the others do on the project that this leaves. -/
theorem mergeAll_cons_eq_ok_iff {a : Artifact} {q : Project} {outcomes : List MergeOutcome} :
    p.mergeAll (a :: artifacts) = (q, .ok outcomes)
      ↔ ∃ next outcome others, p.merge a = (next, .ok outcome)
          ∧ next.mergeAll artifacts = (q, .ok others)
          ∧ outcomes = outcome :: others := by
  rw [mergeAll]
  rcases p.merge a with ⟨next, cause | outcome⟩
  · simp
  · rcases hrest : next.mergeAll artifacts with ⟨last, cause | others⟩
    · simp [hrest, Except.map]
    · simp [hrest, Except.map, eq_comm]

/-- Each merge of a batch that succeeds has an outcome. -/
theorem length_of_mergeAll {q : Project} {outcomes : List MergeOutcome}
    (h : p.mergeAll artifacts = (q, .ok outcomes)) : outcomes.length = artifacts.length := by
  induction artifacts generalizing p outcomes with
  | nil =>
    cases h
    rfl
  | cons a rest ih =>
    obtain ⟨next, outcome, others, -, hrest, rfl⟩ := mergeAll_cons_eq_ok_iff.1 h
    rw [List.length_cons, List.length_cons, ih hrest]

/-- A batch of merges that succeeds needs a container for its first artifact. -/
theorem container_of_mergeAll {a : Artifact} {q : Project} {outcomes : List MergeOutcome}
    (h : p.mergeAll (a :: artifacts) = (q, .ok outcomes)) :
    (p.document.root.findFirst? a.kind.containerTag).isSome = true := by
  obtain ⟨next, outcome, others, hmerge, -, -⟩ := mergeAll_cons_eq_ok_iff.1 h
  rw [merge_eq] at hmerge
  by_contra hnone
  rw [if_neg hnone] at hmerge
  cases hmerge

/-- A batch of merges changes nothing but the root, keeps its tag, and puts nothing into it but the
payloads. -/
theorem exists_withRoot_mergeAll (p : Project) (artifacts : List Artifact) :
    ∃ root : Element, (p.mergeAll artifacts).1 = p.withRoot root
      ∧ root.toTag = p.document.root.toTag
      ∧ ∀ {onLeaf : Xml.Leaf → Prop} {onTag : Tag → Prop}, p.document.root.All onLeaf onTag →
          (∀ a ∈ artifacts, a.payload.All onLeaf onTag) → root.All onLeaf onTag := by
  induction artifacts generalizing p with
  | nil => exact ⟨_, rfl, rfl, fun h _ => h⟩
  | cons a rest ih =>
    obtain ⟨root, hroot, htag, hall⟩ := exists_withRoot_merge p a
    rw [mergeAll]
    rcases hmerge : p.merge a with ⟨next, cause | outcome⟩
    · -- the batch ends with what the failed merge leaves
      rw [hmerge] at hroot
      refine ⟨root, hroot, htag, fun h ha => hall h (ha a List.mem_cons_self)⟩
    · rw [hmerge] at hroot
      obtain rfl : next = p.withRoot root := hroot
      obtain ⟨root', hroot', htag', hall'⟩ := ih (p.withRoot root)
      refine ⟨root', hroot', htag'.trans htag, fun h ha => ?_⟩
      rw [List.forall_mem_cons] at ha
      exact hall' (hall h ha.1) ha.2

variable (hkind : kind.tag ≠ kind.containerTag)
include hkind

/-- What holds of a regular project, and after putting in an artifact if it held before, holds after
any number. -/
theorem foldl_put_induction {motive : Project → Prop} (h : p.IsRegular kind)
    (ha : ∀ a ∈ artifacts, a.Fits kind) (start : motive p)
    (step : ∀ q : Project, ∀ a ∈ artifacts, q.IsRegular kind → motive q → motive (q.put kind a)) :
    (artifacts.foldl (put · kind) p).IsRegular kind ∧ motive (artifacts.foldl (put · kind) p) := by
  induction artifacts generalizing p with
  | nil => exact ⟨h, start⟩
  | cons a rest ih =>
    rw [List.forall_mem_cons] at ha
    exact ih (h.put hkind ha.1) ha.2 (step p a List.mem_cons_self h start)
      fun q b hb => step q b (List.mem_cons_of_mem _ hb)

/-- Identities stay unique. -/
theorem count_foldl_put_le (h : p.IsRegular kind) (ha : ∀ a ∈ artifacts, a.Fits kind)
    {identity : String} (hcount : p.count kind identity ≤ 1) :
    (artifacts.foldl (put · kind) p).count kind identity ≤ 1 := by
  refine (foldl_put_induction (motive := fun q => q.count kind identity ≤ 1) hkind h ha hcount ?_).2
  intro q a hmem hq hcount
  rw [count_put hkind hq (ha a hmem)]
  split
  · exact Nat.le_refl 1
  · exact hcount

/-- A batch of merges puts in one artifact after the other, if their identities are unique. -/
theorem mergeAll_eq_foldl (h : p.IsRegular kind) (ha : ∀ a ∈ artifacts, a.Fits kind)
    (hcount : ∀ a ∈ artifacts, p.count kind a.identity ≤ 1) :
    ∃ outcomes, p.mergeAll artifacts = (artifacts.foldl (put · kind) p, .ok outcomes) := by
  induction artifacts generalizing p with
  | nil => exact ⟨[], rfl⟩
  | cons a rest ih =>
    rw [List.forall_mem_cons] at ha hcount
    have later : ∀ b ∈ rest, (p.put kind a).count kind b.identity ≤ 1 := by
      intro b hb
      rw [count_put hkind h ha.1]
      split
      · exact Nat.le_refl 1
      · exact hcount.2 b hb
    obtain ⟨outcomes, hrest⟩ := ih (h.put hkind ha.1) ha.2 later
    refine ⟨(if (p.find? kind a.identity).isSome then .replaced else .inserted) :: outcomes, ?_⟩
    rw [mergeAll, merge_eq_put hkind h ha.1 hcount.1]
    simp only [hrest]
    rfl

/-- Afterwards the last artifact of an identity is found under it, and what was found before if
there is none. -/
theorem find?_foldl_put (h : p.IsRegular kind) (ha : ∀ a ∈ artifacts, a.Fits kind)
    (identity : String) : (artifacts.foldl (put · kind) p).find? kind identity
      = ((artifacts.reverse.find? (·.identity == identity)).map (·.payload)).or
          (p.find? kind identity) := by
  induction artifacts generalizing p with
  | nil => rfl
  | cons a rest ih =>
    rw [List.forall_mem_cons] at ha
    rw [List.foldl_cons, ih (h.put hkind ha.1) ha.2, find?_put hkind h ha.1, List.reverse_cons,
      List.find?_append, Option.map_or, Option.or_assoc]
    -- the first artifact counts only if no later one has its identity
    congr 1
    rw [List.find?_singleton]
    by_cases heq : identity = a.identity
    · simp [heq]
    · simp [heq, Ne.symm heq]

/-! ## The normal form -/

omit hkind

/-- The project without the definitions of the artifacts' identities, and with the artifacts that
stay at the end of its container. -/
def putAll (p : Project) (kind : ArtifactKind) (artifacts : List Artifact) : Project :=
  p.replace kind (kind.definesAny artifacts) (Artifact.payloads (Artifact.lastOfEach artifacts))

/-- One more artifact in front is there afterwards if no other takes its place. -/
theorem payloads_lastOfEach_cons {a : Artifact} (ha : a.Fits kind) (rest : List Artifact) :
    Artifact.payloads (Artifact.lastOfEach (a :: rest))
      = ((Content.ofElement a.payload).prune (kind.definesAny rest)).append
          (Artifact.payloads (Artifact.lastOfEach rest)) := by
  rw [Artifact.lastOfEach, Content.ofElement, Content.prune, ha.definesAny, ha.prune_content]
  split <;> rfl

/-- Payloads of artifacts whose identities are all met are pruned away. -/
theorem prune_payloads {stay : List Artifact} (hsub : ∀ a ∈ stay, a ∈ artifacts)
    (ha : ∀ a ∈ artifacts, a.Fits kind) :
    (Artifact.payloads stay).prune (kind.definesAny artifacts) = .empty := by
  induction stay with
  | nil => rfl
  | cons a rest ih =>
    rw [List.forall_mem_cons] at hsub
    have met : kind.definesAny artifacts a.payload.toTag = true := by
      rw [(ha a hsub.1).definesAny, List.any_eq_true]
      exact ⟨a, hsub.1, beq_self_eq_true _⟩
    rw [Artifact.payloads, Content.prune, if_pos met, ih hsub.2]

/-- What stays is flat. -/
theorem areFlat_lastOfEach (ha : ∀ a ∈ artifacts, a.Fits kind) :
    kind.AreFlat (Artifact.payloads (Artifact.lastOfEach artifacts)).elements :=
  Artifact.areFlat_payloads fun a hmem => ha a ((Artifact.lastOfEach_sublist artifacts).subset hmem)

include hkind

/-- **Normal form.** Putting in artifacts one after the other is a single replacement. -/
theorem foldl_put_eq_putAll (h : p.IsRegular kind) (ha : ∀ a ∈ artifacts, a.Fits kind) :
    artifacts.foldl (put · kind) p = p.putAll kind artifacts := by
  induction artifacts generalizing p with
  | nil => exact replace_empty.symm
  | cons a rest ih =>
    rw [List.forall_mem_cons] at ha
    -- the replacement by the others drops the first artifact again if one of them has its identity
    rw [List.foldl_cons, ih (h.put hkind ha.1) ha.2, putAll, put,
      replace_replace hkind h (name_of_defines _ _)
      (kind.name_of_definesAny rest) ha.1.flat, ← payloads_lastOfEach_cons ha.1]
    rfl

/-- The normal form of a normal form is itself. -/
theorem putAll_putAll (h : p.IsRegular kind) (ha : ∀ a ∈ artifacts, a.Fits kind) :
    (p.putAll kind artifacts).putAll kind artifacts = p.putAll kind artifacts := by
  rw [putAll, putAll,
    replace_replace hkind h (kind.name_of_definesAny artifacts) (kind.name_of_definesAny artifacts)
    (areFlat_lastOfEach ha),
    prune_payloads (fun a hmem => (Artifact.lastOfEach_sublist artifacts).subset hmem) ha]
  simp only [Bool.or_self, Content.append]

/-- **Last writer wins.** A batch of merges succeeds and ends in the normal form, and doing it again
changes nothing. -/
theorem mergeAll_normalForm (h : p.IsRegular kind)
    (hload : ∀ a ∈ artifacts, ∃ source, kind.load source = .loaded a)
    (hsimple : ∀ a ∈ artifacts, kind.IsSimple a.payload)
    (hcount : ∀ a ∈ artifacts, p.count kind a.identity ≤ 1) :
    ∃ outcomes again, p.mergeAll artifacts = (p.putAll kind artifacts, .ok outcomes)
      ∧ (p.putAll kind artifacts).mergeAll artifacts = (p.putAll kind artifacts, .ok again) := by
  have ha : ∀ a ∈ artifacts, a.Fits kind := by
    intro a hmem
    obtain ⟨source, hsource⟩ := hload a hmem
    exact Artifact.fits_of_load hsource (hsimple a hmem)
  obtain ⟨outcomes, hfirst⟩ := mergeAll_eq_foldl hkind h ha hcount
  have normal := foldl_put_eq_putAll hkind h ha
  -- the normal form is regular, with unique identities, so the batch can be merged into it too
  have regular := h.replace hkind (kind.name_of_definesAny artifacts) (areFlat_lastOfEach ha)
  have unique : ∀ a ∈ artifacts, (p.putAll kind artifacts).count kind a.identity ≤ 1 := by
    intro a hmem
    rw [← normal]
    exact count_foldl_put_le hkind h ha (hcount a hmem)
  obtain ⟨again, hsecond⟩ := mergeAll_eq_foldl hkind regular ha unique
  refine ⟨outcomes, again, ?_, ?_⟩
  · rw [hfirst, normal]
  · rw [show (p.putAll kind artifacts).mergeAll artifacts = _ from hsecond,
      foldl_put_eq_putAll hkind regular ha]
    exact congrArg (·, _) (putAll_putAll hkind h ha)

omit hkind

/-- Definitions of `A`, of `C`, and of `A` again. -/
def updates : List Artifact :=
  [⟨.addOnInstruction, "A", definition "A" "new"⟩, ⟨.addOnInstruction, "C", definition "C" "new"⟩,
    ⟨.addOnInstruction, "A", definition "A" "newest"⟩]

/-- Each of them is loaded from an export that holds it. -/
theorem load_updates :
    ∀ a ∈ updates, ArtifactKind.addOnInstruction.load (exporting a.payload) = .loaded a := by
  decide

/-- The last definition of `A` comes after that of `C`. -/
theorem mergeAll_normalForm_updates :
    ∃ outcomes again,
      scattered.mergeAll updates = (scattered.putAll .addOnInstruction updates, .ok outcomes)
        ∧ (scattered.putAll .addOnInstruction updates).mergeAll updates
            = (scattered.putAll .addOnInstruction updates, .ok again)
        ∧ (scattered.putAll .addOnInstruction updates).names .addOnInstruction
            = .ok ["B", "C", "A"] := by
  obtain ⟨outcomes, again, first, second⟩ :=
    mergeAll_normalForm (p := scattered) (show ArtifactKind.addOnInstruction.tag ≠ _ by decide)
      (by decide) (fun a ha => ⟨_, load_updates a ha⟩) (by decide) (by decide)
  exact ⟨outcomes, again, first, second, by decide⟩

end Project

end PlcWorkbench
