import PlcWorkbench.Proofs.Session.Effect
import PlcWorkbench.Proofs.Text.Bytes

/-!
# What a model tells of its history

A model keeps the last value of each property, a log of writes and the set of applied stereotypes.
Read against the calls that led to the model, a value is the one of the last successful call that
set it, a count is the number of successful calls, and a stereotype is there if some call applied
it. Calls that failed leave no trace.

* `Records` : what a model says about successful calls, kept by each call (`Records.concat`) and
  along a history (`Records.append`);
* `pairwise_stereotypesOf` : the order in which stereotypes are listed;
* `hasHistory_foldl_perform` : a model against all calls that led to it.
-/

namespace PlcWorkbench.Session

/-- Stereotypes are ordered by the bytes of their module, and within a module by the bytes of their
name. -/
def Stereotype.Precedes (a b : Stereotype) : Prop :=
  Text.bytes a.moduleName < Text.bytes b.moduleName
    ∨ a.moduleName = b.moduleName ∧ Text.bytes a.name < Text.bytes b.name

namespace Model

variable {m m' : Model} {c : Call} {ok : Bool} {made : List Call} {element key : String}
  {s : Stereotype}
  {target : PropertyKey}

/-! ## Successful calls -/

/-- The value that a call is to give to a property. -/
def Call.value? (target : PropertyKey) : Call → Option String
  | .setProperty other value => if other = target then some value else none
  | _ => none

/-- Whether a call is to set this property of the element, in any stereotype. -/
def Call.sets (element key : String) : Call → Bool
  | .setProperty target _ => target.element == element && target.key == key
  | _ => false

/-- A call that applies a stereotype succeeds. -/
theorem addStereotype_mem_acceptedBy (m : Model) (calls : List Call) :
    .addStereotype element s ∈ acceptedBy accepts perform m calls
      ↔ .addStereotype element s ∈ calls := by
  induction calls generalizing m with
  | nil => exact Iff.rfl
  | cons c rest ih =>
    rw [acceptedBy, List.mem_append, ih, List.mem_cons]
    apply or_congr_left
    by_cases hc : .addStereotype element s = c
    · subst hc
      simp [accepts]
    · split <;> simp [hc]

/-! ## What a model says about them -/

/-- The model has the values, the writes and the stereotypes that successful calls gave it. -/
structure Records (m : Model) (made : List Call) : Prop where
  property : ∀ target, m.property? target = (made.filterMap (Call.value? target)).getLast?
  writes : ∀ element key, m.writeCount element key = made.countP (Call.sets element key)
  stereotypes : ∀ element s, (element, s) ∈ m.stereotypes ↔ Call.addStereotype element s ∈ made

/-- The empty model has no history. -/
theorem Records.empty : Records {} [] where
  property := fun _ => rfl
  writes := fun _ _ => rfl
  stereotypes := by simp

/-- A call that sets no property leaves values and counts. -/
theorem Records.concat_of_not_set (h : m.Records made) (hvalue : ∀ target, c.value? target = none)
    (hsets : ∀ element key, c.sets element key = false) (hproperty : m'.property? = m.property?)
    (hwrites : m'.writeCount = m.writeCount)
    (hstereotypes : ∀ element s, (element, s) ∈ m'.stereotypes
      ↔ (element, s) ∈ m.stereotypes ∨ Call.addStereotype element s = c) :
    m'.Records (made ++ [c]) where
  property := by
    intro target
    rw [hproperty, h.property, List.filterMap_append]
    simp [hvalue]
  writes := by
    intro element key
    rw [hwrites, h.writes, List.countP_append]
    simp [hsets]
  stereotypes := by
    intro element s
    rw [hstereotypes, h.stereotypes, List.mem_append, List.mem_singleton]

/-- **A call is recorded** if it succeeds, and only then. -/
theorem Records.concat (h : m.Records made) (heffect : m.Effect c ok m') :
    m'.Records (made ++ if ok then [c] else []) := by
  cases heffect with
  | package name =>
    exact h.concat_of_not_set (fun _ => rfl) (fun _ _ => rfl) rfl rfl (by simp [addPackage])
  | machine known name =>
    exact h.concat_of_not_set (fun _ => rfl) (fun _ _ => rfl) rfl rfl (by simp [withMachine])
  | stereotype element s =>
    refine h.concat_of_not_set (fun _ => rfl) (fun _ _ => rfl) property?_addStereotype
      writeCount_addStereotype ?_
    intro other t
    rw [mem_stereotypes_addStereotype]
    simp
  | @property target there value =>
    refine ⟨?_, ?_, ?_⟩
    · intro other
      rw [property?_write, List.filterMap_append]
      by_cases heq : other = target
      · simp [Call.value?, heq]
      · simp [Call.value?, heq, Ne.symm heq, h.property]
    · intro element key
      rw [writeCount_write, h.writes, List.countP_append]
      simp [Call.sets, List.countP_singleton]
    · intro element s
      rw [stereotypes_write, h.stereotypes]
      simp
  | unknownPackage unknown name => simpa using h
  | missingStereotype missing value => simpa using h

/-- **A history is recorded**: its successful calls are added to those before. -/
theorem Records.append (h : m.Records made) (calls : List Call) :
    (calls.foldl perform m).Records (made ++ acceptedBy accepts perform m calls) := by
  induction calls generalizing m made with
  | nil => simpa [acceptedBy] using h
  | cons c rest ih =>
    rw [List.foldl_cons, acceptedBy, ← List.append_assoc]
    exact ih (h.concat (m.effect c))

/-! ## The order of stereotypes -/

/-- No stereotype is applied to an element twice. -/
theorem IsReachable.nodup_stereotypes (h : m.IsReachable) : m.stereotypes.Nodup := by
  refine h.of_effect (motive := fun m => m.stereotypes.Nodup) List.nodup_nil ?_
  intro m c ok m' heffect ih
  cases heffect with
  | stereotype element s =>
    rw [addStereotype]
    split
    · exact ih
    · rename_i hnew
      have fresh : (element, s) ∉ m.stereotypes := fun hmem => hnew (List.contains_iff_mem.2 hmem)
      show (m.stereotypes ++ [(element, s)]).Nodup
      rw [← List.concat_eq_append]
      exact ih.concat fresh
  | package name => exact ih
  | machine known name => exact ih
  | property there value => exact ih
  | unknownPackage unknown name => exact ih
  | missingStereotype missing value => exact ih

/-- Of two stereotypes, one comes before the other. -/
theorem stereotypeLe_total (a b : Stereotype) : (stereotypeLe a b || stereotypeLe b a) = true := by
  rw [Bool.or_eq_true, stereotypeLe, stereotypeLe]
  by_cases hmodule : a.moduleName = b.moduleName
  · rw [if_pos hmodule, if_pos hmodule.symm, decide_eq_true_iff, decide_eq_true_iff]
    exact String.le_total _ _
  · rw [if_neg hmodule, if_neg (Ne.symm hmodule), decide_eq_true_iff, decide_eq_true_iff]
    exact String.le_total _ _

/-- What comes first is before all that follows. -/
theorem stereotypeLe_trans (a b c : Stereotype) (hab : stereotypeLe a b = true)
    (hbc : stereotypeLe b c = true) :
    stereotypeLe a c = true := by
  rw [stereotypeLe] at hab hbc ⊢
  by_cases hfirst : a.moduleName = b.moduleName
  · rw [if_pos hfirst, decide_eq_true_iff] at hab
    by_cases hsecond : b.moduleName = c.moduleName
    · rw [if_pos hsecond, decide_eq_true_iff] at hbc
      rw [if_pos (hfirst.trans hsecond), decide_eq_true_iff]
      exact String.le_trans hab hbc
    · rw [if_neg hsecond] at hbc
      rw [hfirst, if_neg hsecond]
      exact hbc
  · rw [if_neg hfirst, decide_eq_true_iff] at hab
    by_cases hsecond : b.moduleName = c.moduleName
    · rw [← hsecond, if_neg hfirst, decide_eq_true_iff]
      exact hab
    · rw [if_neg hsecond, decide_eq_true_iff] at hbc
      have apart : a.moduleName ≠ c.moduleName := by
        intro heq
        rw [← heq] at hbc
        exact hfirst (String.le_antisymm hab hbc)
      rw [if_neg apart, decide_eq_true_iff]
      exact String.le_trans hab hbc

/-- Of two different stereotypes in order, the first has the lesser bytes. -/
theorem precedes_of_stereotypeLe {a b : Stereotype} (hle : stereotypeLe a b = true) (hne : a ≠ b) :
    a.Precedes b := by
  rw [stereotypeLe] at hle
  rw [Stereotype.Precedes, Text.bytes_lt_iff, Text.bytes_lt_iff]
  by_cases hmodule : a.moduleName = b.moduleName
  · rw [if_pos hmodule, decide_eq_true_iff] at hle
    have names : a.name ≠ b.name := by
      intro hname
      obtain ⟨module, name⟩ := a
      obtain ⟨module', name'⟩ := b
      simp only at hmodule hname
      exact hne (by rw [hmodule, hname])
    exact .inr ⟨hmodule, Std.lt_of_le_of_ne hle names⟩
  · rw [if_neg hmodule, decide_eq_true_iff] at hle
    exact .inl (Std.lt_of_le_of_ne hle hmodule)

/-- The stereotypes of an element are those that were applied to it. -/
theorem mem_stereotypesOf : s ∈ m.stereotypesOf element ↔ (element, s) ∈ m.stereotypes := by
  rw [stereotypesOf, List.mem_mergeSort, List.mem_map]
  constructor
  · rintro ⟨⟨other, s⟩, hpair, rfl⟩
    obtain ⟨hmem, helement⟩ := List.mem_filter.1 hpair
    rw [← beq_iff_eq.1 helement]
    exact hmem
  · intro hmem
    exact ⟨(element, s), List.mem_filter.2 ⟨hmem, beq_self_eq_true _⟩, rfl⟩

/-- The stereotypes of an element are listed in ascending order, each once. -/
theorem pairwise_stereotypesOf (hnodup : m.stereotypes.Nodup) (element : String) :
    (m.stereotypesOf element).Pairwise Stereotype.Precedes := by
  have ascending := List.pairwise_mergeSort stereotypeLe_trans stereotypeLe_total
    ((m.stereotypes.filter (·.1 == element)).map (·.2))
  have distinct : (m.stereotypesOf element).Nodup := by
    rw [stereotypesOf, (List.mergeSort_perm _ _).nodup_iff]
    refine (hnodup.filter _).map_on ?_
    intro pair hpair pair' hpair' heq
    have first : pair.1 = element := beq_iff_eq.1 (List.mem_filter.1 hpair).2
    have first' : pair'.1 = element := beq_iff_eq.1 (List.mem_filter.1 hpair').2
    exact Prod.ext (first.trans first'.symm) heq
  exact (ascending.and distinct).imp fun {a b} ⟨hle, hne⟩ => precedes_of_stereotypeLe hle hne

/-! ## A model against its history -/

/-- What is read from a model is what the calls say: a property has the value of the last successful
call that set it, writes are counted for each element and key, properties can be set where a
stereotype was applied, and the stereotypes of an element are listed in order. -/
structure HasHistory (m : Model) (calls : List Call) : Prop where
  property : ∀ target,
    m.property? target = ((acceptedBy accepts perform {} calls).filterMap
      (Call.value? target)).getLast?
  writes : ∀ element key,
    m.writeCount element key = (acceptedBy accepts perform {} calls).countP (Call.sets element key)
  settable : ∀ target value, (m.setProperty target value).2 = .ok ()
    ↔ Call.addStereotype target.element target.stereotype ∈ calls
  applied : ∀ element s, s ∈ m.stereotypesOf element ↔ Call.addStereotype element s ∈ calls
  ascending : ∀ element, (m.stereotypesOf element).Pairwise Stereotype.Precedes

/-- A property is set exactly if its element has the stereotype. -/
theorem setProperty_eq_ok_iff (m : Model) (target : PropertyKey) (value : String) :
    (m.setProperty target value).2 = .ok ()
      ↔ (target.element, target.stereotype) ∈ m.stereotypes := by
  by_cases there : (target.element, target.stereotype) ∈ m.stereotypes
  · rw [setProperty_eq_write there]
    exact iff_of_true rfl there
  · rw [setProperty_eq_error there]
    exact iff_of_false (fun heq => by cases heq) there

/-- **What is read from a model** is what its history says, for any calls that led to it from the
empty model. -/
theorem hasHistory_foldl_perform (calls : List Call) :
    (calls.foldl perform {}).HasHistory calls := by
  have reachable : (calls.foldl perform {}).IsReachable := ⟨calls, rfl⟩
  have records : (calls.foldl perform {}).Records (acceptedBy accepts perform {} calls) :=
    Records.empty.append calls
  have stereotypes : ∀ element s, (element, s) ∈ (calls.foldl perform {}).stereotypes
      ↔ Call.addStereotype element s ∈ calls := by
    intro element s
    rw [records.stereotypes, addStereotype_mem_acceptedBy]
  refine ⟨records.property, records.writes, ?_, ?_, ?_⟩
  · intro target value
    rw [setProperty_eq_ok_iff, stereotypes]
  · intro element s
    rw [mem_stereotypesOf, stereotypes]
  · exact pairwise_stereotypesOf reachable.nodup_stereotypes

end Model

end PlcWorkbench.Session
