import PlcWorkbench.Proofs.Pattern.Run
import PlcWorkbench.Proofs.Workspace.Stem
import Mathlib.Data.List.Nodup
import Mathlib.Data.List.Pairwise

/-!
# Names of the machines that an instantiation creates

A pattern asks for machines of different names, and two patterns ask for machines of one name only
if they have the same name or one has the name of a variant of the other. No check keeps such files
apart, so an instantiation gives different names exactly if it does not meet them.

* `IsVariant`, `disjoint_machineNames_iff` : when two patterns ask for one name;
* `exists_created` : what an instantiation that succeeds has created;
* `nodup_created_iff` : when all names are different.
-/

namespace PlcWorkbench.Pattern

open Session (Package Machine Model)

variable {config : PatternConfig} {package : Package} {pattern pattern' name : String}

/-! ## Names that a pattern asks for -/

/-- The name is that of a variant of the pattern. -/
def IsVariant (config : PatternConfig) (pattern name : String) : Prop :=
  IsMarked config pattern ∧ ∃ mode ∈ ScanMode.all, name = pattern ++ mode.token

instance (config : PatternConfig) (pattern name : String) :
    Decidable (IsVariant config pattern name) :=
  inferInstanceAs (Decidable (_ ∧ _))

/-- A marked pattern asks for one machine for each scan mode. -/
theorem machineNames_of_isMarked (h : IsMarked config pattern) :
    machineNames config pattern = ScanMode.all.map fun mode => pattern ++ mode.token :=
  if_pos h

/-- Any other pattern asks for a machine with its own name. -/
theorem machineNames_of_not_isMarked (h : ¬ IsMarked config pattern) :
    machineNames config pattern = [pattern] :=
  if_neg h

/-- A pattern asks for its variants if it is marked, and for its own name otherwise. -/
theorem mem_machineNames_iff :
    name ∈ machineNames config pattern
      ↔ IsVariant config pattern name ∨ ¬ IsMarked config pattern ∧ name = pattern := by
  unfold IsVariant
  by_cases hmarked : IsMarked config pattern
  · rw [machineNames_of_isMarked hmarked, List.mem_map]
    simp only [hmarked, true_and, not_true, false_and, or_false, eq_comm]
  · rw [machineNames_of_not_isMarked hmarked, List.mem_singleton]
    simp only [hmarked, false_and, not_false_eq_true, true_and, false_or]

/-- A pattern asks for some name. -/
theorem exists_mem_machineNames (config : PatternConfig) (pattern : String) :
    ∃ name, name ∈ machineNames config pattern := by
  by_cases hmarked : IsMarked config pattern
  · have single : IsVariant config pattern (pattern ++ ScanMode.single.token) :=
      ⟨hmarked, .single, List.mem_cons_self, rfl⟩
    exact ⟨_, mem_machineNames_iff.2 (.inl single)⟩
  · exact ⟨pattern, mem_machineNames_iff.2 (.inr ⟨hmarked, rfl⟩)⟩

/-- Scan modes have different tokens. -/
theorem token_injective : Function.Injective ScanMode.token := by
  intro mode mode' heq
  have back : ∀ mode : ScanMode, ScanMode.ofToken? mode.token = some mode := by
    intro mode
    cases mode <;> decide
  have same := congrArg ScanMode.ofToken? heq
  rw [back, back] at same
  exact Option.some.inj same

/-- The names that a pattern asks for are different. -/
theorem nodup_machineNames (config : PatternConfig) (pattern : String) :
    (machineNames config pattern).Nodup := by
  by_cases hmarked : IsMarked config pattern
  · have modes : ScanMode.all.Nodup := by decide
    rw [machineNames_of_isMarked hmarked]
    refine modes.map fun mode mode' heq => ?_
    have tokens : mode.token = mode'.token := (String.append_right_inj pattern).1 heq
    exact token_injective tokens
  · rw [machineNames_of_not_isMarked hmarked]
    exact List.nodup_singleton pattern

/-! ## Patterns that ask for one name -/

/-- A marked pattern ends in the marker. -/
theorem isMarked_iff :
    IsMarked config pattern ↔ ∃ front, pattern.toList = front ++ [config.multiplicityMarker] :=
  List.getLast?_eq_some_iff

/-- The marker of a configuration that is accepted is no letter or digit. -/
theorem isAlphanumeric_marker {c : Config} (h : c.validate = .ok ()) :
    Text.isAlphanumeric c.patterns.multiplicityMarker = false := by
  rw [Config.validate] at h
  split at h
  · cases h
  · split at h
    · cases h
    · rename_i hmarker
      exact Bool.eq_false_iff.2 hmarker

/-- A marker that is no letter or digit is in no scan mode's token. -/
theorem notMem_token {marker : Char} (h : Text.isAlphanumeric marker = false) (mode : ScanMode) :
    marker ∉ mode.token.toList := by
  intro hmem
  have letters : mode.token.toList.all Char.isAlphanum = true := by
    cases mode <;> decide
  rw [Text.isAlphanumeric, List.all_eq_true.1 letters _ hmem, Bool.true_or] at h
  cases h

/-- The marker of a configuration that is accepted is in no scan mode's token. -/
theorem marker_notMem_token {c : Config} (h : c.validate = .ok ()) (mode : ScanMode) :
    c.patterns.multiplicityMarker ∉ mode.token.toList :=
  notMem_token (isAlphanumeric_marker h) mode

section

-- as in every configuration that is accepted
variable (hmarker : ∀ mode : ScanMode, config.multiplicityMarker ∉ mode.token.toList)

include hmarker

/-- A variant's name tells its pattern. -/
theorem eq_of_append_token (hmarked : IsMarked config pattern) (hmarked' : IsMarked config pattern')
    {mode mode' : ScanMode} (heq : pattern ++ mode.token = pattern' ++ mode'.token) :
    pattern = pattern' := by
  obtain ⟨front, hfront⟩ := isMarked_iff.1 hmarked
  obtain ⟨front', hfront'⟩ := isMarked_iff.1 hmarked'
  have texts := congrArg String.toList heq
  rw [String.toList_append, String.toList_append, hfront, hfront', List.append_assoc,
    List.append_assoc] at texts
  have fronts : front = front' := (Text.append_separator_inj (hmarker mode) (hmarker mode') texts).1
  rw [← String.toList_inj, hfront, hfront', fronts]

/-- A variant's name is not marked. -/
theorem not_isMarked_of_isVariant (h : IsVariant config pattern name) : ¬ IsMarked config name := by
  obtain ⟨-, mode, -, rfl⟩ := h
  intro hmarked
  have filled : mode.token.toList ≠ [] := by
    cases mode <;> decide
  unfold IsMarked at hmarked
  rw [String.toList_append, List.getLast?_append_of_ne_nil _ filled] at hmarked
  exact hmarker mode (List.mem_of_getLast? hmarked)

/-- **Two patterns ask for one name** only if they have one name, or one of them has the name of a
variant of the other. -/
theorem disjoint_machineNames_iff :
    List.Disjoint (machineNames config pattern) (machineNames config pattern')
      ↔ pattern ≠ pattern' ∧ ¬ IsVariant config pattern pattern'
          ∧ ¬ IsVariant config pattern' pattern := by
  constructor
  · intro disjoint
    refine ⟨?_, fun variant => ?_, fun variant => ?_⟩
    · rintro rfl
      obtain ⟨name, hname⟩ := exists_mem_machineNames config pattern
      exact disjoint hname hname
    · have plain := not_isMarked_of_isVariant hmarker variant
      exact disjoint (mem_machineNames_iff.2 (.inl variant))
        (mem_machineNames_iff.2 (.inr ⟨plain, rfl⟩))
    · have plain := not_isMarked_of_isVariant hmarker variant
      exact disjoint (mem_machineNames_iff.2 (.inr ⟨plain, rfl⟩))
        (mem_machineNames_iff.2 (.inl variant))
  · rintro ⟨hne, hvariant, hvariant'⟩ name hname hname'
    rcases mem_machineNames_iff.1 hname with variant | ⟨-, rfl⟩
    · rcases mem_machineNames_iff.1 hname' with variant' | ⟨-, rfl⟩
      · obtain ⟨hmarked, mode, -, hmode⟩ := variant
        obtain ⟨hmarked', mode', -, hmode'⟩ := variant'
        exact hne (eq_of_append_token hmarker hmarked hmarked' (hmode.symm.trans hmode'))
      · exact hvariant variant
    · rcases mem_machineNames_iff.1 hname' with variant' | ⟨-, rfl⟩
      · exact hvariant' variant'
      · exact hne rfl

/-- The names that several patterns ask for are different if the patterns have different names, none
of which is that of a variant of another. -/
theorem nodup_flatMap_machineNames_iff {stems : List String} :
    (stems.flatMap (machineNames config)).Nodup
      ↔ stems.Nodup ∧ ∀ stem ∈ stems, ∀ stem' ∈ stems, ¬ IsVariant config stem stem' := by
  have own : ∀ stem, ¬ IsVariant config stem stem := fun stem variant =>
    not_isMarked_of_isVariant hmarker variant variant.1
  have symmetric : Std.Symm (Function.onFun List.Disjoint (machineNames config)) :=
    ⟨fun _ _ h _ hmem hmem' => h hmem' hmem⟩
  rw [List.nodup_flatMap]
  constructor
  · rintro ⟨-, disjoint⟩
    refine ⟨disjoint.imp fun h => ((disjoint_machineNames_iff hmarker).1 h).1, ?_⟩
    intro stem hstem stem' hstem' variant
    have hne : stem ≠ stem' := by
      rintro rfl
      exact own stem variant
    exact ((disjoint_machineNames_iff hmarker).1 (disjoint.forall hstem hstem' hne)).2.1 variant
  · rintro ⟨distinct, apart⟩
    refine ⟨fun stem _ => nodup_machineNames config stem, distinct.pairwise_of_forall_ne ?_⟩
    intro stem hstem stem' hstem' hne
    exact (disjoint_machineNames_iff hmarker).2 ⟨hne, apart stem hstem stem' hstem',
      apart stem' hstem' stem hstem⟩

end

/-! ## What an instantiation has created -/

variable {s s' : Session} {files : List Path} {path : Path} {report report' : InstantiationReport}
  {w : Workspace}
  {directory : Path}

/-- Each of the applications that were made one after the other was made in some session. -/
theorem exists_applied {applications : List Application}
    (h : (applyAll path applications).Succeeds s () s')
    {application : Application} (hmem : application ∈ applications) :
    ∃ t t' : Session, t.applyPattern application.pattern application.bindings = (t', .ok ()) := by
  induction applications generalizing s with
  | nil => cases hmem
  | cons first rest ih =>
    obtain ⟨_, between, hfirst, hrest⟩ := Task.succeeds_bind_iff.1 h
    rcases List.mem_cons.1 hmem with rfl | hlater
    · obtain ⟨_, made, hstep, -⟩ := Task.succeeds_bind_iff.1 hfirst
      exact ⟨s, made, Task.succeeds_step_iff.1 hstep⟩
    · exact ih hrest hlater

/-- The name of a variant takes the place of the package, if the pattern has the name of the
parameter for it. -/
theorem applyPattern_variant_eq_error (s : Session) (package : Package) (mode : ScanMode) :
    ∃ cause,
      s.applyPattern Session.nameParameter (variant Session.nameParameter package mode).bindings
      = (s, .error cause) := by
  apply Session.applyPattern_eq_error
  intro other applicable
  have bound := applicable.bound
  unfold variant at bound
  rw [Dictionary.get?_set, if_pos rfl] at bound
  cases bound

/-- No file of an instantiation that succeeds is a marked pattern with the name of that
parameter. -/
theorem ne_nameParameter_of_succeeds
    (h : (instantiateFiles config package report files).Succeeds s report' s')
    (hpath : path ∈ files) (hstem : path.fileStem? = some pattern) :
    ¬ (IsMarked config pattern ∧ pattern = Session.nameParameter) := by
  induction files generalizing s report with
  | nil => cases hpath
  | cons first rest ih =>
    obtain ⟨_, between, hfirst, hrest⟩ := Task.succeeds_bind_iff.1 h
    rcases List.mem_cons.1 hpath with rfl | hlater
    · rintro ⟨hmarked, rfl⟩
      rw [instantiateFile] at hfirst
      simp only [hstem] at hfirst
      obtain ⟨_, registered, -, afterwards⟩ := Task.succeeds_bind_iff.1 hfirst
      obtain ⟨_, applied, happly, -⟩ := Task.succeeds_bind_iff.1 afterwards
      rw [plan_of_isMarked hmarked] at happly
      obtain ⟨t, t', hmade⟩ := exists_applied happly List.mem_cons_self
      obtain ⟨cause, herror⟩ := applyPattern_variant_eq_error t package .single
      have outcome := congrArg Prod.snd (hmade.symm.trans herror)
      cases outcome
    · exact ih hrest hlater

/-- An instantiation succeeds if one package is selected and no pattern hides it. -/
theorem exists_instantiate {stems : List String}
    (hselect : selectPackage config s.model = .ok package)
    (hstems : (Pattern.files config w directory).map (·.fileStem?) = stems.map some)
    (hname : ∀ stem ∈ stems, ¬ (IsMarked config stem ∧ stem = Session.nameParameter)) :
    ∃ (report : InstantiationReport) (s' : Session),
      (instantiate config w directory).Succeeds s report s'
      ∧ Grows package (Pattern.files config w directory)
          (stems.flatMap (plan config · package)) s s' := by
  obtain ⟨s', success, grows⟩ :=
    exists_instantiateFiles hstems hname (mem_of_selectPackage hselect)
      { targetPackage := some package.name }
  exact ⟨_, s', succeeds_instantiate_iff.2 ⟨package, hselect, success⟩, grows⟩

/-- **What an instantiation has created** if it succeeds: the machines that its patterns ask for,
file by file. -/
theorem exists_created (htree : w.IsTree)
    (h : (instantiate config w directory).Succeeds s report s') :
    ∃ (stems : List String) (new : List Machine),
      (Pattern.files config w directory).map (·.fileStem?) = stems.map some
        ∧ s'.model.machines = s.model.machines ++ new
        ∧ new.map (·.name) = stems.flatMap (machineNames config) := by
  obtain ⟨stems, hstems⟩ := @exists_stems config w htree directory
  obtain ⟨package, selected, instantiated⟩ := succeeds_instantiate_iff.1 h
  have bound : ∀ stem ∈ stems, ¬ (IsMarked config stem ∧ stem = Session.nameParameter) := by
    intro stem hstem
    have listed : some stem ∈ (Pattern.files config w directory).map (·.fileStem?) := by
      rw [hstems]
      exact List.mem_map_of_mem hstem
    obtain ⟨path, hpath, hfile⟩ := List.mem_map.1 listed
    exact ne_nameParameter_of_succeeds instantiated hpath hfile
  obtain ⟨report', made, success, grows⟩ := exists_instantiate selected hstems bound
  obtain rfl : made = s' := (success.unique h).2
  obtain ⟨new, hnew, names, -⟩ := grows.machines
  refine ⟨stems, new, hstems, hnew, ?_⟩
  rw [names, List.map_flatMap]
  exact List.flatMap_congr fun stem hstem => map_machineName_plan (bound stem hstem)

/-- **The machines that an instantiation creates have different names** if it succeeds, exactly if
the pattern files have different stems, none of which is that of a marked file with a scan mode's
token behind it. Files have different stems unless one has only the extension for its name, and one
that name with the extension again. -/
theorem nodup_created_iff {c : Config} (hvalid : c.validate = .ok ()) (htree : w.IsTree)
    (h : (instantiate c.patterns w directory).Succeeds s report s') :
    ∃ (stems : List String) (new : List Machine),
      (Pattern.files c.patterns w directory).map (·.fileStem?) = stems.map some
        ∧ s'.model.machines = s.model.machines ++ new
        ∧ ((new.map (·.name)).Nodup
            ↔ stems.Nodup ∧ ∀ stem ∈ stems, ∀ stem' ∈ stems, ¬ IsVariant c.patterns stem stem')
        ∧ ('/' ∉ c.patterns.extension.toList →
            (stems.Nodup
              ↔ ('.' ∉ c.patterns.extension.toList →
                  ¬ w.HasRepeated directory c.patterns.extension))) := by
  obtain ⟨stems, new, hstems, hnew, names⟩ := exists_created htree h
  refine ⟨stems, new, hstems, hnew, ?_, fun hextension => ?_⟩
  · rw [names]
    exact nodup_flatMap_machineNames_iff (marker_notMem_token hvalid)
  · have injective : Function.Injective (some : String → Option String) :=
      fun _ _ => Option.some.inj
    rw [← List.nodup_map_iff injective, ← hstems]
    exact htree.nodup_stems_iff hextension directory

/-- A model with one package and no machines. -/
def emptyPlant : Model := (({} : Model).addPackage "Plant").1

/-- The package is the target. -/
theorem selectPackage_emptyPlant : selectPackage {} emptyPlant = .ok ⟨"pkg-0001", "Plant"⟩ := by
  rw [selectPackage_eq_ok_iff]
  decide +kernel

/-- The files of the workshop give different names. -/
theorem nodup_created_iff_workshop :
    ({} : Config).validate = .ok () ∧ workshop.IsTree
      ∧ ∃ (report : InstantiationReport) (s' : Session),
          (instantiate ({} : Config).patterns workshop ⟨"."⟩).Succeeds
            { model := emptyPlant } report s'
            ∧ (s'.model.machines.map (·.name)).Nodup := by
  have valid : ({} : Config).validate = .ok () := by decide +kernel
  have tree : workshop.IsTree := by decide
  have two :
      (Pattern.files {} workshop ⟨"."⟩).map (·.fileStem?) = ["Motor_", "Valve"].map some := by
    rw [files_workshop]
    decide +kernel
  obtain ⟨report, s', success, -⟩ :=
    @exists_instantiate {} _ { model := emptyPlant } _ _ _ selectPackage_emptyPlant two
    (by decide +kernel)
  obtain ⟨stems, new, hstems, hnew, different, -⟩ := nodup_created_iff valid tree success
  refine ⟨valid, tree, report, s', success, ?_⟩
  obtain rfl : stems = ["Motor_", "Valve"] :=
    List.map_injective_iff.2 (fun _ _ => Option.some.inj) (hstems.symm.trans two)
  have machines : s'.model.machines = new := hnew
  rw [machines, different]
  decide +kernel

/-- A directory with a marked pattern and one that has the name of a variant of it. -/
def twins : Workspace where
  entries := [(["Motor_.umlt"], .text ""), (["Motor_single.umlt"], .text "")]

/-- The files of the twins give one name twice. -/
theorem not_nodup_created_twins :
    ({} : Config).validate = .ok () ∧ twins.IsTree
      ∧ selectPackage ({} : Config).patterns emptyPlant = .ok ⟨"pkg-0001", "Plant"⟩
      ∧ emptyPlant.machines = []
      ∧ ∃ (report : InstantiationReport) (s' : Session),
          (instantiate ({} : Config).patterns twins ⟨"."⟩).Succeeds
            { model := emptyPlant } report s'
            ∧ s'.model.machines.map (·.name)
              = ["Motor_single", "Motor_dual", "Motor_sequential", "Motor_single"]
            ∧ ¬ (s'.model.machines.map (·.name)).Nodup := by
  have files : Pattern.files {} twins ⟨"."⟩ = [⟨"Motor_.umlt"⟩, ⟨"Motor_single.umlt"⟩] := by
    have names : twins.namesIn [] = ["Motor_.umlt", "Motor_single.umlt"] :=
      List.mergeSort_of_pairwise (by decide)
    rw [Pattern.files, Workspace.filesWithExtension_current rfl (by decide),
      show twins.current = [] from rfl, names]
    decide +kernel
  have two :
      (Pattern.files {} twins ⟨"."⟩).map (·.fileStem?) = ["Motor_", "Motor_single"].map some := by
    rw [files]
    decide +kernel
  obtain ⟨report, s', success, grows⟩ :=
    @exists_instantiate {} _ { model := emptyPlant } _ _ _ selectPackage_emptyPlant
      two (by decide +kernel)
  obtain ⟨new, hnew, names, -⟩ := grows.machines
  have machines : s'.model.machines = new := hnew
  have four :
      s'.model.machines.map (·.name) = ["Motor_single", "Motor_dual", "Motor_sequential",
        "Motor_single"] := by
    rw [machines, names]
    decide +kernel
  refine ⟨by decide +kernel, by decide, selectPackage_emptyPlant, rfl, report, s', success, four,
    ?_⟩
  rw [four]
  decide

end PlcWorkbench.Pattern
