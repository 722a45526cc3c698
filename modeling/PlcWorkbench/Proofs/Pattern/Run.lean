import PlcWorkbench.Pattern.Run
import PlcWorkbench.Proofs.Pattern.Annotation
import PlcWorkbench.Proofs.Session.Effect
import PlcWorkbench.Proofs.Workspace.Tree

/-!
# What a pattern run does to a session

A planned application binds the target package under the pattern's own name, so applying it creates
one machine there. What an instantiation adds to a session is the sum of what its steps add, and a
run annotates the machines that are there at its end.

* `isBound_of_mem_plan` : what a planned application is bound to;
* `Grows` : what steps add to a session, from one application to all files;
* `run_complete` : a whole run.
-/

namespace PlcWorkbench.Pattern

open Session (Package Machine)

variable {config : PatternConfig} {package : Package} {pattern : String} {application : Application}

/-! ## Planned applications -/

/-- The application binds the package under its pattern's name, and names a machine after its
variant or its pattern. -/
structure Application.IsBound (application : Application) (package : Package) : Prop where
  package_bound : Dictionary.get? application.bindings application.pattern = some (.package package)
  machine_name : Session.machineName application.pattern application.bindings
    = application.generatedName.getD application.pattern

/-- The pattern is applied once for each scan mode. -/
def IsMarked (config : PatternConfig) (pattern : String) : Prop :=
  pattern.toList.getLast? = some config.multiplicityMarker

instance (config : PatternConfig) (pattern : String) : Decidable (IsMarked config pattern) :=
  inferInstanceAs (Decidable (_ = _))

/-- The names of the machines that a pattern is to create. -/
def machineNames (config : PatternConfig) (pattern : String) : List String :=
  if IsMarked config pattern then [pattern ++ "single", pattern ++ "dual", pattern ++ "sequential"]
  else [pattern]

/-- The plan of a marked pattern has a variant for each scan mode. -/
theorem plan_of_isMarked (h : IsMarked config pattern) (package : Package) :
    plan config pattern package = ScanMode.all.map (variant pattern package) :=
  if_pos h

/-- The plan of any other pattern is one application under its own name. -/
theorem plan_of_not_isMarked (h : ¬ IsMarked config pattern) (package : Package) :
    plan config pattern package = [⟨pattern, none, packageBinding pattern package⟩] :=
  if_neg h

/-- A planned application is a variant of a marked pattern, or any other pattern under its own
name. -/
theorem mem_plan_iff :
    application ∈ plan config pattern package
      ↔ (IsMarked config pattern ∧ ∃ mode, variant pattern package mode = application)
        ∨ (¬ IsMarked config pattern ∧ application
            = ⟨pattern, none, packageBinding pattern package⟩) := by
  have every : ∀ mode, mode ∈ ScanMode.all := by
    intro mode
    cases mode <;> decide
  by_cases hmarked : IsMarked config pattern
  · rw [plan_of_isMarked hmarked, List.mem_map]
    simp only [hmarked, every, true_and, not_true, false_and, or_false]
  · rw [plan_of_not_isMarked hmarked, List.mem_singleton]
    simp only [hmarked, false_and, not_false_eq_true, true_and, false_or]

/-- Planned applications are of the pattern. -/
theorem pattern_of_mem_plan (h : application ∈ plan config pattern package) :
    application.pattern = pattern := by
  obtain ⟨-, mode, rfl⟩ | ⟨-, rfl⟩ := mem_plan_iff.1 h
  · rfl
  · rfl

/-- **A planned application is bound**, unless the name of a variant takes the place of the
package. -/
theorem isBound_of_mem_plan (hname : ¬ (IsMarked config pattern ∧ pattern = Session.nameParameter))
    (h : application ∈ plan config pattern package) : application.IsBound package := by
  obtain ⟨hmarked, mode, rfl⟩ | ⟨-, rfl⟩ := mem_plan_iff.1 h
  · have other : pattern ≠ Session.nameParameter := fun heq => hname ⟨hmarked, heq⟩
    constructor
    · rw [variant, Dictionary.get?_set, if_neg other]
      exact List.lookup_cons_self
    · rw [variant, Session.machineName, Dictionary.get?_set, if_pos rfl]
      rfl
  · constructor
    · exact List.lookup_cons_self
    · rw [Session.machineName, packageBinding, Dictionary.get?]
      by_cases heq : Session.nameParameter = pattern
      · rw [heq, List.lookup_cons_self]
        rfl
      · rw [lookup_cons_of_ne heq]
        rfl

/-- The applications of a plan name the machines that the pattern is to create. -/
theorem map_machineName_plan
    (hname : ¬ (IsMarked config pattern ∧ pattern = Session.nameParameter)) :
    (plan config pattern package).map (fun a => Session.machineName a.pattern a.bindings)
      = machineNames config pattern := by
  calc (plan config pattern package).map (fun a => Session.machineName a.pattern a.bindings)
      = (plan config pattern package).map fun a => a.generatedName.getD a.pattern :=
        List.map_congr_left fun a ha => (isBound_of_mem_plan hname ha).machine_name
    _ = machineNames config pattern := by
        by_cases hmarked : IsMarked config pattern
        · rw [plan_of_isMarked hmarked]
          exact (if_pos hmarked).symm
        · rw [plan_of_not_isMarked hmarked]
          exact (if_neg hmarked).symm

/-! ## What steps add -/

variable {s s' s'' : Session} {files files' : List Path}
  {applications applications' : List Application}

/-- From one session to another, the files were registered and the applications made: each created a
machine in the package, named as the application says, and was recorded. -/
structure Grows (package : Package) (files : List Path) (applications : List Application)
    (s s' : Session) :
    Prop where
  packages : s'.model.packages = s.model.packages
  machines : ∃ new : List Machine, s'.model.machines = s.model.machines ++ new
    ∧ new.map (·.name) = applications.map (fun a => Session.machineName a.pattern a.bindings)
    ∧ ∀ machine ∈ new, machine.owner = package.id
  applied : s'.applied = s.applied ++ applications.map fun a => ⟨a.pattern, a.bindings⟩
  registrations : s'.registrations = s.registrations ++ files

/-- Nothing was done. -/
theorem Grows.refl (package : Package) (s : Session) : Grows package [] [] s s where
  packages := rfl
  machines := ⟨[], (List.append_nil _).symm, rfl, List.forall_mem_nil _⟩
  applied := (List.append_nil _).symm
  registrations := (List.append_nil _).symm

/-- What was done in a row. -/
theorem Grows.trans (h : Grows package files applications s s')
    (h' : Grows package files' applications' s' s'') :
    Grows package (files ++ files') (applications ++ applications') s s'' where
  packages := h'.packages.trans h.packages
  machines := by
    obtain ⟨new, hnew, names, owners⟩ := h.machines
    obtain ⟨new', hnew', names', owners'⟩ := h'.machines
    refine ⟨new ++ new', by rw [hnew', hnew, List.append_assoc], ?_, ?_⟩
    · rw [List.map_append, names, names', List.map_append]
    · rw [List.forall_mem_append]
      exact ⟨owners, owners'⟩
  applied := by rw [h'.applied, h.applied, List.append_assoc, List.map_append]
  registrations := by rw [h'.registrations, h.registrations, List.append_assoc]

/-- A pattern file with a stem is registered under it. -/
theorem exists_addPattern {path : Path} (hstem : path.fileStem? = some pattern) (package : Package)
    (s : Session) :
    ∃ s', s.addPattern path = (s', .ok ()) ∧ Grows package [path] [] s s'
      ∧ (Dictionary.get? s'.catalog pattern).isSome := by
  rw [Session.addPattern, hstem]
  refine ⟨_, rfl, ⟨rfl, ⟨[], (List.append_nil _).symm, rfl, List.forall_mem_nil _⟩,
    (List.append_nil _).symm, rfl⟩, ?_⟩
  rw [Dictionary.get?_set, if_pos rfl]
  rfl

/-- A bound application of a registered pattern is made. -/
theorem exists_applyPattern (hbound : application.IsBound package)
    (hpackage : package ∈ s.model.packages)
    (hregistered : (Dictionary.get? s.catalog application.pattern).isSome) :
    ∃ s', s.applyPattern application.pattern application.bindings = (s', .ok ())
      ∧ Grows package [] [application] s s' ∧ s'.catalog = s.catalog := by
  have applicable : s.IsApplicable application.pattern application.bindings package :=
    ⟨hregistered, hbound.package_bound, package, hpackage, rfl⟩
  refine ⟨_, Session.applyPattern_eq_withApplication applicable,
    ⟨rfl, ⟨[_], rfl, rfl, ?_⟩, rfl, (List.append_nil _).symm⟩, rfl⟩
  intro machine hmachine
  rw [List.mem_singleton.1 hmachine]
  rfl

/-! ## Files one after the other -/

/-- Bound applications of registered patterns are made one after the other. -/
theorem exists_applyAll (path : Path) (hbound : ∀ a ∈ applications, a.IsBound package)
    (hpackage : package ∈ s.model.packages)
    (hregistered : ∀ a ∈ applications, (Dictionary.get? s.catalog a.pattern).isSome) :
    ∃ s', (applyAll path applications).Succeeds s () s' ∧ Grows package [] applications s s' := by
  induction applications generalizing s with
  | nil => exact ⟨s, Task.succeeds_pure _ s, Grows.refl package s⟩
  | cons application rest ih =>
    rw [List.forall_mem_cons] at hbound hregistered
    obtain ⟨next, happly, grows, catalog⟩ := exists_applyPattern hbound.1 hpackage hregistered.1
    rw [← catalog] at hregistered
    rw [← grows.packages] at hpackage
    obtain ⟨s', success, later⟩ := ih hbound.2 hpackage hregistered.2
    refine ⟨s', ?_, grows.trans later⟩
    rw [applyAll, apply]
    refine Task.Succeeds.bind ((Task.succeeds_step happly).bind (Task.succeeds_log _ _)) ?_
    exact success

/-- A file is registered and applied as planned. -/
theorem exists_instantiateFile {path : Path} (hstem : path.fileStem? = some pattern)
    (hname : ¬ (IsMarked config pattern ∧ pattern = Session.nameParameter))
    (hpackage : package ∈ s.model.packages)
    (report : InstantiationReport) :
    ∃ s', (instantiateFile config package report path).Succeeds s
        { report with
          registered := report.registered ++ [path]
          applications := report.applications ++ plan config pattern package } s'
      ∧ Grows package [path] (plan config pattern package) s s' := by
  obtain ⟨next, hadd, grows, hcatalog⟩ := exists_addPattern hstem package s
  rw [← grows.packages] at hpackage
  obtain ⟨s', success, later⟩ := exists_applyAll path (fun a => isBound_of_mem_plan hname) hpackage
    fun a ha => by rwa [pattern_of_mem_plan ha]
  refine ⟨s', ?_, grows.trans later⟩
  rw [instantiateFile]
  simp only [hstem]
  exact (Task.succeeds_step hadd).bind (success.bind (Task.succeeds_pure _ _))

/-- Files are registered and applied one after the other. -/
theorem exists_instantiateFiles {stems : List String}
    (hstems : files.map (·.fileStem?) = stems.map some)
    (hname : ∀ stem ∈ stems, ¬ (IsMarked config stem ∧ stem = Session.nameParameter))
    (hpackage : package ∈ s.model.packages) (report : InstantiationReport) :
    ∃ s', (instantiateFiles config package report files).Succeeds s
        { report with
          registered := report.registered ++ files
          applications := report.applications ++ stems.flatMap (plan config · package) } s'
      ∧ Grows package files (stems.flatMap (plan config · package)) s s' := by
  induction files generalizing s stems report with
  | nil =>
    obtain rfl := List.map_eq_nil_iff.1 hstems.symm
    refine ⟨s, ?_, Grows.refl package s⟩
    simp only [List.flatMap_nil, List.append_nil]
    exact Task.succeeds_pure report s
  | cons path rest ih =>
    obtain ⟨stem, others, rfl, hstem, hrest⟩ := List.map_eq_cons_iff.1 hstems.symm
    rw [List.forall_mem_cons] at hname
    obtain ⟨next, first, grows⟩ := exists_instantiateFile hstem.symm hname.1 hpackage report
    rw [← grows.packages] at hpackage
    obtain ⟨s', later, grows'⟩ := ih hrest.symm hname.2 hpackage
      { report with
        registered := report.registered ++ [path]
        applications := report.applications ++ plan config stem package }
    refine ⟨s', ?_, grows.trans grows'⟩
    rw [instantiateFiles, List.append_cons report.registered path rest, List.flatMap_cons,
      ← List.append_assoc report.applications]
    exact first.bind later

/-! ## The target package -/

/-- One package is selected if it is the only one that is not predefined. -/
theorem selectPackage_eq_ok_iff {m : Session.Model} :
    selectPackage config m = .ok package ↔ m.packages.filter (·.name != config.primitivePackage)
      = [package] := by
  rw [selectPackage]
  split
  · rename_i only hfilter
    rw [hfilter, List.singleton_inj, Except.ok.injEq]
  · rename_i several hother
    exact iff_of_false (fun heq => by cases heq) (hother package)

/-- The package that is selected is one of the model. -/
theorem mem_of_selectPackage {m : Session.Model} (h : selectPackage config m = .ok package) :
    package ∈ m.packages := by
  have kept : package ∈ m.packages.filter (·.name != config.primitivePackage) := by
    rw [selectPackage_eq_ok_iff.1 h]
    exact List.mem_cons_self
  exact List.mem_of_mem_filter kept

/-- An instantiation selects a package and then instantiates the files. -/
theorem succeeds_instantiate_iff {w : Workspace} {directory : Path} {report : InstantiationReport} :
    (instantiate config w directory).Succeeds s report s'
      ↔ ∃ package, selectPackage config s.model = .ok package
          ∧ (instantiateFiles config package { targetPackage := some package.name }
              (Pattern.files config w directory)).Succeeds s report s' := by
  rw [instantiate, (Task.succeeds_get s).bind_iff, Task.succeeds_bind_iff]
  refine exists_congr fun package => ?_
  constructor
  · rintro ⟨between, selected, later⟩
    obtain ⟨hselect, rfl⟩ := Task.succeeds_ofExcept_iff.1 selected
    exact ⟨hselect, (Task.succeeds_log _ s).bind_iff.1 later⟩
  · rintro ⟨hselect, later⟩
    exact ⟨s, Task.succeeds_ofExcept_iff.2 ⟨hselect, rfl⟩, (Task.succeeds_log _ s).bind later⟩

/-! ## Whole runs -/

/-- Every pattern file of a tree has a stem. -/
theorem exists_stems {w : Workspace} (htree : w.IsTree) (directory : Path) :
    ∃ stems : List String, (Pattern.files config w directory).map (·.fileStem?)
      = stems.map some := by
  refine ⟨(Pattern.files config w directory).filterMap (·.fileStem?), ?_⟩
  rw [List.map_filterMap, ← List.filterMap_eq_map]
  refine List.filterMap_congr fun path hpath => ?_
  obtain ⟨stem, hstem⟩ := htree.exists_fileStem? hpath
  rw [Function.comp_apply, hstem]
  rfl

/-- A run instantiates and then annotates all machines that are there. -/
theorem succeeds_run {w : Workspace} {directory : Path} {report : InstantiationReport}
    (hselect : selectPackage config s.model = .ok package)
    (h : (instantiateFiles config package { targetPackage := some package.name }
      (Pattern.files config w directory)).Succeeds s report s') :
    (run config w directory).Succeeds s ⟨report, s'.model.machines.map (annotationOf config)⟩
      { s' with model := s'.model.machines.foldl (annotated config) s'.model } := by
  have instantiated : (instantiate config w directory).Succeeds s report s' :=
    succeeds_instantiate_iff.2 ⟨package, hselect, h⟩
  have annotations :
      (onModel (annotateAll config)).Succeeds s' (s'.model.machines.map (annotationOf config))
      { s' with model := s'.model.machines.foldl (annotated config) s'.model } :=
    (succeeds_annotateAll config s'.model).onPart _
  rw [run]
  exact instantiated.bind (annotations.bind (Task.succeeds_pure _ _))

/-- **A pattern run succeeds** on a session with one target package, unless the marker is a closing
parenthesis and some pattern has the name of the parameter that names variants. In ascending order,
it registers every pattern file and creates the machines that its name asks for, in the target
package; the report lists the applications that were recorded, one for each machine, and the
annotations of all machines, old and new. -/
theorem run_complete {w : Workspace} {directory : Path} (htree : w.IsTree)
    (hpackage : s.model.packages.filter (·.name != config.primitivePackage) = [package])
    (hname : ¬ (config.multiplicityMarker = ')'
      ∧ ∃ path ∈ Pattern.files config w directory, path.fileStem? = some Session.nameParameter)) :
    ∃ (report : RunReport) (s' : Session) (stems : List String) (new : List Machine),
      (run config w directory).Succeeds s report s'
        ∧ (Pattern.files config w directory).Pairwise Path.Precedes
        ∧ (Pattern.files config w directory).map (·.fileStem?) = stems.map some
        ∧ s'.model.machines = s.model.machines ++ new
        ∧ new.map (·.name) = stems.flatMap (machineNames config)
        ∧ (∀ machine ∈ new, machine.owner = package.id)
        ∧ report.instantiation.targetPackage = some package.name
        ∧ report.instantiation.applications = stems.flatMap (plan config · package)
        ∧ s'.applied = s.applied ++ report.instantiation.applications.map
            (fun a => ⟨a.pattern, a.bindings⟩)
        ∧ new.map (·.name)
            = report.instantiation.applications.map
                (fun a => Session.machineName a.pattern a.bindings)
        ∧ report.instantiation.registered = Pattern.files config w directory
        ∧ s'.registrations = s.registrations ++ Pattern.files config w directory
        ∧ report.annotations = s'.model.machines.map (annotationOf config) := by
  obtain ⟨stems, hstems⟩ := @exists_stems config w htree directory
  have bound : ∀ stem ∈ stems, ¬ (IsMarked config stem ∧ stem = Session.nameParameter) := by
    rintro stem hstem ⟨hmarked, rfl⟩
    have listed :
        some Session.nameParameter ∈ (Pattern.files config w directory).map (·.fileStem?) := by
      rw [hstems]
      exact List.mem_map_of_mem hstem
    obtain ⟨path, hpath, hfile⟩ := List.mem_map.1 listed
    have last : Session.nameParameter.toList.getLast? = some ')' := by decide
    exact hname ⟨Option.some.inj (hmarked.symm.trans last), path, hpath, hfile⟩
  have selected : selectPackage config s.model = .ok package := selectPackage_eq_ok_iff.2 hpackage
  obtain ⟨made, instantiated, grows⟩ :=
    exists_instantiateFiles hstems bound (mem_of_selectPackage selected)
      { targetPackage := some package.name }
  obtain ⟨new, hnew, names, owners⟩ := grows.machines
  have kept := (elements_foldl_annotated config made.model.machines made.model).2
  refine ⟨_, _, stems, new, succeeds_run selected instantiated,
    htree.pairwise_filesWithExtension directory config.extension, hstems, kept.trans hnew, ?_,
    owners, rfl, rfl, grows.applied, names, rfl, grows.registrations,
    congrArg (List.map (annotationOf config)) kept.symm⟩
  rw [names, List.map_flatMap]
  exact List.flatMap_congr fun stem hstem => map_machineName_plan (bound stem hstem)

/-- A directory with a marked pattern and a plain one. -/
def workshop : Workspace where
  entries := [(["Motor_.umlt"], .text ""), (["Valve.umlt"], .text "")]

/-- The pattern files of the directory in order. -/
theorem files_workshop : Pattern.files {} workshop ⟨"."⟩ = [⟨"Motor_.umlt"⟩, ⟨"Valve.umlt"⟩] := by
  have names : workshop.namesIn [] = ["Motor_.umlt", "Valve.umlt"] :=
    List.mergeSort_of_pairwise (by decide)
  rw [Pattern.files, Workspace.filesWithExtension_current rfl (by decide),
    show workshop.current = [] from rfl, names]
  decide +kernel

/-- A run in the directory adds four machines to the two of the plant. -/
theorem run_complete_workshop :
    ∃ report s', (run {} workshop ⟨"."⟩).Succeeds { model := plant } report s'
      ∧ s'.model.machines.map (·.name)
        = ["Motor_dual", "Valve"] ++ ["Motor_single", "Motor_dual", "Motor_sequential", "Valve"]
      ∧ s'.registrations = [⟨"Motor_.umlt"⟩, ⟨"Valve.umlt"⟩] := by
  have package : plant.packages.filter (·.name != ({} : PatternConfig).primitivePackage)
      = [⟨"pkg-0001", "Plant"⟩] := by
    decide +kernel
  obtain ⟨report, s', stems, new, success, -, hstems, machines, names, -, -, -, -, -, -,
    registrations, -⟩ :=
    @run_complete {} ⟨"pkg-0001", "Plant"⟩ { model := plant } workshop ⟨"."⟩ (by decide) package
      fun h => absurd h.1 (by decide)
  rw [files_workshop] at hstems registrations
  obtain rfl : stems = ["Motor_", "Valve"] :=
    List.map_injective_iff.2 (fun _ _ => Option.some.inj) (hstems.symm.trans (by decide +kernel))
  have before : plant.machines.map (·.name) = ["Motor_dual", "Valve"] := by decide +kernel
  refine ⟨report, s', success, ?_, registrations⟩
  rw [machines, List.map_append, before, names]
  decide +kernel

end PlcWorkbench.Pattern
