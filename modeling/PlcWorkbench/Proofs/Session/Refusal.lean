import PlcWorkbench.Pattern.Instantiation
import PlcWorkbench.Proofs.Session.Effect
import PlcWorkbench.Proofs.Success

/-!
# Calls that fail

An operation checks all that it needs before it changes anything, so one that fails leaves no trace:
no number was given out, and nothing was logged or recorded. The failures that an operation can end
with are told by what it finds, and along a history the calls that fail might as well not have been
made.

* `addMachine_eq_error_iff`, `setProperty_eq_error_iff`, `addPattern_eq_error_iff`,
  `applyPattern_eq_error_iff` and `Pattern.selectPackage_eq_error_iff` : when an operation fails,
  and how;
* `Effect.eq_of_failed` : a call that fails leaves the session as it was;
* `unchanged_of_error` : every operation that can fail, and histories in which some do.
-/

namespace PlcWorkbench

/-! ## When operations fail -/

namespace Session

variable {s s' : Session} {m m' : Model} {pattern package name value : String} {bindings : Bindings}
  {target : PropertyKey} {path : Path} {cause : Failure}

namespace Model

/-- A machine is refused if the model does not have its package. -/
theorem addMachine_eq_error_iff :
    (m.addMachine package name).2 = .error cause
      ↔ ¬ m.HasPackage package ∧ cause = .session (.unknownPackage package) := by
  by_cases known : m.HasPackage package
  · rw [addMachine_eq_withMachine known]
    simp [known]
  · rw [addMachine_eq_error known, Except.error.injEq]
    simp [known, eq_comm]

/-- A value is refused if the element does not have the stereotype of the property. -/
theorem setProperty_eq_error_iff :
    (m.setProperty target value).2 = .error cause
      ↔ (target.element, target.stereotype) ∉ m.stereotypes
        ∧ cause = .session (.stereotypeMissing target.element target.stereotype.moduleName
            target.stereotype.name) := by
  by_cases there : (target.element, target.stereotype) ∈ m.stereotypes
  · rw [setProperty_eq_write there]
    simp [there]
  · rw [setProperty_eq_error there, Except.error.injEq]
    simp [there, eq_comm]

end Model

/-- A pattern file is refused if its path ends in no name. -/
theorem addPattern_eq_error_iff :
    (s.addPattern path).2 = .error cause
      ↔ path.fileStem? = none ∧ cause = .session (.unnamedPattern path.text) := by
  rw [addPattern]
  cases path.fileStem? with
  | none => simp [eq_comm]
  | some pattern => simp

/-- Where the application of a pattern stops: its name is looked up in the catalog, then in the
bindings, and then the package that is bound in the model. -/
inductive StopsAt (s : Session) (pattern : String) (bindings : Bindings) : Failure → Prop where
  | catalog (unregistered : Dictionary.get? s.catalog pattern = none) :
      StopsAt s pattern bindings (.session (.unregisteredPattern pattern))
  | bindings (registered : (Dictionary.get? s.catalog pattern).isSome)
      (unbound : ∀ package, Dictionary.get? bindings pattern ≠ some (.package package)) :
      StopsAt s pattern bindings (.session (.unboundPattern pattern))
  | model {package : Package} (registered : (Dictionary.get? s.catalog pattern).isSome)
      (bound : Dictionary.get? bindings pattern = some (.package package))
      (unknown : ¬ s.model.HasPackage package.id) :
      StopsAt s pattern bindings (.session (.unknownPackage package.id))

/-- A pattern that cannot be applied is refused at the first of the checks that fails. -/
theorem StopsAt.applyPattern_eq (h : s.StopsAt pattern bindings cause) :
    s.applyPattern pattern bindings = (s, .error cause) := by
  rw [applyPattern]
  cases h with
  | catalog unregistered => rw [unregistered, if_neg (by simp)]
  | bindings registered unbound =>
    rw [if_pos registered]
    split
    · rename_i package bound
      exact absurd bound (unbound package)
    · rfl
  | model registered bound unknown =>
    rw [if_pos registered, bound]
    simp only [Model.addMachine_eq_error unknown]

/-- A pattern is applied or stops somewhere. -/
theorem exists_isApplicable_or_stopsAt (s : Session) (pattern : String) (bindings : Bindings) :
    (∃ package, s.IsApplicable pattern bindings package)
      ∨ ∃ cause, s.StopsAt pattern bindings cause := by
  rcases found : Dictionary.get? s.catalog pattern with _ | file
  · exact .inr ⟨_, .catalog found⟩
  · have registered : (Dictionary.get? s.catalog pattern).isSome := by rw [found]; rfl
    by_cases hbound : ∃ package, Dictionary.get? bindings pattern = some (.package package)
    · obtain ⟨package, bound⟩ := hbound
      by_cases known : s.model.HasPackage package.id
      · exact .inl ⟨package, registered, bound, known⟩
      · exact .inr ⟨_, .model registered bound known⟩
    · exact .inr ⟨_, .bindings registered (not_exists.1 hbound)⟩

/-- The application of a pattern fails where it stops. -/
theorem applyPattern_eq_error_iff :
    (s.applyPattern pattern bindings).2 = .error cause ↔ s.StopsAt pattern bindings cause := by
  constructor
  · intro failed
    obtain ⟨package, applicable⟩ | ⟨other, stops⟩ :=
      exists_isApplicable_or_stopsAt s pattern bindings
    · rw [applyPattern_eq_withApplication applicable] at failed
      cases failed
    · rw [stops.applyPattern_eq] at failed
      cases failed
      exact stops
  · intro stops
    rw [stops.applyPattern_eq]

end Session

namespace Pattern

variable {config : PatternConfig} {s : Session} {m : Session.Model} {cause : Failure}

/-- No package is selected if there is not exactly one that is not predefined; those that there are
get named. -/
theorem selectPackage_eq_error_iff :
    selectPackage config m = .error cause
      ↔ (m.packages.filter (·.name != config.primitivePackage)).length ≠ 1
        ∧ cause = .targetPackage ((m.packages.filter (·.name != config.primitivePackage)).map
            (·.name)) := by
  rw [selectPackage]
  split
  · rename_i only hfilter
    rw [hfilter]
    simp
  · rename_i several hother
    have other : (m.packages.filter (·.name != config.primitivePackage)).length ≠ 1 := by
      intro single
      obtain ⟨only, honly⟩ := List.length_eq_one_iff.1 single
      exact hother only honly
    rw [Except.error.injEq, eq_comm, and_iff_right other]

/-- An instantiation that selects no package does nothing. -/
theorem run_instantiate_of_error (h : selectPackage config s.model = .error cause) (w : Workspace)
    (directory : Path) : (instantiate config w directory).run s = ⟨s, [], .error cause⟩ := by
  rw [instantiate, Task.run_bind, Task.run_get]
  simp only [Task.run_bind, Task.run_ofExcept, h, List.nil_append]

end Pattern

/-! ## Calls that fail -/

namespace Session

variable {s s' : Session} {m m' : Model} {c : Call}

/-- A call that fails leaves the model as it was. -/
theorem Model.Effect.eq_of_failed {c : Model.Call} (h : m.Effect c false m') : m' = m := by
  cases h with
  | unknownPackage unknown name => rfl
  | missingStereotype missing value => rfl

/-- **A call that fails** leaves the session as it was. -/
theorem Effect.eq_of_failed (h : s.Effect c false s') : s' = s := by
  cases h with
  | onModel h => rw [h.eq_of_failed]
  | unnamed nameless => rfl
  | inapplicable refused => rfl

/-- A call that does not succeed leaves the session as it was. -/
theorem perform_of_not_accepts (h : s.accepts c = false) : s.perform c = s := by
  have effect := s.effect c
  rw [h] at effect
  exact effect.eq_of_failed

/-- **An operation that fails changes nothing**, neither in the model nor in the catalog; nor does
an instantiation that fails to select its package. Each fails with the cause that it found, and the
calls of a history that succeed lead alone to where the history leads. -/
theorem unchanged_of_error (s : Session) :
    (∀ package name cause, (s.model.addMachine package name).2 = .error cause →
      { s with model := (s.model.addMachine package name).1 } = s
        ∧ ¬ s.model.HasPackage package ∧ cause = .session (.unknownPackage package))
    ∧ (∀ target value cause, (s.model.setProperty target value).2 = .error cause →
      { s with model := (s.model.setProperty target value).1 } = s
        ∧ (target.element, target.stereotype) ∉ s.model.stereotypes
        ∧ cause = .session (.stereotypeMissing target.element target.stereotype.moduleName
            target.stereotype.name))
    ∧ (∀ path cause, (s.addPattern path).2 = .error cause →
      (s.addPattern path).1 = s
        ∧ path.fileStem? = none ∧ cause = .session (.unnamedPattern path.text))
    ∧ (∀ pattern bindings cause, (s.applyPattern pattern bindings).2 = .error cause →
      (s.applyPattern pattern bindings).1 = s ∧ s.StopsAt pattern bindings cause)
    ∧ (∀ config w directory cause, Pattern.selectPackage config s.model = .error cause →
      (Pattern.instantiate config w directory).run s = ⟨s, [], .error cause⟩
        ∧ (s.model.packages.filter (·.name != config.primitivePackage)).length ≠ 1
        ∧ cause = .targetPackage
            ((s.model.packages.filter (·.name != config.primitivePackage)).map (·.name)))
    ∧ ∀ calls, (acceptedBy accepts perform s calls).foldl perform s = calls.foldl perform s := by
  have not_ok : ∀ {α : Type} {result : Except Failure α} {cause : Failure},
      result = .error cause → result.isOk = false := by
    intro α result cause failed
    rw [failed]
    rfl
  refine ⟨?_, ?_, ?_, ?_, ?_, foldl_acceptedBy (fun _ _ => perform_of_not_accepts) s⟩
  · intro package name cause failed
    exact ⟨perform_of_not_accepts (c := .onModel (.addMachine package name)) (not_ok failed),
      Model.addMachine_eq_error_iff.1 failed⟩
  · intro target value cause failed
    exact ⟨perform_of_not_accepts (c := .onModel (.setProperty target value)) (not_ok failed),
      Model.setProperty_eq_error_iff.1 failed⟩
  · intro path cause failed
    exact ⟨perform_of_not_accepts (c := .addPattern path) (not_ok failed),
      addPattern_eq_error_iff.1 failed⟩
  · intro pattern bindings cause failed
    exact ⟨perform_of_not_accepts (c := .applyPattern pattern bindings) (not_ok failed),
      applyPattern_eq_error_iff.1 failed⟩
  · intro config w directory cause failed
    exact ⟨Pattern.run_instantiate_of_error failed w directory,
      Pattern.selectPackage_eq_error_iff.1 failed⟩

/-- The package that a pattern is applied into. -/
def plantPackage : Package := ⟨"pkg-0002", "Plant"⟩

/-- A session with one pattern that was registered and applied, and a stereotype on its machine. -/
def equipped : Session :=
  [.onModel (.addPackage "UML Types"), .onModel (.addPackage "Plant"),
    .addPattern ⟨"/ws/Motor_.umlt"⟩, .applyPattern "Motor_" [("Motor_", .package plantPackage)],
    .onModel (.addStereotype "sm-0003" ⟨"LogixUML", "StateMachineAoi"⟩)].foldl perform {}

/-- A package that the session does not have. -/
def elsewhere : Package := ⟨"pkg-0009", "Elsewhere"⟩

/-- A property in a stereotype that the machine does not have. -/
def preset : PropertyKey := ⟨"sm-0003", ⟨"LogixUML", "Timer"⟩, "preset"⟩

/-- A configuration with another predefined package than the session has. -/
def otherPrimitives : PatternConfig := { primitivePackage := "Primitives" }

/-- Each operation refuses something in that session; the calls in between that succeed have their
effect. -/
theorem unchanged_of_error_equipped :
    equipped.model.machines.map (·.name) = ["Motor_"]
    ∧ { equipped with model := (equipped.model.addMachine "pkg-0009" "Pump").1 } = equipped
    ∧ { equipped with model := (equipped.model.setProperty preset "5").1 } = equipped
    ∧ (equipped.addPattern ⟨"/ws/.."⟩).1 = equipped
    ∧ (equipped.applyPattern "Valve" [("Valve", .package plantPackage)]).1 = equipped
    ∧ (equipped.applyPattern "Motor_" [("Motor_", .text "Plant")]).1 = equipped
    ∧ (equipped.applyPattern "Motor_" [("Motor_", .package elsewhere)]).1 = equipped
    ∧ (Pattern.instantiate otherPrimitives {} ⟨"/ws"⟩).run equipped
      = ⟨equipped, [], .error (.targetPackage ["UML Types", "Plant"])⟩
    ∧ [.addPattern ⟨"/ws/.."⟩, .addPattern ⟨"/ws/Valve.umlt"⟩,
        .onModel (.setProperty preset "5")].foldl
        perform equipped
      = equipped.perform (.addPattern ⟨"/ws/Valve.umlt"⟩) := by
  obtain ⟨machine, property, registration, application, selection, history⟩ :=
    unchanged_of_error equipped
  refine ⟨by decide, ?_, ?_, ?_, ?_, ?_, ?_, ?_, ?_⟩
  · exact (machine "pkg-0009" "Pump" (.session (.unknownPackage "pkg-0009")) (by decide)).1
  · exact (property preset "5" (.session (.stereotypeMissing "sm-0003" "LogixUML" "Timer"))
      (by decide)).1
  · exact (registration ⟨"/ws/.."⟩ (.session (.unnamedPattern "/ws/..")) (by decide)).1
  · exact (application "Valve" _ (.session (.unregisteredPattern "Valve")) (by decide)).1
  · exact (application "Motor_" _ (.session (.unboundPattern "Motor_")) (by decide)).1
  · exact (application "Motor_" _ (.session (.unknownPackage "pkg-0009")) (by decide)).1
  · exact (selection otherPrimitives {} ⟨"/ws"⟩ (.targetPackage ["UML Types", "Plant"])
      (by decide)).1
  · exact (history _).symm

end Session

end PlcWorkbench
