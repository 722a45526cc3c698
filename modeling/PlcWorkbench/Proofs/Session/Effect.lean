import PlcWorkbench.Proofs.Session.Model
import PlcWorkbench.Session.Catalog

/-!
# What a call does

Every operation of a session either succeeds, and then does one thing, or fails, and then leaves all
as it was. The two relations here say so for all operations together, with the condition under which
each of them succeeds. What is kept along a history of calls is shown with one case for each of
their constructors.

* `acceptedBy` : the calls of a history that succeed, and `foldl_acceptedBy` : where they lead;
* `Model.Effect`, `Model.effect` : a call on a model;
* `Effect`, `effect` : a call on a session, directly on its model or on its catalog of patterns;
* `exists_modelCalls` : the model of a session is one that calls on models lead to.
-/

namespace PlcWorkbench.Session

/-! ## Histories -/

section Histories

variable {σ κ : Type} {accepts : σ → κ → Bool} {perform : σ → κ → σ}

/-- The calls that succeed when calls are made one after the other. -/
def acceptedBy (accepts : σ → κ → Bool) (perform : σ → κ → σ) : σ → List κ → List κ
  | _, [] => []
  | s, c :: rest =>
    (if accepts s c then [c] else []) ++ acceptedBy accepts perform (perform s c) rest

/-- If calls that fail change nothing, then those that succeed lead to the same state alone. -/
theorem foldl_acceptedBy (hfailed : ∀ s c, accepts s c = false → perform s c = s) (s : σ)
    (calls : List κ) :
    (acceptedBy accepts perform s calls).foldl perform s = calls.foldl perform s := by
  induction calls generalizing s with
  | nil => rfl
  | cons c rest ih =>
    rw [acceptedBy, List.foldl_append, List.foldl_cons]
    cases haccepts : accepts s c with
    | true => exact ih (perform s c)
    | false =>
      rw [hfailed s c haccepts]
      exact ih s

end Histories

namespace Model

variable {m m' : Model} {c : Call} {ok : Bool} {package name : String} {target : PropertyKey}
  {value : String}

/-! ## Calls on a model -/

/-- Some package of the model has this id. -/
def HasPackage (m : Model) (id : String) : Prop := ∃ package ∈ m.packages, package.id = id

/-- The machine that the model numbers next. -/
def nextMachine (m : Model) (package name : String) : Machine :=
  ⟨idOf "sm" (m.lastNumber + 1), name, package⟩

/-- The model with one more machine. -/
def withMachine (m : Model) (package name : String) : Model :=
  { m with lastNumber := m.lastNumber + 1, machines := m.machines ++ [m.nextMachine package name] }

/-- A machine is added to a package that the model has. -/
theorem addMachine_eq_withMachine (h : m.HasPackage package) (name : String) :
    m.addMachine package name = (m.withMachine package name,
      .ok (m.nextMachine package name).id) := by
  obtain ⟨known, hknown, hid⟩ := h
  have found : m.packages.any (·.id == package) = true :=
    List.any_eq_true.2 ⟨known, hknown, beq_iff_eq.2 hid⟩
  rw [addMachine, if_pos found]
  rfl

/-- No machine is added to a package that the model does not have. -/
theorem addMachine_eq_error (h : ¬ m.HasPackage package) (name : String) :
    m.addMachine package name = (m, .error (.session (.unknownPackage package))) := by
  have missing : ¬ m.packages.any (·.id == package) = true := by
    intro hany
    obtain ⟨known, hknown, hid⟩ := List.any_eq_true.1 hany
    exact h ⟨known, hknown, beq_iff_eq.1 hid⟩
  rw [addMachine, if_neg missing]

/-- No property is written if the element does not have the stereotype. -/
theorem setProperty_eq_error (h : (target.element, target.stereotype) ∉ m.stereotypes)
    (value : String) :
    m.setProperty target value
      = (m, .error (.session (.stereotypeMissing target.element target.stereotype.moduleName
          target.stereotype.name))) := by
  rw [setProperty, if_neg (mt List.contains_iff_mem.1 h)]

/-- Whether a call succeeds. -/
def accepts (m : Model) : Call → Bool
  | .addPackage _ => true
  | .addMachine package name => (m.addMachine package name).2.isOk
  | .addStereotype _ _ => true
  | .setProperty target value => (m.setProperty target value).2.isOk

/-- What a call does to a model, and whether it succeeds. -/
inductive Effect (m : Model) : Call → Bool → Model → Prop where
  | package (name : String) : Effect m (.addPackage name) true (m.addPackage name).1
  | machine {package : String} (known : m.HasPackage package) (name : String) :
      Effect m (.addMachine package name) true (m.withMachine package name)
  | stereotype (element : String) (s : Stereotype) :
      Effect m (.addStereotype element s) true (m.addStereotype element s)
  | property {target : PropertyKey} (there : (target.element, target.stereotype) ∈ m.stereotypes)
      (value : String) :
      Effect m (.setProperty target value) true (m.write target value)
  | unknownPackage {package : String} (unknown : ¬ m.HasPackage package) (name : String) :
      Effect m (.addMachine package name) false m
  | missingStereotype {target : PropertyKey}
      (missing : (target.element, target.stereotype) ∉ m.stereotypes)
      (value : String) : Effect m (.setProperty target value) false m

/-- **A call on a model** does what its effect says. -/
theorem effect (m : Model) (c : Call) : m.Effect c (m.accepts c) (m.perform c) := by
  cases c with
  | addPackage name => exact .package name
  | addMachine package name =>
    by_cases known : m.HasPackage package
    · rw [accepts, perform, addMachine_eq_withMachine known]
      exact .machine known name
    · rw [accepts, perform, addMachine_eq_error known]
      exact .unknownPackage known name
  | addStereotype element s => exact .stereotype element s
  | setProperty target value =>
    by_cases there : (target.element, target.stereotype) ∈ m.stereotypes
    · rw [accepts, perform, setProperty_eq_write there]
      exact .property there value
    · rw [accepts, perform, setProperty_eq_error there]
      exact .missingStereotype there value

/-- Nothing else is an effect of the call. -/
theorem Effect.eq_perform (h : m.Effect c ok m') : m' = m.perform c := by
  cases h with
  | package name => rfl
  | machine known name => rw [perform, addMachine_eq_withMachine known]
  | stereotype element s => rfl
  | property there value => rw [perform, setProperty_eq_write there]
  | unknownPackage unknown name => rw [perform, addMachine_eq_error unknown]
  | missingStereotype missing value => rw [perform, setProperty_eq_error missing]

/-- What holds of the empty model and is kept by every effect holds of every model that calls lead
to. -/
theorem IsReachable.of_effect {motive : Model → Prop} (empty : motive {})
    (kept : ∀ {m c ok m'}, Effect m c ok m' → motive m → motive m') (h : m.IsReachable) :
    motive m :=
  h.induction empty fun m c hm => kept (m.effect c) hm

end Model

/-! ## Calls on a session -/

variable {s s' : Session} {ok : Bool} {pattern : String} {bindings : Bindings} {package : Package}

/-- A call of an operation that may change the session. -/
inductive Call where
  | onModel (call : Model.Call)
  | addPattern (path : Path)
  | applyPattern (pattern : String) (bindings : Bindings)

variable {c : Call}

/-- What a call leaves, whether it succeeds or not. -/
def perform (s : Session) : Call → Session
  | .onModel call => { s with model := s.model.perform call }
  | .addPattern path => (s.addPattern path).1
  | .applyPattern pattern bindings => (s.applyPattern pattern bindings).1

/-- Whether a call succeeds. -/
def accepts (s : Session) : Call → Bool
  | .onModel call => s.model.accepts call
  | .addPattern path => (s.addPattern path).2.isOk
  | .applyPattern pattern bindings => (s.applyPattern pattern bindings).2.isOk

/-- The session with a pattern registered. -/
def register (s : Session) (pattern : String) (path : Path) : Session :=
  { s with
    catalog := Dictionary.set s.catalog pattern path
    registrations := s.registrations ++ [path] }

/-- The session with a pattern applied into a package. -/
def withApplication (s : Session) (pattern : String) (bindings : Bindings) (package : Package) :
    Session :=
  { s with
    model := s.model.withMachine package.id (machineName pattern bindings)
    applied := s.applied ++ [⟨pattern, bindings⟩] }

/-- The pattern is registered, and bound to a package of the model. -/
structure IsApplicable (s : Session) (pattern : String) (bindings : Bindings) (package : Package) :
    Prop where
  registered : (Dictionary.get? s.catalog pattern).isSome
  bound : Dictionary.get? bindings pattern = some (.package package)
  known : s.model.HasPackage package.id

/-- A pattern that is registered and bound is applied. -/
theorem applyPattern_eq_withApplication (h : s.IsApplicable pattern bindings package) :
    s.applyPattern pattern bindings = (s.withApplication pattern bindings package, .ok ()) := by
  rw [applyPattern, if_pos h.registered, h.bound]
  simp only [Model.addMachine_eq_withMachine h.known]
  rfl

/-- A pattern that is not registered, or not bound to a package of the model, is not applied. -/
theorem applyPattern_eq_error (h : ∀ package, ¬ s.IsApplicable pattern bindings package) :
    ∃ cause, s.applyPattern pattern bindings = (s, .error cause) := by
  rw [applyPattern]
  by_cases registered : (Dictionary.get? s.catalog pattern).isSome
  · rw [if_pos registered]
    split
    · rename_i package bound
      have unknown : ¬ s.model.HasPackage package.id :=
        fun known => h package ⟨registered, bound, known⟩
      simp only [Model.addMachine_eq_error unknown]
      exact ⟨_, rfl⟩
    · exact ⟨_, rfl⟩
  · rw [if_neg registered]
    exact ⟨_, rfl⟩

/-- What a call does to a session, and whether it succeeds. -/
inductive Effect (s : Session) : Call → Bool → Session → Prop where
  | onModel {call : Model.Call} {ok : Bool} {m : Model} (h : s.model.Effect call ok m) :
      Effect s (.onModel call) ok { s with model := m }
  | registration {path : Path} {pattern : String} (stem : path.fileStem? = some pattern) :
      Effect s (.addPattern path) true (s.register pattern path)
  | application {pattern : String} {bindings : Bindings} {package : Package}
      (applicable : s.IsApplicable pattern bindings package) :
      Effect s (.applyPattern pattern bindings) true (s.withApplication pattern bindings package)
  | unnamed {path : Path} (nameless : path.fileStem? = none) : Effect s (.addPattern path) false s
  | inapplicable {pattern : String} {bindings : Bindings}
      (refused : ∀ package, ¬ s.IsApplicable pattern bindings package) :
      Effect s (.applyPattern pattern bindings) false s

/-- **A call on a session** does what its effect says. -/
theorem effect (s : Session) (c : Call) : s.Effect c (s.accepts c) (s.perform c) := by
  cases c with
  | onModel call => exact .onModel (s.model.effect call)
  | addPattern path =>
    rw [accepts, perform, addPattern]
    cases stem : path.fileStem? with
    | none => exact .unnamed stem
    | some pattern => exact .registration stem
  | applyPattern pattern bindings =>
    by_cases applicable : ∃ package, s.IsApplicable pattern bindings package
    · obtain ⟨package, happlicable⟩ := applicable
      rw [accepts, perform, applyPattern_eq_withApplication happlicable]
      exact .application happlicable
    · have refused : ∀ package, ¬ s.IsApplicable pattern bindings package := not_exists.1 applicable
      obtain ⟨cause, herror⟩ := applyPattern_eq_error refused
      rw [accepts, perform, herror]
      exact .inapplicable refused

/-! ## The model of a session -/

/-- What a call on a session does to its model is what at most one call on the model does. -/
theorem Effect.exists_modelCalls (h : s.Effect c ok s') :
    ∃ calls : List Model.Call, calls.length ≤ 1 ∧ s'.model = calls.foldl Model.perform s.model := by
  cases h with
  | onModel h => exact ⟨[_], Nat.le_refl 1, h.eq_perform⟩
  | application applicable =>
    exact ⟨[.addMachine _ _], Nat.le_refl 1, (Model.Effect.machine applicable.known _).eq_perform⟩
  | registration stem => exact ⟨[], Nat.zero_le 1, rfl⟩
  | unnamed nameless => exact ⟨[], Nat.zero_le 1, rfl⟩
  | inapplicable refused => exact ⟨[], Nat.zero_le 1, rfl⟩

/-- **The model of a session** is one that calls on models lead to, and not more of them. -/
theorem exists_modelCalls (s : Session) (calls : List Call) :
    ∃ modelCalls : List Model.Call, modelCalls.length ≤ calls.length
      ∧ (calls.foldl perform s).model = modelCalls.foldl Model.perform s.model := by
  induction calls generalizing s with
  | nil => exact ⟨[], Nat.le_refl 0, rfl⟩
  | cons c rest ih =>
    obtain ⟨first, hfirst, hmodel⟩ := (s.effect c).exists_modelCalls
    obtain ⟨later, hlater, hrest⟩ := ih (s.perform c)
    refine ⟨first ++ later, ?_, ?_⟩
    · rw [List.length_append, List.length_cons]
      omega
    · rw [List.foldl_cons, hrest, hmodel, List.foldl_append]

end PlcWorkbench.Session
