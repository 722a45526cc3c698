import PlcWorkbench.Proofs.Dictionary
import PlcWorkbench.Proofs.Session.Effect
import Mathlib.Data.List.Forall2

/-!
# Where the machines of a session come from

Machines are created in two ways, directly on the model and by applying patterns, and the catalog
keeps a record of the applications only. Every step of a history puts at most one machine behind
those that are there. So the machines of a session are those of its steps in order, and the ones
that applications created are told one by one by the record.

* `Step`, `steps` : the calls of a history with the sessions before and after each;
* `Step.Contributes` : the machines that a step may create, and `Step.contributes_created` : those
  that it creates;
* `Session.IsRegistered` : what is in the catalog was registered;
* `isAccounted_steps` : all machines of a session.
-/

namespace PlcWorkbench.Session

/-! ## Steps -/

/-- A call that was made: on which session, whether it succeeded, and what it left. -/
structure Step where
  before : Session
  call : Call
  ok : Bool
  after : Session
  /-- The step is what its call does. -/
  made : before.Effect call ok after

/-- The step of a call. -/
def stepOf (s : Session) (c : Call) : Step where
  before := s
  call := c
  ok := s.accepts c
  after := s.perform c
  made := s.effect c

/-- The steps of a history, each from where the one before it ended. -/
def steps (s : Session) : List Call → List Step
  | [] => []
  | c :: rest => s.stepOf c :: steps (s.perform c) rest

/-- The machine is the one that the application asked for: it is owned by the package bound under
the pattern's own name, and it has the text bound to the name parameter as its name, or the
pattern's name if no text is bound. -/
structure Applied.Makes (a : Applied) (machine : Machine) : Prop where
  owner : ∃ package, Dictionary.get? a.bindings a.pattern = some (.package package)
    ∧ machine.owner = package.id
  named : ∀ name, Dictionary.get? a.bindings nameParameter = some (.text name) → machine.name = name
  unnamed : (∀ name, Dictionary.get? a.bindings nameParameter ≠ some (.text name)) →
    machine.name = a.pattern

/-- A machine with the name that is chosen for an application. -/
theorem Applied.makes {pattern : String} {bindings : Bindings} {package : Package}
    (hbound : Dictionary.get? bindings pattern = some (.package package)) (id : String) :
    (Applied.mk pattern bindings).Makes ⟨id, machineName pattern bindings, package.id⟩ where
  owner := ⟨package, hbound, rfl⟩
  named := by
    intro name hname
    simp only [machineName, hname]
  unnamed := by
    intro hnone
    show machineName pattern bindings = pattern
    rw [machineName]
    split
    · rename_i name hname
      exact absurd hname (hnone name)
    · rfl

namespace Step

variable {step : Step}

/-- The machines that stand behind those that were there before the step. -/
def created (step : Step) : List Machine :=
  step.after.model.machines.drop step.before.model.machines.length

/-- The application that the step made, if it did. -/
def application? (step : Step) : Option Applied :=
  match step.call with
  | .applyPattern pattern bindings => if step.ok then some ⟨pattern, bindings⟩ else none
  | _ => none

/-- The package and the name of the machine that the step added directly to the model, if it did. -/
def addition? (step : Step) : Option (String × String) :=
  match step.call with
  | .onModel (.addMachine package name) => if step.ok then some (package, name) else none
  | _ => none

/-- The machines that a step may create: one as it was added or applied for, and none otherwise. -/
inductive Contributes (step : Step) : List Machine → Prop where
  | addition {machine : Machine} (h : step.addition? = some (machine.owner, machine.name)) :
      Contributes step [machine]
  | application {a : Applied} {machine : Machine} (h : step.application? = some a)
      (makes : a.Makes machine) :
      Contributes step [machine]
  | nothing (no_addition : step.addition? = none) (no_application : step.application? = none) :
      Contributes step []

/-- A step that made an application created the machine that it asked for. -/
theorem Contributes.exists_makes {new : List Machine} {a : Applied} (h : step.Contributes new)
    (ha : step.application? = some a) : ∃ machine, new = [machine] ∧ a.Makes machine := by
  cases h with
  | @addition machine hadd =>
    -- no call is both an addition and an application
    rw [addition?] at hadd
    rw [application?] at ha
    split at ha
    · rename_i hcall
      rw [hcall] at hadd
      cases hadd
    · cases ha
  | @application a' machine ha' makes =>
    obtain rfl : a' = a := Option.some.inj (ha'.symm.trans ha)
    exact ⟨machine, rfl, makes⟩
  | nothing no_addition no_application =>
    rw [no_application] at ha
    cases ha

/-- A step puts what it contributes behind the machines that are there. -/
theorem exists_contributes (step : Step) :
    ∃ new, step.after.model.machines = step.before.model.machines ++ new
      ∧ step.Contributes new := by
  obtain ⟨before, call, ok, after, made⟩ := step
  cases made with
  | onModel heffect =>
    cases heffect with
    | machine known name => exact ⟨[before.model.nextMachine _ name], rfl, .addition rfl⟩
    | package name => exact ⟨[], (List.append_nil _).symm, .nothing rfl rfl⟩
    | stereotype element s => exact ⟨[], by simp, .nothing rfl rfl⟩
    | property there value => exact ⟨[], (List.append_nil _).symm, .nothing rfl rfl⟩
    | unknownPackage unknown name => exact ⟨[], (List.append_nil _).symm, .nothing rfl rfl⟩
    | missingStereotype missing value => exact ⟨[], (List.append_nil _).symm, .nothing rfl rfl⟩
  | application applicable =>
    exact ⟨[before.model.nextMachine _ _], rfl, .application rfl (Applied.makes applicable.bound _)⟩
  | registration stem => exact ⟨[], (List.append_nil _).symm, .nothing rfl rfl⟩
  | unnamed nameless => exact ⟨[], (List.append_nil _).symm, .nothing rfl rfl⟩
  | inapplicable refused => exact ⟨[], (List.append_nil _).symm, .nothing rfl rfl⟩

/-- The machines after a step are those before it and those that it created. -/
theorem machines_after (step : Step) :
    step.after.model.machines = step.before.model.machines ++ step.created := by
  obtain ⟨new, hnew, -⟩ := step.exists_contributes
  rw [created, hnew, List.drop_left]

/-- **A step creates** what it was asked for. -/
theorem contributes_created (step : Step) : step.Contributes step.created := by
  obtain ⟨new, hnew, hcontributes⟩ := step.exists_contributes
  rwa [created, hnew, List.drop_left]

/-- The record grows by the application that a step makes. -/
theorem applied_after (step : Step) :
    step.after.applied = step.before.applied ++ step.application?.toList := by
  obtain ⟨before, call, ok, after, made⟩ := step
  cases made with
  | onModel heffect => exact (List.append_nil _).symm
  | application applicable => rfl
  | registration stem => exact (List.append_nil _).symm
  | unnamed nameless => exact (List.append_nil _).symm
  | inapplicable refused => exact (List.append_nil _).symm

/-- Registrations are kept. -/
theorem registrations_kept (step : Step) :
    step.before.registrations <+: step.after.registrations := by
  obtain ⟨before, call, ok, after, made⟩ := step
  cases made with
  | registration stem => exact List.prefix_append _ _
  | onModel heffect => exact List.prefix_rfl
  | application applicable => exact List.prefix_rfl
  | unnamed nameless => exact List.prefix_rfl
  | inapplicable refused => exact List.prefix_rfl

end Step

/-! ## Registered patterns -/

/-- Every pattern of the catalog is the stem of a file that was registered. -/
def IsRegistered (s : Session) : Prop :=
  ∀ pattern, (Dictionary.get? s.catalog pattern).isSome →
    ∃ path ∈ s.registrations, path.fileStem? = some pattern

/-- A step puts no pattern into the catalog without registering it. -/
theorem Step.isRegistered_after (step : Step) (h : step.before.IsRegistered) :
    step.after.IsRegistered := by
  obtain ⟨before, call, ok, after, made⟩ := step
  cases made with
  | @registration path pattern stem =>
    intro other hother
    have hset : (Dictionary.get? (Dictionary.set before.catalog pattern path) other).isSome :=
      hother
    rw [Dictionary.get?_set] at hset
    by_cases heq : other = pattern
    · subst heq
      exact ⟨path, List.mem_append_right _ List.mem_cons_self, stem⟩
    · rw [if_neg heq] at hset
      obtain ⟨earlier, hearlier, hstem⟩ := h other hset
      exact ⟨earlier, List.mem_append_left _ hearlier, hstem⟩
  | onModel heffect => exact h
  | application applicable => exact h
  | unnamed nameless => exact h
  | inapplicable refused => exact h

/-- Where patterns of the catalog are registered, so is one that is applied. -/
theorem Step.exists_registration (step : Step) (h : step.before.IsRegistered) {a : Applied}
    (ha : step.application? = some a) :
    ∃ path ∈ step.before.registrations, path.fileStem? = some a.pattern := by
  obtain ⟨before, call, ok, after, made⟩ := step
  cases made with
  | application applicable =>
    obtain rfl := Option.some.inj ha
    exact h _ applicable.registered
  | onModel heffect => cases ha
  | registration stem => cases ha
  | unnamed nameless => cases ha
  | inapplicable refused => cases ha

/-! ## Histories -/

variable {s : Session}

/-- The machines after a history are those before it and those that its steps created, in order. -/
theorem machines_foldl_perform (s : Session) (calls : List Call) :
    (calls.foldl perform s).model.machines = s.model.machines
      ++ (steps s calls).flatMap Step.created := by
  induction calls generalizing s with
  | nil => exact (List.append_nil _).symm
  | cons c rest ih =>
    have first : (s.perform c).model.machines = s.model.machines ++ (s.stepOf c).created :=
      (s.stepOf c).machines_after
    rw [List.foldl_cons, ih, first, steps, List.flatMap_cons, List.append_assoc]

/-- The record after a history has the applications that its steps made, in order. -/
theorem applied_foldl_perform (s : Session) (calls : List Call) :
    (calls.foldl perform s).applied = s.applied ++ (steps s calls).filterMap Step.application? := by
  induction calls generalizing s with
  | nil => exact (List.append_nil _).symm
  | cons c rest ih =>
    have first : (s.perform c).applied = s.applied ++ (s.stepOf c).application?.toList :=
      (s.stepOf c).applied_after
    rw [List.foldl_cons, ih, first, steps, List.filterMap_cons]
    cases (s.stepOf c).application? <;> simp

/-- Along a history, registrations are kept. -/
theorem registrations_kept_foldl_perform (s : Session) (calls : List Call) :
    s.registrations <+: (calls.foldl perform s).registrations := by
  induction calls generalizing s with
  | nil => exact List.prefix_rfl
  | cons c rest ih => exact (s.stepOf c).registrations_kept.trans (ih (s.perform c))

/-- Each step of a history starts with a catalog of registered patterns, and what is registered then
stays so. -/
theorem isRegistered_of_mem_steps (hs : s.IsRegistered) {calls : List Call} {step : Step}
    (h : step ∈ steps s calls) :
    step.before.IsRegistered ∧ step.before.registrations
      <+: (calls.foldl perform s).registrations := by
  induction calls generalizing s with
  | nil => cases h
  | cons c rest ih =>
    rcases List.mem_cons.1 h with rfl | hrest
    · exact ⟨hs, registrations_kept_foldl_perform s (c :: rest)⟩
    · exact ih ((s.stepOf c).isRegistered_after hs) hrest

/-- The machines that applications created are told one by one by the applications. -/
theorem forall₂_makes (steps : List Step) :
    List.Forall₂ (fun machine a => a.Makes machine)
      ((steps.filter fun step => step.application?.isSome).flatMap Step.created)
      (steps.filterMap Step.application?) := by
  induction steps with
  | nil => exact .nil
  | cons step rest ih =>
    cases ha : step.application? with
    | none =>
      rw [List.filter_cons_of_neg (by simp [ha]), List.filterMap_cons_none ha]
      exact ih
    | some a =>
      obtain ⟨machine, hcreated, makes⟩ := step.contributes_created.exists_makes ha
      rw [List.filter_cons_of_pos (by simp [ha]), List.filterMap_cons_some ha, List.flatMap_cons,
        hcreated]
      exact .cons makes ih

/-- The machines, the record and the registrations of a session are what the steps of its history
say: the machines are those that the steps created, in order, each by an addition or an application;
the record has the applications, which match the machines that they created one by one; and an
applied pattern was registered before. -/
structure IsAccounted (steps : List Step) (s : Session) : Prop where
  machines : s.model.machines = steps.flatMap Step.created
  created : ∀ step ∈ steps, step.Contributes step.created
  applied : s.applied = steps.filterMap Step.application?
  matched : List.Forall₂ (fun machine a => a.Makes machine)
    ((steps.filter fun step => step.application?.isSome).flatMap Step.created) s.applied
  registered : ∀ step ∈ steps, ∀ a, step.application? = some a →
    (∃ path ∈ step.before.registrations, path.fileStem? = some a.pattern)
      ∧ step.before.registrations <+: s.registrations

/-- **Machines, record and registrations agree** after any calls, on the catalog and directly on the
model. -/
theorem isAccounted_steps (calls : List Call) :
    IsAccounted (steps {} calls) (calls.foldl perform {}) := by
  have applied : (calls.foldl perform {}).applied = (steps {} calls).filterMap Step.application? :=
    applied_foldl_perform {} calls
  have nothing_registered : IsRegistered {} := fun pattern hpattern => by cases hpattern
  refine ⟨machines_foldl_perform {} calls, fun step _ => step.contributes_created, applied, ?_, ?_⟩
  · rw [applied]
    exact forall₂_makes (steps {} calls)
  · intro step hstep a ha
    obtain ⟨registered, kept⟩ := isRegistered_of_mem_steps nothing_registered hstep
    exact ⟨step.exists_registration registered ha, kept⟩

end PlcWorkbench.Session
