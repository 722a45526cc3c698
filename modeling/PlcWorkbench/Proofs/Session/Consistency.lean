import PlcWorkbench.Proofs.Session.Effect
import Mathlib.Data.List.Perm.Basic

/-!
# What the parts of a model say about each other

The lists of a model refer to each other by ids and keys. Whatever calls are made, on the model or
on the catalog of its session, and whether they succeed or not, these references stay sound:
elements are told apart by their ids, machines are owned by packages that are there, properties
belong to stereotypes that are there, and the log of writes has the keys that have a value. Hence
the machines divide among the packages.

* `IsConsistent` : the condition, and `IsReachable.isConsistent` : it holds of all models that calls
  lead to;
* `IsDivided` : the machines by their packages;
* `isConsistent_foldl_perform` : the model of a session, whatever was done with the session.
-/

namespace PlcWorkbench.Session

namespace Model

variable {m m' : Model} {c : Call} {ok : Bool} {target : PropertyKey} {value : String}

/-! ## Ids -/

/-- Ids of packages and of machines begin with different letters. -/
theorem idOf_ne (n n' : Nat) : idOf "pkg" n ≠ idOf "sm" n' := by
  intro heq
  have first := congrArg (fun id => id.toList.head?) heq
  simp [idOf] at first

/-- The packages of a model that calls lead to are numbered. -/
theorem IsReachable.areNumbered_packages (h : m.IsReachable) :
    AreNumbered "pkg" m.lastNumber (m.packages.map (·.id)) := by
  refine h.of_effect (motive := fun m => AreNumbered "pkg" m.lastNumber (m.packages.map (·.id)))
    ⟨[], rfl, .nil, List.forall_mem_nil _⟩ ?_
  intro m c ok m' heffect ih
  cases heffect with
  | package name =>
    rw [addPackage, List.map_append]
    exact ih.concat
  | machine known name => exact ih.skip
  | stereotype element s => simpa using ih
  | property there value => exact ih
  | unknownPackage unknown name => exact ih
  | missingStereotype missing value => exact ih

/-- No two elements of a model that calls lead to have the same id. -/
theorem IsReachable.nodup_ids (h : m.IsReachable) :
    (m.packages.map (·.id) ++ m.machines.map (·.id)).Nodup := by
  rw [List.nodup_append]
  refine ⟨h.areNumbered_packages.nodup, h.nodup_machineIds, ?_⟩
  intro id hpackage id' hmachine
  obtain ⟨numbers, hnumbers, -⟩ := h.areNumbered_packages
  obtain ⟨numbers', hnumbers', -⟩ := h.areNumbered_machines
  rw [hnumbers] at hpackage
  rw [hnumbers'] at hmachine
  obtain ⟨n, -, rfl⟩ := List.mem_map.1 hpackage
  obtain ⟨n', -, rfl⟩ := List.mem_map.1 hmachine
  exact idOf_ne n n'

/-- A call gives out one number at most. -/
theorem Effect.lastNumber_le (h : m.Effect c ok m') : m'.lastNumber ≤ m.lastNumber + 1 := by
  cases h with
  | package name => exact Nat.le_refl _
  | machine known name => exact Nat.le_refl _
  | stereotype element s =>
    rw [lastNumber_addStereotype]
    exact Nat.le_succ _
  | property there value => exact Nat.le_succ _
  | unknownPackage unknown name => exact Nat.le_succ _
  | missingStereotype missing value => exact Nat.le_succ _

/-- Calls give out no more numbers than there are calls. -/
theorem lastNumber_foldl_perform_le (m : Model) (calls : List Call) :
    (calls.foldl perform m).lastNumber ≤ m.lastNumber + calls.length := by
  induction calls generalizing m with
  | nil => exact Nat.le_refl _
  | cons c rest ih =>
    have first := (m.effect c).lastNumber_le
    have later := ih (m.perform c)
    rw [List.foldl_cons, List.length_cons]
    omega

/-! ## References -/

/-- Every machine of a model that calls lead to is owned by one of its packages. -/
theorem IsReachable.hasPackage_owner (h : m.IsReachable) :
    ∀ machine ∈ m.machines, m.HasPackage machine.owner := by
  refine h.of_effect (motive := fun m => ∀ machine ∈ m.machines, m.HasPackage machine.owner)
    (List.forall_mem_nil _) ?_
  intro m c ok m' heffect ih
  cases heffect with
  | package name =>
    intro machine hmachine
    obtain ⟨package, hpackage, hid⟩ := ih machine hmachine
    exact ⟨package, List.mem_append_left _ hpackage, hid⟩
  | machine known name =>
    intro machine hmachine
    rcases List.mem_append.1 hmachine with hold | hnew
    · exact ih machine hold
    · rw [List.mem_singleton.1 hnew]
      exact known
  | stereotype element s =>
    intro machine hmachine
    rw [machines_addStereotype] at hmachine
    rw [HasPackage, packages_addStereotype]
    exact ih machine hmachine
  | property there value => exact ih
  | unknownPackage unknown name => exact ih
  | missingStereotype missing value => exact ih

/-- Every property of a model that calls lead to belongs to a stereotype that its element has. -/
theorem IsReachable.mem_stereotypes (h : m.IsReachable) :
    ∀ entry ∈ m.properties, (entry.1.element, entry.1.stereotype) ∈ m.stereotypes := by
  refine h.of_effect
    (motive := fun m => ∀ entry ∈ m.properties,
      (entry.1.element, entry.1.stereotype) ∈ m.stereotypes)
    (List.forall_mem_nil _) ?_
  intro m c ok m' heffect ih
  cases heffect with
  | package name => exact ih
  | machine known name => exact ih
  | stereotype element s =>
    intro entry hentry
    rw [properties_addStereotype] at hentry
    exact mem_stereotypes_addStereotype.2 (.inl (ih entry hentry))
  | property there value =>
    intro entry hentry
    rcases List.mem_cons.1 hentry with rfl | hold
    · exact there
    · exact ih entry (List.mem_of_mem_filter hold)
  | unknownPackage unknown name => exact ih
  | missingStereotype missing value => exact ih

/-- A write adds its key to those that have a value. -/
theorem mem_keys_write {other : PropertyKey} :
    other ∈ (m.write target value).properties.map (·.1)
      ↔ other ∈ m.properties.map (·.1) ∨ other = target := by
  rw [write, List.map_cons, List.mem_cons, List.mem_map, List.mem_map]
  by_cases heq : other = target
  · simp [heq]
  · constructor
    · rintro (htarget | ⟨entry, hentry, rfl⟩)
      · exact .inr htarget
      · exact .inl ⟨entry, List.mem_of_mem_filter hentry, rfl⟩
    · rintro (⟨entry, hentry, rfl⟩ | htarget)
      · exact .inr ⟨entry, List.mem_filter.2 ⟨hentry, by simpa using heq⟩, rfl⟩
      · exact .inl htarget

/-- In a model that calls lead to, the keys that have a value are those that were written. -/
theorem IsReachable.mem_keys_iff (h : m.IsReachable) :
    ∀ target, target ∈ m.properties.map (·.1) ↔ target ∈ m.writes := by
  refine h.of_effect (motive := fun m => ∀ target, target ∈ m.properties.map (·.1)
      ↔ target ∈ m.writes)
    (fun target => Iff.rfl) ?_
  intro m c ok m' heffect ih
  cases heffect with
  | package name => exact ih
  | machine known name => exact ih
  | stereotype element s => simpa using ih
  | property there value =>
    intro other
    rw [mem_keys_write, ih other, write, List.mem_append, List.mem_singleton]
  | unknownPackage unknown name => exact ih
  | missingStereotype missing value => exact ih

/-! ## Machines by packages -/

/-- The machines that a package owns, in the order of their creation. -/
def machinesOf (m : Model) (package : String) : List Machine :=
  m.machines.filter (·.owner == package)

/-- Machines that are taken package by package are all the machines, if each is owned by one of the
packages. -/
theorem flatMap_filter_owner_perm {packages : List Package} {machines : List Machine}
    (hids : (packages.map (·.id)).Nodup)
    (howned : ∀ machine ∈ machines, machine.owner ∈ packages.map (·.id)) :
    (packages.flatMap fun package => machines.filter (·.owner == package.id)).Perm machines := by
  induction packages generalizing machines with
  | nil =>
    have none : machines = [] := List.eq_nil_iff_forall_not_mem.2 fun machine hmachine => by
      have hnil := howned machine hmachine
      cases hnil
    rw [none]
    exact .nil
  | cons package rest ih =>
    rw [List.map_cons, List.nodup_cons] at hids
    -- the machines that the first package leaves to the rest
    let others := machines.filter fun machine => !(machine.owner == package.id)
    have others_owned : ∀ machine ∈ others, machine.owner ∈ rest.map (·.id) := by
      intro machine hmachine
      obtain ⟨hmem, hother⟩ := List.mem_filter.1 hmachine
      rcases List.mem_cons.1 (howned machine hmem) with hfirst | hrest
      · simp [hfirst] at hother
      · exact hrest
    have untouched : ∀ later ∈ rest,
        machines.filter (·.owner == later.id) = others.filter (·.owner == later.id) := by
      intro later hlater
      have different : later.id ≠ package.id := fun heq => hids.1 (heq ▸ List.mem_map_of_mem hlater)
      rw [List.filter_filter]
      apply List.filter_congr
      intro machine _
      by_cases howner : machine.owner = later.id <;> simp [howner, different]
    calc (package :: rest).flatMap (fun package => machines.filter (·.owner == package.id))
        = machines.filter (·.owner == package.id) ++ rest.flatMap fun later =>
          others.filter (·.owner == later.id) := by
          rw [List.flatMap_cons, List.flatMap_congr untouched]
      List.Perm _ (machines.filter (·.owner == package.id) ++ others) :=
        (ih hids.2 others_owned).append_left _
      List.Perm _ machines := List.filter_append_perm _ machines

/-- The machines divide among the packages: each is one of exactly one package, the lists of the
packages are together all the machines and each in their order, and they are what is listed by
name. -/
structure IsDivided (m : Model) : Prop where
  once : ∀ machine ∈ m.machines, ∃! package, package ∈ m.packages
    ∧ machine ∈ m.machinesOf package.id
  together : (m.packages.flatMap fun package => m.machinesOf package.id).Perm m.machines
  in_order : ∀ package ∈ m.packages, (m.machinesOf package.id).Sublist m.machines
  names : ∀ package ∈ m.packages, m.machineNamesIn package.id
    = (m.machinesOf package.id).map (·.name)

/-- Machines divide among packages that have different ids and own them all. -/
theorem isDivided (hids : (m.packages.map (·.id)).Nodup)
    (howned : ∀ machine ∈ m.machines, m.HasPackage machine.owner) :
    m.IsDivided where
  once := by
    intro machine hmachine
    obtain ⟨package, hpackage, hid⟩ := howned machine hmachine
    refine ⟨package, ⟨hpackage, List.mem_filter.2 ⟨hmachine, beq_iff_eq.2 hid.symm⟩⟩, ?_⟩
    rintro other ⟨hother, hmem⟩
    have howner : machine.owner = other.id := beq_iff_eq.1 (List.mem_filter.1 hmem).2
    exact List.inj_on_of_nodup_map hids hother hpackage (howner.symm.trans hid.symm)
  together := by
    refine flatMap_filter_owner_perm hids fun machine hmachine => ?_
    obtain ⟨package, hpackage, hid⟩ := howned machine hmachine
    exact hid ▸ List.mem_map_of_mem hpackage
  in_order := fun _ _ => List.filter_sublist
  names := fun _ _ => rfl

/-! ## All together -/

/-- The parts of a model agree with each other: ids are told apart, machines stand in the order in
which they were numbered, what they and the properties refer to is there, and the machines divide
among the packages. -/
structure IsConsistent (m : Model) : Prop where
  distinct : (m.packages.map (·.id) ++ m.machines.map (·.id)).Nodup
  in_turn : AreNumbered "sm" m.lastNumber (m.machines.map (·.id))
  owned : ∀ machine ∈ m.machines, m.HasPackage machine.owner
  stereotyped : ∀ entry ∈ m.properties, (entry.1.element, entry.1.stereotype) ∈ m.stereotypes
  logged : ∀ target, target ∈ m.properties.map (·.1) ↔ target ∈ m.writes
  divided : m.IsDivided

/-- The parts of every model that calls lead to agree with each other. -/
theorem IsReachable.isConsistent (h : m.IsReachable) : m.IsConsistent where
  distinct := h.nodup_ids
  in_turn := h.areNumbered_machines
  owned := h.hasPackage_owner
  stereotyped := h.mem_stereotypes
  logged := h.mem_keys_iff
  divided := isDivided h.areNumbered_packages.nodup h.hasPackage_owner

end Model

/-- **The model of a session is consistent** after any calls on the model and on the catalog,
whether they succeeded or not, and it gave out no more numbers than there were calls. -/
theorem isConsistent_foldl_perform (calls : List Call) :
    (calls.foldl perform {}).model.IsConsistent ∧ (calls.foldl perform {}).model.lastNumber
      ≤ calls.length := by
  obtain ⟨modelCalls, hlength, hmodel⟩ : ∃ modelCalls : List Model.Call,
    modelCalls.length ≤ calls.length
      ∧ (calls.foldl perform {}).model = modelCalls.foldl Model.perform {} :=
        exists_modelCalls {} calls
  rw [hmodel]
  have reachable : (modelCalls.foldl Model.perform {}).IsReachable := ⟨modelCalls, rfl⟩
  have numbers : (modelCalls.foldl Model.perform {}).lastNumber ≤ 0 + modelCalls.length :=
    Model.lastNumber_foldl_perform_le {} modelCalls
  exact ⟨reachable.isConsistent, by omega⟩

end PlcWorkbench.Session
