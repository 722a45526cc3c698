import PlcWorkbench.Pattern.Annotation
import PlcWorkbench.Proofs.Session.Model
import PlcWorkbench.Proofs.Success

/-!
# What annotating does to a model

Annotating a machine writes two properties under its id and changes nothing else. The machines of a
model that calls lead to have distinct ids, so what is written for one machine is still there when
all others are annotated, and it is read back as it was meant. Annotating again writes the same
values.

* `succeeds_annotate` : annotating one machine;
* `succeeds_annotateEach` : annotating machines one after the other;
* `annotateAll_complete` : annotating all machines of a model, and doing it again.
-/

namespace PlcWorkbench.Pattern

open Session (Model Machine Stereotype PropertyKey queueSizeKey scanModeKey)

variable {config : PatternConfig} {m : Model} {machine : Machine} {machines : List Machine}

/-! ## Values that are written -/

/-- A queue size in range is read back. -/
theorem readSigned_toString {size : Nat} (h : minQueueSize ≤ size) (h' : size ≤ maxQueueSize) :
    Text.Numeral.readSigned (Text.trim (toString size)).toList = .ok size := by
  have each : ∀ size ≤ maxQueueSize, minQueueSize ≤ size →
      Text.Numeral.readSigned (Text.trim (toString size)).toList = .ok size := by decide
  exact each size h' h

/-- A scan mode is read back. -/
theorem parse_token (mode : ScanMode) : ScanMode.parse (Text.trim mode.token) = .ok mode := by
  cases mode <;> decide

/-- The two properties have different keys. -/
theorem queueSizeKey_ne : queueSizeKey ≠ scanModeKey := by decide

/-! ## One machine -/

/-- The annotation of a machine. -/
def annotationOf (config : PatternConfig) (machine : Machine) : Annotation :=
  ⟨machine.name, config.eventQueueSize, ScanMode.ofNameWith machine.name config.multiplicityMarker⟩

/-- The property of a machine under a key. -/
def propertyOf (config : PatternConfig) (machine : Machine) (key : String) : PropertyKey :=
  ⟨machine.id, stereotype config, key⟩

/-- The model after a machine was annotated. -/
def annotated (config : PatternConfig) (m : Model) (machine : Machine) : Model :=
  ((m.addStereotype machine.id (stereotype config)).write (propertyOf config machine queueSizeKey)
    (toString config.eventQueueSize)).write (propertyOf config machine scanModeKey)
    (annotationOf config machine).scanMode.token

/-- **Annotating a machine succeeds**, since it has the stereotype when its properties are set. -/
theorem succeeds_annotate (config : PatternConfig) (machine : Machine) (m : Model) :
    (annotate config machine.id machine.name).Succeeds m (annotationOf config machine)
      (annotated config m machine) := by
  have there :
      (machine.id, stereotype config)
        ∈ (m.addStereotype machine.id (stereotype config)).stereotypes :=
    Model.mem_stereotypes_addStereotype.2 (.inr rfl)
  simp only [annotate, annotated, annotationOf, propertyOf]
  refine (Task.succeeds_modify _ m).bind ?_
  refine (Task.succeeds_step (Model.setProperty_eq_write ?_)).bind ?_
  · exact there
  refine (Task.succeeds_step (Model.setProperty_eq_write ?_)).bind ?_
  · exact there
  refine (Task.succeeds_log _ _).bind ?_
  exact Task.succeeds_pure _ _

/-- Annotating a machine sets its two properties. -/
theorem property?_annotated (target : PropertyKey) :
    (annotated config m machine).property? target =
      if target = propertyOf config machine scanModeKey then
        some (annotationOf config machine).scanMode.token
      else if target = propertyOf config machine queueSizeKey then
        some (toString config.eventQueueSize)
      else m.property? target := by
  rw [annotated, Model.property?_write, Model.property?_write, Model.property?_addStereotype]

/-- Annotating a machine writes each of its two properties once. -/
theorem writeCount_annotated (element key : String) :
    (annotated config m machine).writeCount element key
      = m.writeCount element key
        + if machine.id = element ∧ key ∈ [queueSizeKey, scanModeKey] then 1 else 0 := by
  rw [annotated, Model.writeCount_write, Model.writeCount_write, Model.writeCount_addStereotype,
    Nat.add_assoc]
  congr 1
  by_cases helement : machine.id = element
  · by_cases hsize : queueSizeKey = key
    · subst hsize
      simp [propertyOf, helement, queueSizeKey_ne.symm]
    · simp [propertyOf, helement, hsize, Ne.symm hsize, eq_comm]
  · simp [propertyOf, helement]

/-! ## Machines one after the other -/

/-- The properties that annotating machines writes. -/
def IsAnnotation (config : PatternConfig) (machines : List Machine) (target : PropertyKey) : Prop :=
  ∃ machine ∈ machines, ∃ key ∈ [queueSizeKey, scanModeKey], target = propertyOf config machine key

/-- **Annotating machines succeeds**, with the annotation of each in order. -/
theorem succeeds_annotateEach (config : PatternConfig) (machines : List Machine) (m : Model) :
    (annotateEach config machines).Succeeds m (machines.map (annotationOf config))
      (machines.foldl (annotated config) m) := by
  induction machines generalizing m with
  | nil => exact Task.succeeds_pure _ m
  | cons machine rest ih =>
    rw [annotateEach]
    refine (succeeds_annotate config machine m).bind ?_
    exact (ih (annotated config m machine)).bind (Task.succeeds_pure _ _)

/-- Packages and machines stay as they are. -/
theorem elements_foldl_annotated (config : PatternConfig) (machines : List Machine) (m : Model) :
    (machines.foldl (annotated config) m).packages = m.packages
      ∧ (machines.foldl (annotated config) m).machines = m.machines := by
  induction machines generalizing m with
  | nil => exact ⟨rfl, rfl⟩
  | cons machine rest ih =>
    obtain ⟨packages, machines⟩ := ih (annotated config m machine)
    rw [List.foldl_cons, packages, machines]
    simp [annotated]

/-- Each machine gets the stereotype, and no element gets or loses another. -/
theorem mem_stereotypes_foldl_annotated {pair : String × Stereotype} :
    pair ∈ (machines.foldl (annotated config) m).stereotypes
      ↔ pair ∈ m.stereotypes ∨ pair.1 ∈ machines.map (·.id) ∧ pair.2 = stereotype config := by
  induction machines generalizing m with
  | nil => simp
  | cons machine rest ih =>
    rw [List.foldl_cons, ih, annotated, Model.stereotypes_write, Model.stereotypes_write,
      Model.mem_stereotypes_addStereotype, List.map_cons, List.mem_cons, Prod.ext_iff, or_assoc,
      ← or_and_right]

/-- Machines that have the stereotype do not get it again. -/
theorem stereotypes_foldl_annotated
    (h : ∀ machine ∈ machines, (machine.id, stereotype config) ∈ m.stereotypes) :
    (machines.foldl (annotated config) m).stereotypes = m.stereotypes := by
  induction machines generalizing m with
  | nil => rfl
  | cons machine rest ih =>
    rw [List.forall_mem_cons] at h
    have kept : (annotated config m machine).stereotypes = m.stereotypes := by
      rw [annotated, Model.stereotypes_write, Model.stereotypes_write,
        Model.addStereotype_eq_self h.1]
    rw [List.foldl_cons, ih (by rw [kept]; exact h.2), kept]

/-- Any other property stays as it is. -/
theorem property?_foldl_annotated_of_not {target : PropertyKey}
    (h : ¬ IsAnnotation config machines target) :
    (machines.foldl (annotated config) m).property? target = m.property? target := by
  induction machines generalizing m with
  | nil => rfl
  | cons machine rest ih =>
    have here : ∀ key ∈ [queueSizeKey, scanModeKey], target ≠ propertyOf config machine key :=
      fun key hkey heq => h ⟨machine, List.mem_cons_self, key, hkey, heq⟩
    have later : ¬ IsAnnotation config rest target :=
      fun ⟨other, hother, written⟩ => h ⟨other, List.mem_cons_of_mem _ hother, written⟩
    rw [List.foldl_cons, ih later, property?_annotated, if_neg (here scanModeKey (by simp)),
      if_neg (here queueSizeKey (by simp))]

/-- What is written for a machine is there when all machines are annotated, since their ids are
distinct. -/
theorem property?_foldl_annotated (config : PatternConfig) (m : Model)
    (hids : (machines.map (·.id)).Nodup) (hmachine : machine ∈ machines) :
    (machines.foldl (annotated config) m).property? (propertyOf config machine queueSizeKey)
        = some (toString config.eventQueueSize)
      ∧ (machines.foldl (annotated config) m).property? (propertyOf config machine scanModeKey)
        = some (annotationOf config machine).scanMode.token := by
  induction machines generalizing m with
  | nil => cases hmachine
  | cons first rest ih =>
    rw [List.map_cons, List.nodup_cons] at hids
    rcases List.mem_cons.1 hmachine with rfl | hrest
    · -- the machines after it have other ids, so they write other properties
      have other : ∀ key, ¬ IsAnnotation config rest (propertyOf config machine key) := by
        rintro key ⟨later, hlater, key', -, heq⟩
        refine hids.1 (List.mem_map.2 ⟨later, hlater, ?_⟩)
        exact (congrArg PropertyKey.element heq).symm
      have keys : propertyOf config machine queueSizeKey ≠ propertyOf config machine scanModeKey :=
        fun heq => queueSizeKey_ne (congrArg PropertyKey.key heq)
      rw [List.foldl_cons, property?_foldl_annotated_of_not (other _),
        property?_foldl_annotated_of_not (other _), property?_annotated, property?_annotated,
        if_neg keys, if_pos rfl, if_pos rfl]
      exact ⟨rfl, rfl⟩
    · exact ih (annotated config m first) hids.2 hrest

/-- Each of the two properties is written once for every machine of an id. -/
theorem writeCount_foldl_annotated {key : String} (hkey : key ∈ [queueSizeKey, scanModeKey])
    (element : String) : (machines.foldl (annotated config) m).writeCount element key
      = m.writeCount element key + (machines.map (·.id)).count element := by
  induction machines generalizing m with
  | nil => rfl
  | cons machine rest ih =>
    rw [List.foldl_cons, ih, writeCount_annotated, List.map_cons, List.count_cons]
    by_cases helement : machine.id = element
    · rw [if_pos ⟨helement, hkey⟩, if_pos (beq_iff_eq.2 helement)]
      omega
    · rw [if_neg fun h => helement h.1, if_neg fun h => helement (beq_iff_eq.1 h)]
      omega

/-! ## All machines of a model -/

/-- The model is another one with all machines annotated: each has the stereotype and properties
that are read back as configured, each of which was written once, and nothing else changed. -/
structure IsAnnotated (config : PatternConfig) (m m' : Model) : Prop where
  has_stereotype : ∀ machine ∈ m.machines, (machine.id, stereotype config) ∈ m'.stereotypes
  queueSize : ∀ machine ∈ m.machines, m'.queueSize machine.id (stereotype config)
    = .ok config.eventQueueSize
  scanMode : ∀ machine ∈ m.machines,
    m'.scanMode machine.id (stereotype config) = .ok (annotationOf config machine).scanMode
  writes : ∀ machine ∈ m.machines, ∀ key ∈ [queueSizeKey, scanModeKey],
    m'.writeCount machine.id key = m.writeCount machine.id key + 1
  other_stereotypes : ∀ element s, ¬ (element ∈ m.machines.map (·.id) ∧ s = stereotype config) →
    ((element, s) ∈ m'.stereotypes ↔ (element, s) ∈ m.stereotypes)
  other_properties : ∀ target, ¬ IsAnnotation config m.machines target →
    m'.property? target = m.property? target
  packages : m'.packages = m.packages
  machines : m'.machines = m.machines

/-- A configuration that passes its check has a queue size in range. -/
theorem queueSize_of_validate {c : Config} (h : c.validate = .ok ()) :
    minQueueSize ≤ c.patterns.eventQueueSize ∧ c.patterns.eventQueueSize ≤ maxQueueSize := by
  rw [Config.validate] at h
  split at h
  · cases h
  · rename_i hrange
    rw [not_or, Nat.not_lt, Nat.not_lt] at hrange
    exact hrange

/-- Annotating the machines of a model one after the other annotates the model. -/
theorem isAnnotated_foldl (hids : (m.machines.map (·.id)).Nodup)
    (hsize : minQueueSize ≤ config.eventQueueSize ∧ config.eventQueueSize ≤ maxQueueSize) :
    IsAnnotated config m (m.machines.foldl (annotated config) m) where
  has_stereotype := fun machine hmachine =>
    mem_stereotypes_foldl_annotated.2 (.inr ⟨List.mem_map_of_mem hmachine, rfl⟩)
  queueSize := by
    intro machine hmachine
    have written := (property?_foldl_annotated config m hids hmachine).1
    rw [propertyOf] at written
    rw [Model.queueSize, Model.run_readQueueSize, Model.propertyText, written, Option.getD_some,
      readSigned_toString hsize.1 hsize.2]
    exact if_pos hsize
  scanMode := by
    intro machine hmachine
    have written := (property?_foldl_annotated config m hids hmachine).2
    rw [propertyOf] at written
    rw [Model.scanMode, Model.run_readScanMode, Model.propertyText, written, Option.getD_some,
      parse_token]
  writes := by
    intro machine hmachine key hkey
    rw [writeCount_foldl_annotated hkey,
      List.count_eq_one_of_mem hids (List.mem_map_of_mem hmachine)]
  other_stereotypes := by
    intro element s hother
    rw [mem_stereotypes_foldl_annotated]
    exact or_iff_left hother
  other_properties := fun target hother => property?_foldl_annotated_of_not hother
  packages := (elements_foldl_annotated config _ m).1
  machines := (elements_foldl_annotated config _ m).2

/-- Annotating all machines annotates those that the model has. -/
theorem succeeds_annotateAll (config : PatternConfig) (m : Model) :
    (annotateAll config).Succeeds m (m.machines.map (annotationOf config))
      (m.machines.foldl (annotated config) m) := by
  rw [annotateAll]
  refine (Task.succeeds_get m).bind ?_
  refine (succeeds_annotateEach config m.machines m).bind ?_
  exact (Task.succeeds_log _ _).bind (Task.succeeds_pure _ _)

/-- **Annotating a model** that calls lead to succeeds. It annotates every machine, in order, so
that what was configured is read back, and changes nothing else. Doing it again gives the same
annotations and leaves stereotypes and properties as they are. -/
theorem annotateAll_complete {c : Config} (h : m.IsReachable) (hvalid : c.validate = .ok ()) :
    ∃ m', (annotateAll c.patterns).Succeeds m (m.machines.map (annotationOf c.patterns)) m'
      ∧ IsAnnotated c.patterns m m'
      ∧ ∃ m'', (annotateAll c.patterns).Succeeds m' (m.machines.map (annotationOf c.patterns)) m''
          ∧ m''.stereotypes = m'.stereotypes ∧ ∀ target,
              m''.property? target = m'.property? target := by
  have first := isAnnotated_foldl h.nodup_machineIds (queueSize_of_validate hvalid)
  have again := succeeds_annotateAll c.patterns (m.machines.foldl (annotated c.patterns) m)
  rw [first.machines] at again
  refine ⟨_, succeeds_annotateAll c.patterns m, first, _, again,
    stereotypes_foldl_annotated first.has_stereotype, ?_⟩
  intro target
  by_cases htarget : IsAnnotation c.patterns m.machines target
  · -- both times the same value is written
    obtain ⟨machine, hmachine, key, hkey, rfl⟩ := htarget
    have written :=
      fun start => property?_foldl_annotated c.patterns start h.nodup_machineIds hmachine
    rcases List.mem_cons.1 hkey with rfl | hkey
    · rw [(written _).1, (written _).1]
    · rw [List.mem_singleton.1 hkey, (written _).2, (written _).2]
  · exact property?_foldl_annotated_of_not htarget

/-- A model with two machines, one of which has the stereotype and a queue size that is out of
range. -/
def plant : Model :=
  [Model.Call.addPackage "Plant", .addMachine "pkg-0001" "Motor_dual",
    .addMachine "pkg-0001" "Valve", .addStereotype "sm-0002" (stereotype {}),
    .setProperty ⟨"sm-0002", stereotype {}, queueSizeKey⟩ "9"].foldl
    Model.perform {}

/-- The queue size is written a second time and read back as configured; the name of the other
machine says nothing about its scan mode. -/
theorem annotateAll_complete_plant :
    ∃ m', (annotateAll {}).Succeeds plant [⟨"Motor_dual", 2, .dual⟩, ⟨"Valve", 2, .single⟩] m'
      ∧ m'.queueSize "sm-0002" (stereotype {}) = .ok 2 ∧ m'.writeCount "sm-0002" queueSizeKey = 2
      ∧ m'.scanMode "sm-0003" (stereotype {}) = .ok .single := by
  have machines :
      plant.machines = [⟨"sm-0002", "Motor_dual", "pkg-0001"⟩,
        ⟨"sm-0003", "Valve", "pkg-0001"⟩] := by
    decide +kernel
  have annotations :
      plant.machines.map (annotationOf {}) = [⟨"Motor_dual", 2, .dual⟩, ⟨"Valve", 2, .single⟩] := by
    decide +kernel
  have before : plant.writeCount "sm-0002" queueSizeKey = 1 := by decide +kernel
  have reachable : plant.IsReachable := ⟨_, rfl⟩
  obtain ⟨m', success, annotated, -⟩ := annotateAll_complete (c := {}) reachable (by decide +kernel)
  have motor := annotated.queueSize ⟨"sm-0002", "Motor_dual", "pkg-0001"⟩ (by simp [machines])
  have written :=
    annotated.writes ⟨"sm-0002", "Motor_dual", "pkg-0001"⟩ (by simp [machines])
      queueSizeKey (by simp)
  have valve := annotated.scanMode ⟨"sm-0003", "Valve", "pkg-0001"⟩ (by simp [machines])
  rw [annotations] at success
  rw [before] at written
  have mode : (annotationOf {} ⟨"sm-0003", "Valve", "pkg-0001"⟩).scanMode = .single := by
    decide +kernel
  rw [mode] at valve
  exact ⟨m', success, motor, written, valve⟩

end PlcWorkbench.Pattern
