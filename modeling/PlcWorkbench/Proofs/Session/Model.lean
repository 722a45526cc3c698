import PlcWorkbench.Proofs.Dictionary
import PlcWorkbench.Session.Model
import Mathlib.Data.List.Nodup

/-!
# Models that calls lead to

What the operations of a model do to what can be seen of it, and what holds of every model that they
lead to from the empty one. The machines of such a model are numbered in ascending order, and a
number can be read off the id that is made from it, so no two machines have the same id.

* `property?_write`, `writeCount_write` : a property that is set;
* `IsReachable` : the models that calls lead to;
* `IsReachable.nodup_machineIds` : the ids of machines are distinct.
-/

namespace PlcWorkbench.Session.Model

variable {m : Model} {element key : String} {s : Stereotype} {target : PropertyKey} {value : String}

/-! ## Stereotypes -/

@[simp] theorem packages_addStereotype : (m.addStereotype element s).packages = m.packages := by
  unfold addStereotype
  split <;> rfl

@[simp] theorem machines_addStereotype : (m.addStereotype element s).machines = m.machines := by
  unfold addStereotype
  split <;> rfl

@[simp] theorem lastNumber_addStereotype :
    (m.addStereotype element s).lastNumber = m.lastNumber := by
  unfold addStereotype
  split <;> rfl

@[simp] theorem properties_addStereotype :
    (m.addStereotype element s).properties = m.properties := by
  unfold addStereotype
  split <;> rfl

@[simp] theorem writes_addStereotype : (m.addStereotype element s).writes = m.writes := by
  unfold addStereotype
  split <;> rfl

@[simp] theorem property?_addStereotype : (m.addStereotype element s).property? = m.property? := by
  unfold addStereotype
  split <;> rfl

@[simp] theorem writeCount_addStereotype :
    (m.addStereotype element s).writeCount = m.writeCount := by
  unfold addStereotype
  split <;> rfl

/-- Applying a stereotype adds it and keeps the others. -/
@[simp] theorem mem_stereotypes_addStereotype {pair : String × Stereotype} :
    pair ∈ (m.addStereotype element s).stereotypes
      ↔ pair ∈ m.stereotypes ∨ pair = (element, s) := by
  unfold addStereotype
  split
  · rename_i hthere
    constructor
    · exact .inl
    · rintro (hmem | rfl)
      · exact hmem
      · exact List.contains_iff_mem.1 hthere
  · rw [List.mem_append, List.mem_singleton]

/-- Applying a stereotype again changes nothing. -/
theorem addStereotype_eq_self (h : (element, s) ∈ m.stereotypes) :
    m.addStereotype element s = m := by
  rw [addStereotype, if_pos (List.contains_iff_mem.2 h)]

/-! ## Properties -/

/-- The model with a property written. -/
def write (m : Model) (target : PropertyKey) (value : String) : Model :=
  { m with
    properties := (target, value) :: m.properties.filter (·.1 != target)
    writes := m.writes ++ [target] }

/-- A property is written if the element has the stereotype. -/
theorem setProperty_eq_write (h : (target.element, target.stereotype) ∈ m.stereotypes) :
    m.setProperty target value = (m.write target value, .ok ()) := by
  rw [setProperty, if_pos (List.contains_iff_mem.2 h)]
  rfl

@[simp] theorem packages_write : (m.write target value).packages = m.packages := rfl

@[simp] theorem machines_write : (m.write target value).machines = m.machines := rfl

@[simp] theorem stereotypes_write : (m.write target value).stereotypes = m.stereotypes := rfl

/-- A property that was written has its new value, and any other the one that it had. -/
@[simp] theorem property?_write (other : PropertyKey) :
    (m.write target value).property? other
      = if other = target then some value else m.property? other :=
  lookup_cons_filter target other value m.properties

/-- A write counts for its element and key. -/
@[simp] theorem writeCount_write :
    (m.write target value).writeCount element key
      = m.writeCount element key
        + if target.element = element ∧ target.key = key then 1 else 0 := by
  rw [writeCount, write, List.filter_append, List.length_append]
  congr 1
  by_cases heq : target.element = element ∧ target.key = key
  · rw [if_pos heq, List.filter_cons_of_pos (by simpa using heq)]
    rfl
  · rw [if_neg heq, List.filter_cons_of_neg (by simpa using heq)]
    rfl

/-! ## Calls -/

/-- A call of an operation that may change the model. -/
inductive Call where
  | addPackage (name : String)
  | addMachine (package name : String)
  | addStereotype (element : String) (s : Stereotype)
  | setProperty (target : PropertyKey) (value : String)

/-- What a call leaves, whether it succeeds or not. -/
def perform (m : Model) : Call → Model
  | .addPackage name => (m.addPackage name).1
  | .addMachine package name => (m.addMachine package name).1
  | .addStereotype element s => m.addStereotype element s
  | .setProperty target value => (m.setProperty target value).1

/-- The models that calls lead to from the empty one. -/
def IsReachable (m : Model) : Prop := ∃ calls : List Call, calls.foldl perform {} = m

/-- What holds of the empty model, and after a call if it held before, holds of every reachable
model. -/
theorem IsReachable.induction {motive : Model → Prop} (empty : motive {})
    (call : ∀ m c, motive m → motive (perform m c)) (h : m.IsReachable) : motive m := by
  obtain ⟨calls, rfl⟩ := h
  suffices follows :
      ∀ start, motive start → motive (calls.foldl perform start) from follows {} empty
  induction calls with
  | nil => exact fun start hstart => hstart
  | cons c rest ih => exact fun start hstart => ih (perform start c) (call start c hstart)

/-! ## Ids -/

/-- A number can be read off its padded numeral, however long that is. -/
theorem padded_injective {n n' : Nat} (h : padded n = padded n') : n = n' := by
  have value : ∀ n, Nat.ofDigitChars 10 (padded n).toList 0 = n := by
    intro n
    simp [padded, Nat.ofDigitChars_append, Nat.ofDigitChars_replicate_zero]
  rw [← value n, h, value]

example : padded 42 = "0042" ∧ padded 10000 = "10000" := by decide +kernel

/-- Ids of one sort have different numbers. -/
theorem idOf_injective (sort : String) {n n' : Nat} (h : idOf sort n = idOf sort n') : n = n' :=
  padded_injective ((String.append_right_inj _).1 h)

/-- The ids have ascending numbers, none above the last one. -/
def AreNumbered (sort : String) (last : Nat) (ids : List String) : Prop :=
  ∃ numbers : List Nat, ids = numbers.map (idOf sort) ∧ numbers.Pairwise (· < ·) ∧ ∀ n ∈ numbers,
    n ≤ last

variable {sort : String} {last : Nat} {ids : List String}

/-- Ids with ascending numbers are distinct. -/
theorem AreNumbered.nodup (h : AreNumbered sort last ids) : ids.Nodup := by
  obtain ⟨numbers, rfl, ascending, -⟩ := h
  exact (ascending.imp Nat.ne_of_lt).map _ fun n n' hne heq => hne (idOf_injective sort heq)

/-- Numbers that others are given leave a gap. -/
theorem AreNumbered.skip (h : AreNumbered sort last ids) : AreNumbered sort (last + 1) ids := by
  obtain ⟨numbers, hids, ascending, bounded⟩ := h
  exact ⟨numbers, hids, ascending, fun n hn => Nat.le_succ_of_le (bounded n hn)⟩

/-- The next number continues the ids. -/
theorem AreNumbered.concat (h : AreNumbered sort last ids) :
    AreNumbered sort (last + 1) (ids ++ [idOf sort (last + 1)]) := by
  obtain ⟨numbers, rfl, ascending, bounded⟩ := h
  refine ⟨numbers ++ [last + 1], by rw [List.map_append]; rfl, ?_, ?_⟩
  · rw [List.pairwise_append]
    refine ⟨ascending, List.pairwise_singleton _ _, fun n hn n' hn' => ?_⟩
    rw [List.mem_singleton.1 hn']
    exact Nat.lt_succ_of_le (bounded n hn)
  · intro n hn
    rcases List.mem_append.1 hn with hold | hnew
    · exact Nat.le_succ_of_le (bounded n hold)
    · exact Nat.le_of_eq (List.mem_singleton.1 hnew)

/-- The machines of a reachable model are numbered. -/
theorem IsReachable.areNumbered_machines (h : m.IsReachable) :
    AreNumbered "sm" m.lastNumber (m.machines.map (·.id)) := by
  refine h.induction (motive := fun m => AreNumbered "sm" m.lastNumber (m.machines.map (·.id)))
    ⟨[], rfl, .nil, List.forall_mem_nil _⟩ fun m c ih => ?_
  cases c with
  | addPackage name => exact ih.skip
  | addMachine package name =>
    rw [perform, addMachine]
    split
    · rw [List.map_append]
      exact ih.concat
    · exact ih
  | addStereotype element s => simpa [perform] using ih
  | setProperty target value =>
    rw [perform, setProperty]
    split
    · exact ih
    · exact ih

/-- **No two machines have the same id.** -/
theorem IsReachable.nodup_machineIds (h : m.IsReachable) : (m.machines.map (·.id)).Nodup :=
  h.areNumbered_machines.nodup

end PlcWorkbench.Session.Model
