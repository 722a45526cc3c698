import PlcWorkbench.Proofs.Success
import PlcWorkbench.Proofs.Session.Model
import PlcWorkbench.Proofs.Text.Numeral
import PlcWorkbench.Session.Property

/-!
# Reading a queue size back

A stored queue size is read back if it is a numeral from one to eight, with blank characters at its
ends or without. Whatever else is stored is refused, and so is a property that was never set: no
numeral is too long to be read, and none is taken for the remainder that a word would hold of it.

* `queueSize_eq_ok_iff` : the sizes that are read back;
* `queueSize_eq_error` : what all other texts are answered with;
* `queueSize_exact` : both together, and that reading leaves the model as it is.
-/

namespace PlcWorkbench.Session.Model

open Text.Numeral (Denotes)

variable {m : Model} {element stored : String} {s : Stereotype} {size : Nat}

/-- The text of a property that was set is its value, trimmed. -/
theorem propertyText_of_stored {key : String} (h : m.property? ⟨element, s, key⟩ = some stored) :
    m.propertyText element s key = Text.trim stored := by
  rw [propertyText, h, Option.getD_some]

/-- The text of a property that was never set is empty. -/
theorem propertyText_of_missing {key : String} (h : m.property? ⟨element, s, key⟩ = none) :
    m.propertyText element s key = "" := by
  rw [propertyText, h]
  rfl

/-- A queue size is read from the trimmed text as a numeral in range. -/
theorem queueSize_eq_ok_iff_readSigned :
    m.queueSize element s = .ok size
      ↔ (minQueueSize ≤ size ∧ size ≤ maxQueueSize)
        ∧ Text.Numeral.readSigned (m.propertyText element s queueSizeKey).toList = .ok size := by
  rw [queueSize, run_readQueueSize]
  cases hread : Text.Numeral.readSigned (m.propertyText element s queueSizeKey).toList with
  | error fault => simp
  | ok n =>
    simp only [Except.ok.injEq]
    by_cases hrange : minQueueSize ≤ n ∧ n ≤ maxQueueSize
    · rw [if_pos hrange, Except.ok.injEq]
      constructor
      · rintro rfl
        exact ⟨hrange, rfl⟩
      · exact And.right
    · rw [if_neg hrange]
      refine iff_of_false (fun h => by cases h) ?_
      rintro ⟨hsize, rfl⟩
      exact hrange hsize

/-- **A queue size is read back** exactly from a numeral for it, if it is one from one to eight. -/
theorem queueSize_eq_ok_iff :
    m.queueSize element s = .ok size
      ↔ (1 ≤ size ∧ size ≤ 8)
        ∧ ∃ stored, m.property? ⟨element, s, queueSizeKey⟩ = some stored ∧ Denotes stored size := by
  rw [queueSize_eq_ok_iff_readSigned]
  have range : minQueueSize ≤ size ∧ size ≤ maxQueueSize ↔ 1 ≤ size ∧ size ≤ 8 := Iff.rfl
  rw [range]
  refine and_congr_right fun hrange => ?_
  cases hstored : m.property? ⟨element, s, queueSizeKey⟩ with
  | none =>
    rw [propertyText_of_missing hstored]
    exact iff_of_false (fun h => by cases h) fun ⟨_, h, _⟩ => by cases h
  | some stored =>
    have fits : size < Text.Numeral.wordLimit := by
      rw [Text.Numeral.wordLimit]
      omega
    rw [propertyText_of_stored hstored, Text.Numeral.readSigned_trim_eq_ok_iff, and_iff_left fits]
    simp

/-- Anything else is an invalid property, and the error names it and shows what was found. -/
theorem queueSize_eq_error (h : ∀ size, m.queueSize element s ≠ .ok size) :
    m.queueSize element s = .error (.invalidProperty
      (.queueSize (m.propertyText element s queueSizeKey))) := by
  rw [queueSize, run_readQueueSize] at h ⊢
  split
  · rename_i n hread
    rw [hread] at h
    simp only at h
    split
    · rename_i hrange
      exact absurd (if_pos hrange) (h n)
    · rfl
  · rfl

/-- **Queue sizes are read back exactly.** A size is read if what is stored is a numeral for it, of
any length and with blank characters around it or not, and it is one from one to eight. Everything
else is an invalid property: what denotes no number, what denotes another one, however large, and a
property that was never set. Reading leaves the model as it is, and logs nothing. -/
theorem queueSize_exact (m : Model) (element : String) (s : Stereotype) :
    (∀ size, m.queueSize element s = .ok size
        ↔ (1 ≤ size ∧ size ≤ 8)
          ∧ ∃ stored, m.property? ⟨element, s, queueSizeKey⟩ = some stored ∧ Denotes stored size)
      ∧ (∀ stored, m.property? ⟨element, s, queueSizeKey⟩ = some stored →
          (∀ size, Denotes stored size → size < 1 ∨ 8 < size) →
          m.queueSize element s = .error (.invalidProperty (.queueSize (Text.trim stored))))
      ∧ (m.property? ⟨element, s, queueSizeKey⟩ = none →
          m.queueSize element s = .error (.invalidProperty (.queueSize "")))
      ∧ (readQueueSize element s).run m = ⟨m, [], m.queueSize element s⟩ := by
  refine ⟨fun size => queueSize_eq_ok_iff, ?_, ?_, by rw [queueSize, run_readQueueSize]⟩
  · intro stored hstored houtside
    rw [← propertyText_of_stored hstored]
    refine queueSize_eq_error fun size hsize => ?_
    obtain ⟨hrange, other, hother, hdenotes⟩ := queueSize_eq_ok_iff.1 hsize
    obtain rfl : stored = other := Option.some.inj (hstored.symm.trans hother)
    rcases houtside size hdenotes with hsmall | hlarge
    · omega
    · omega
  · intro hmissing
    rw [← propertyText_of_missing hmissing]
    refine queueSize_eq_error fun size hsize => ?_
    obtain ⟨-, stored, hstored, -⟩ := queueSize_eq_ok_iff.1 hsize
    rw [hmissing] at hstored
    cases hstored

/-- A model in which elements have queue sizes written in different ways, one of them with the
remainder of one. -/
def loosely : Model where
  properties := [
    (⟨"sm-0002", ⟨"LogixUML", "StateMachineAoi"⟩, queueSizeKey⟩, " \t+0000000008\u3000"),
    (⟨"sm-0003", ⟨"LogixUML", "StateMachineAoi"⟩, queueSizeKey⟩, "4294967297")]

/-- The numeral with a sign, zeros and blank ends is read as eight; the one that a word would wrap
to one is refused, and so is the property of an element that has none. -/
theorem queueSize_exact_loosely :
    loosely.queueSize "sm-0002" ⟨"LogixUML", "StateMachineAoi"⟩ = .ok 8
      ∧ loosely.queueSize "sm-0003" ⟨"LogixUML", "StateMachineAoi"⟩
        = .error (.invalidProperty (.queueSize "4294967297"))
      ∧ loosely.queueSize "sm-0004" ⟨"LogixUML", "StateMachineAoi"⟩
          = .error (.invalidProperty (.queueSize "")) := by
  have eight : Denotes " \t+0000000008\u3000" 8 := by
    refine ⟨"+0000000008".toList, ⟨[' ', '\t'], ['\u3000'], by decide, ?_, ?_⟩, "0000000008".toList,
      .inr rfl, by decide, ?_, by decide⟩
    · exact List.all_eq_true.1 (by decide)
    · exact List.all_eq_true.1 (by decide)
    · exact List.all_eq_true.1 (by decide)
  have large : Denotes "4294967297" 4294967297 := by
    refine ⟨"4294967297".toList, ⟨[], [], by decide, List.forall_mem_nil _, List.forall_mem_nil _⟩,
      "4294967297".toList, .inl rfl, by decide, ?_, by decide⟩
    exact List.all_eq_true.1 (by decide)
  have trimmed : Text.trim "4294967297" = "4294967297" := by decide
  have beyond : ∀ size, Denotes "4294967297" size → size < 1 ∨ 8 < size := by
    intro size hsize
    obtain rfl := large.unique hsize
    decide
  refine ⟨?_, ?_, ?_⟩
  · exact ((queueSize_exact loosely "sm-0002" _).1 8).2 ⟨by decide, _, by decide, eight⟩
  · rw [← trimmed]
    exact (queueSize_exact loosely "sm-0003" _).2.1 "4294967297" (by decide) beyond
  · exact (queueSize_exact loosely "sm-0004" _).2.2.1 (by decide)

end PlcWorkbench.Session.Model
