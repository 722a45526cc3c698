import PlcWorkbench.ScanMode
import PlcWorkbench.Session.Model
import PlcWorkbench.Task
import PlcWorkbench.Text.Numeral

/-!
# Properties of state machines

Reading the two properties of an annotated state machine back from a model: the event queue size and
the scan mode. A property that was never set reads as the empty text, and blank ends do not count.
Reading is an operation on a model, like the ones that annotate it; `queueSize` and `scanMode` are
what it answers.
-/

namespace PlcWorkbench.Session

/-- The property that holds the event queue size. -/
def queueSizeKey : String := "eventQueueSize"

/-- The property that holds the scan mode. -/
def scanModeKey : String := "transitionScanMode"

namespace Model

/-- The value of a property without blank ends. -/
def propertyText (m : Model) (element : String) (s : Stereotype) (key : String) : String :=
  Text.trim ((m.property? ⟨element, s, key⟩).getD "")

/-- Read a property without its blank ends. -/
def readText (element : String) (s : Stereotype) (key : String) : Task Model String := do
  let m ← Task.get
  return m.propertyText element s key

/-- Read the event queue size of an element: a numeral in range. -/
def readQueueSize (element : String) (s : Stereotype) : Task Model Nat := do
  let value ← readText element s queueSizeKey
  match Text.Numeral.readSigned value.toList with
  | .ok size =>
    if minQueueSize ≤ size ∧ size ≤ maxQueueSize then return size
    else Task.fail (.invalidProperty (.queueSize value))
  | .error _ => Task.fail (.invalidProperty (.queueSize value))

/-- Read the scan mode of an element. -/
def readScanMode (element : String) (s : Stereotype) : Task Model ScanMode := do
  let value ← readText element s scanModeKey
  Task.ofExcept (ScanMode.parse value)

/-- The event queue size of an element, as it is read. -/
def queueSize (m : Model) (element : String) (s : Stereotype) : Except Failure Nat :=
  ((readQueueSize element s).run m).result

/-- The scan mode of an element, as it is read. -/
def scanMode (m : Model) (element : String) (s : Stereotype) : Except Failure ScanMode :=
  ((readScanMode element s).run m).result

variable (m : Model) (element : String) (s : Stereotype)

/-- Reading a text answers with it and does nothing else. -/
theorem run_readText (key : String) :
    (readText element s key).run m = ⟨m, [], .ok (m.propertyText element s key)⟩ := rfl

/-- Reading a queue size answers with what the text denotes, if that is in range; it changes nothing
and logs nothing, whether it is refused or not. -/
theorem run_readQueueSize :
    (readQueueSize element s).run m = ⟨m, [],
      match Text.Numeral.readSigned (m.propertyText element s queueSizeKey).toList with
      | .ok size =>
        if minQueueSize ≤ size ∧ size ≤ maxQueueSize then .ok size
        else .error (.invalidProperty (.queueSize (m.propertyText element s queueSizeKey)))
      | .error _ =>
        .error (.invalidProperty (.queueSize (m.propertyText element s queueSizeKey)))⟩ := by
  rw [readQueueSize, Task.run_bind, run_readText]
  dsimp only
  split
  · split <;> rfl
  · rfl

/-- Reading a scan mode answers with what the text is parsed as, and changes nothing either. -/
theorem run_readScanMode :
    (readScanMode element s).run m = ⟨m, [],
      ScanMode.parse (m.propertyText element s scanModeKey)⟩ := by
  rw [readScanMode, Task.run_bind, run_readText]
  dsimp only [Task.ofExcept, List.nil_append]

end Model

end PlcWorkbench.Session
