import PlcWorkbench.Failure

/-!
# The model of a session

What a modeling session holds in memory: packages, the state machines that they own, the stereotypes
applied to elements, and the stereotype properties with the log of their writes. One counter numbers
packages and machines.
-/

namespace PlcWorkbench.Session

/-- A package as others refer to it. -/
structure Package where
  id : String
  name : String
deriving DecidableEq, Repr

/-- A state machine and the package that owns it. -/
structure Machine where
  id : String
  name : String
  owner : String
deriving DecidableEq, Repr

/-- A stereotype of a module; properties are kept for each apart. -/
structure Stereotype where
  moduleName : String
  name : String
deriving DecidableEq, Repr

/-- Which property of which element. -/
structure PropertyKey where
  element : String
  stereotype : Stereotype
  key : String
deriving DecidableEq, Repr

/-- The content of a model. -/
structure Model where
  /-- The number that was given out last. -/
  lastNumber : Nat := 0
  packages : List Package := []
  machines : List Machine := []
  /-- The stereotypes applied, each with its element and no pair twice. -/
  stereotypes : List (String × Stereotype) := []
  /-- The property values, no key twice. -/
  properties : List (PropertyKey × String) := []
  /-- Every write of a property, in order. -/
  writes : List PropertyKey := []
deriving DecidableEq, Repr

namespace Model

/-- A number in decimal, with zeros in front up to four digits. -/
def padded (n : Nat) : String :=
  let digits := toString n
  String.ofList (List.replicate (4 - digits.length) '0') ++ digits

/-- The id that an element with this number has. -/
def idOf (sort : String) (n : Nat) : String :=
  sort ++ "-" ++ padded n

/-- Add a package. -/
def addPackage (m : Model) (name : String) : Model × Package :=
  let number := m.lastNumber + 1
  let package : Package := ⟨idOf "pkg" number, name⟩
  ({ m with lastNumber := number, packages := m.packages ++ [package] }, package)

/-- Add a state machine to a package that the model has; give its id. -/
def addMachine (m : Model) (package name : String) : Model × Except Failure String :=
  if m.packages.any (·.id == package) then
    let number := m.lastNumber + 1
    let id := idOf "sm" number
    ({ m with lastNumber := number, machines := m.machines ++ [⟨id, name, package⟩] }, .ok id)
  else (m, .error (.session (.unknownPackage package)))

/-- The names of the machines that a package owns, in the order of their creation. -/
def machineNamesIn (m : Model) (package : String) : List String :=
  (m.machines.filter (·.owner == package)).map (·.name)

/-- Apply a stereotype to an element; applying it again changes nothing. -/
def addStereotype (m : Model) (element : String) (s : Stereotype) : Model :=
  if m.stereotypes.contains (element, s) then m
  else { m with stereotypes := m.stereotypes ++ [(element, s)] }

/-- The order of stereotypes by module and name. -/
def stereotypeLe (a b : Stereotype) : Bool :=
  if a.moduleName = b.moduleName then a.name ≤ b.name else a.moduleName ≤ b.moduleName

/-- The stereotypes of an element, in ascending order. -/
def stereotypesOf (m : Model) (element : String) : List Stereotype :=
  ((m.stereotypes.filter (·.1 == element)).map (·.2)).mergeSort stereotypeLe

/-- Set a property of a stereotype that the element has, replacing any earlier value. -/
def setProperty (m : Model) (key : PropertyKey) (value : String) : Model × Except Failure Unit :=
  if m.stereotypes.contains (key.element, key.stereotype) then
    ({ m with
        properties := (key, value) :: m.properties.filter (·.1 != key)
        writes := m.writes ++ [key] }, .ok ())
  else
    (m, .error (.session
      (.stereotypeMissing key.element key.stereotype.moduleName key.stereotype.name)))

/-- The value of a property, if it was ever set. -/
def property? (m : Model) (key : PropertyKey) : Option String :=
  m.properties.lookup key

/-- How often a property of an element was written, whatever the stereotype. -/
def writeCount (m : Model) (element key : String) : Nat :=
  (m.writes.filter fun w => w.element == element && w.key == key).length

end Model

end PlcWorkbench.Session
