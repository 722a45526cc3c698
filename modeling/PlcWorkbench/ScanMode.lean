import PlcWorkbench.Failure
import PlcWorkbench.Text.Blank
import PlcWorkbench.Text.Segment

/-!
# Scan modes

How a state machine evaluates its transitions in each scan, and how its name carries that: the last
segment of a name is its classification if it is one of the recognized tokens. Names without a
recognized segment fall back to the default. Property values are read more leniently, trimmed and in
any letter case.
-/

namespace PlcWorkbench

/-- Classify a name by its last segment: the segment if it is recognized, the fallback otherwise. -/
def classify (name : String) (separator : Char) (recognized : List String) (fallback : String) :
    String :=
  let suffix := String.ofList (Text.lastSegment separator name.toList)
  (recognized.find? (· == suffix)).getD fallback

/-- How a state machine evaluates its transitions in each scan. -/
inductive ScanMode where
  /-- At most one transition. -/
  | single
  /-- Up to two transitions. -/
  | dual
  /-- Transitions are taken until the machine settles. -/
  | sequential
deriving DecidableEq, Repr, Inhabited

namespace ScanMode

/-- Every mode, in the order in which variants are generated. -/
def all : List ScanMode := [.single, .dual, .sequential]

/-- The mode of a machine whose name says nothing. -/
def fallback : ScanMode := .single

/-- The name suffix and property value of a mode. -/
def token : ScanMode → String
  | .single => "single"
  | .dual => "dual"
  | .sequential => "sequential"

/-- The mode with exactly this token. -/
def ofToken? (token : String) : Option ScanMode :=
  all.find? (·.token == token)

/-- The separator of names that follow no other convention. -/
def defaultSeparator : Char := '_'

/-- The mode that the last segment of a name gives. -/
def ofNameWith (name : String) (separator : Char) : ScanMode :=
  (ofToken? (classify name separator (all.map token) fallback.token)).getD fallback

/-- The mode that the part of a name after its last underscore gives. -/
def ofName (name : String) : ScanMode :=
  ofNameWith name defaultSeparator

/-- Read a property value: blank ends and the case of ASCII letters do not matter. -/
def parse (value : String) : Except Failure ScanMode :=
  let trimmed := Text.trim value
  match ofToken? (String.ofList (trimmed.toList.map Char.toLower)) with
  | some mode => .ok mode
  | none => .error (.invalidProperty (.scanMode trimmed))

end ScanMode

end PlcWorkbench
