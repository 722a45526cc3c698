import PlcWorkbench.Config.Basic
import PlcWorkbench.Dictionary
import PlcWorkbench.Text.Numeral

/-!
# Decoding a configuration

A configuration is read off the nodes of a data format. A `Decoder` says what a node of the format
is as a text, as a number, and as a record of named fields; the rest is the same for every format:
absent fields take their defaults, and a field that is there has to be of its type.
-/

namespace PlcWorkbench

/-- How the nodes of a data format are looked at. -/
structure Decoder (ν : Type) where
  /-- The node as a text. -/
  text? : ν → Option String
  /-- The node as a natural number. -/
  natural? : ν → Option Nat
  /-- The node as a record with some of these fields; a field that is given twice is refused. -/
  record? : (fields : List String) → ν → Option (Dictionary ν)

namespace Decoder

variable {ν : Type} (d : Decoder ν)

/-- The node as a single character. -/
def character? (node : ν) : Option Char :=
  match (d.text? node).map String.toList with
  | some [c] => some c
  | _ => none

/-- The node as a number of a 32-bit word. -/
def word? (node : ν) : Option Nat :=
  (d.natural? node).filter (· < Text.Numeral.wordLimit)

/-- A field of a record, or the fallback if the record has no such field. -/
def field? {α : Type} (record : Dictionary ν) (key : String) (read : ν → Option α) (fallback : α) :
    Option α :=
  match Dictionary.get? record key with
  | some node => read node
  | none => some fallback

/-- The node as the settings for merging. -/
def mergeConfig? (node : ν) : Option MergeConfig := do
  let fallback : MergeConfig := {}
  let record ← d.record? ["inputProject", "outputProject", "extension"] node
  let inputProject ← field? record "inputProject" d.text? fallback.inputProject
  let outputProject ← field? record "outputProject" d.text? fallback.outputProject
  let extension ← field? record "extension" d.text? fallback.extension
  return { inputProject, outputProject, extension }

/-- The node as the settings for patterns. -/
def patternConfig? (node : ν) : Option PatternConfig := do
  let fallback : PatternConfig := {}
  let record ← d.record? ["extension", "multiplicityMarker", "primitivePackage", "moduleName",
    "stereotypeName", "eventQueueSize"] node
  let extension ← field? record "extension" d.text? fallback.extension
  let multiplicityMarker ← field? record "multiplicityMarker" d.character?
      fallback.multiplicityMarker
  let primitivePackage ← field? record "primitivePackage" d.text? fallback.primitivePackage
  let moduleName ← field? record "moduleName" d.text? fallback.moduleName
  let stereotypeName ← field? record "stereotypeName" d.text? fallback.stereotypeName
  let eventQueueSize ← field? record "eventQueueSize" d.word? fallback.eventQueueSize
  return {
    extension, multiplicityMarker, primitivePackage, moduleName, stereotypeName, eventQueueSize }

/-- The node as a configuration. -/
def config? (node : ν) : Option Config := do
  let record ← d.record? ["aoi", "patterns"] node
  let aoi ← field? record "aoi" d.mergeConfig? {}
  let patterns ← field? record "patterns" d.patternConfig? {}
  return { aoi, patterns }

end Decoder

/-- The fields of a record among named members. Members with other names are passed over; a field
that is given twice is refused. -/
def selectFields? {ν : Type} (fields : List String) (members : List (String × ν)) :
    Option (Dictionary ν) :=
  let known := members.filter fun (key, _) => fields.contains key
  if (known.map (·.1)).Nodup then some known else none

end PlcWorkbench
