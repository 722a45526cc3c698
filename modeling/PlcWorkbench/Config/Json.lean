import PlcWorkbench.Config.Decoder
import PlcWorkbench.Json.Reader

/-!
# Configuration in JSON

A record is an object, or an array of its fields in their order of which the last ones may be left
out.
-/

namespace PlcWorkbench

/-- How JSON values are looked at. -/
def Json.decoder : Decoder Json where
  text? := Json.text?
  natural? := Json.natural?
  record? fields
    | .object members => selectFields? fields members
    | .array items => if items.length ≤ fields.length then some (fields.zip items) else none
    | _ => none

/-- Read a configuration from a JSON text. It is not validated. -/
def Config.ofJson (source : String) : Except Failure Config :=
  match (Json.read? source).bind Json.decoder.config? with
  | some config => .ok config
  | none => .error .json

end PlcWorkbench
