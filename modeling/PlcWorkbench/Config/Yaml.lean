import PlcWorkbench.Config.Decoder
import PlcWorkbench.Yaml.Node

/-!
# Configuration in YAML

A record is a mapping whose keys are scalars; where it is left empty, it has no fields. Every scalar
is a text as it stands, however it is written. A number is a plain scalar: decimal without leading
zeros, or in one of the radices two, eight and sixteen after `0b`, `0o` and `0x`.
-/

namespace PlcWorkbench.Yaml

/-- The value of a run of digits, of which there is at least one. -/
def digits? (radix : Nat) (digits : List Char) : Option Nat :=
  if digits.isEmpty then none
  else digits.foldlM (fun value c => (Text.Numeral.digitValue? radix c).map (value * radix + ·)) 0

/-- A natural number as a plain scalar may write it. -/
def numeral? (text : List Char) : Option Nat :=
  let unsigned := if text.head? = some '+' then text.drop 1 else text
  match unsigned with
  | '0' :: 'x' :: digits => digits? 16 digits
  | '0' :: 'o' :: digits => digits? 8 digits
  | '0' :: 'b' :: digits => digits? 2 digits
  | ['0'] => some 0
  | '0' :: _ => none
  | digits => digits? 10 digits

namespace Document

variable (d : Document)

/-- A scalar's text. -/
def text? (node : Node) : Option String :=
  match d.resolve node with
  | .scalar _ text => some text
  | _ => none

/-- A natural number. -/
def natural? (node : Node) : Option Nat :=
  match d.resolve node with
  | .scalar true text => numeral? text.toList
  | _ => none

/-- A record with some of these fields. -/
def record? (fields : List String) (node : Node) : Option (Dictionary Node) :=
  match d.resolve node with
  | .mapping members => do
    let keys ← members.mapM fun (key, _) => d.text? key
    selectFields? fields (keys.zip (members.map (·.2)))
  | .scalar _ text => if text.isEmpty then some [] else none
  | _ => none

/-- How the nodes of a document are looked at. -/
def decoder : Decoder Node where
  text? := d.text?
  natural? := d.natural?
  record? := d.record?

end Document

end PlcWorkbench.Yaml

namespace PlcWorkbench

/-- Read a configuration from a YAML text. It is not validated. A text without a document has all
defaults. -/
def Config.ofYaml (source : String) : Except Failure Config :=
  match (Yaml.Document.ofText? source).bind fun d => d.decoder.config? (d.root.getD .empty) with
  | some config => .ok config
  | none => .error .yaml

end PlcWorkbench
