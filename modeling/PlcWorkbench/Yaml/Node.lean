import PlcWorkbench.Dictionary
import PlcWorkbench.Yaml.Token

/-!
# Nodes

The one document of a YAML text as a tree of nodes. Blocks nest by the tokens that open and close
them; only a sequence that is the key or value of a block mapping may stand without. An alias stays
an alias in the tree, so that a node may refer to a node around it, and `Document.resolve` follows
it. Whatever may be missing is the empty scalar.
-/

namespace PlcWorkbench.Yaml

/-- A node of a document. -/
inductive Node where
  | scalar (isPlain : Bool) (text : String)
  | sequence (items : List Node)
  | mapping (members : List (Node × Node))
  | alias (number : Nat)

/-- The node that stands for one that is missing. -/
def Node.empty : Node := .scalar true ""

/-- Where a node stands. -/
inductive Setting where
  /-- Between brackets. -/
  | flow
  /-- At the top, or an item of a block sequence. -/
  | block
  /-- A key or a value of a block mapping, where the items of a sequence need no further
  indentation. -/
  | member
deriving DecidableEq

/-- The tokens that are left, and what was met before them. -/
structure Reading where
  tokens : List Token
  /-- The handles that tags may have besides the empty one. -/
  handles : List String := []
  /-- The number of each anchor name. -/
  numbers : Dictionary Nat := []
  /-- The nodes with an anchor by number, in the order of their starts; empty until a node is
  complete. -/
  anchored : List (Nat × Node) := []

namespace Reading

/-- Go on with other tokens. -/
def goTo (r : Reading) (tokens : List Token) : Reading := { r with tokens }

/-- Number an anchor. Its number is how many names are in use, so two anchors have the same number
only after a name was used again, and then the later one counts. -/
def bind (r : Reading) (name : String) : Reading :=
  let number := r.numbers.length
  { r with
    numbers := Dictionary.set r.numbers name number
    anchored := r.anchored ++ [(number, .empty)] }

/-- Put a complete node in its place among those with an anchor. -/
def complete (r : Reading) (place : Nat) (node : Node) : Reading :=
  { r with anchored := r.anchored.modify place fun (number, _) => (number, node) }

/-- The anchor and the tag's handle before a node, in either order. -/
def properties (r : Reading) : Option String × Option String × Reading :=
  match r.tokens with
  | .anchor name :: .tag handle :: rest => (some name, some handle, r.goTo rest)
  | .tag handle :: .anchor name :: rest => (some name, some handle, r.goTo rest)
  | .anchor name :: rest => (some name, none, r.goTo rest)
  | .tag handle :: rest => (none, some handle, r.goTo rest)
  | _ => (none, none, r)

end Reading

/-- A reader of one part of a document. -/
abbrev Reader (α : Type) := Reading → Option (α × Reading)

namespace Reader

/-- Read a node unless one of these tokens is next, which tells that it is missing. -/
def orMissing (read : Reader Node) (stops : List Token) : Reader Node := fun r =>
  if r.tokens.head?.any stops.contains then some (.empty, r) else read r

/-- Read the value of a mapping's member, which may be missing with or without its token. -/
def value (read : Reader Node) (stops : List Token) : Reader Node := fun r =>
  match r.tokens with
  | .value :: rest => orMissing read stops (r.goTo rest)
  | _ => some (.empty, r)

/-! ## Blocks -/

/-- The items of a block sequence. -/
def blockItems (read : Setting → Reader Node) : (fuel : Nat) → Reader (List Node)
  | 0, _ => none
  | fuel + 1, r =>
    match r.tokens with
    | .blockEntry :: rest => do
      let (item, r) ← orMissing (read .block) [.blockEntry, .blockEnd] (r.goTo rest)
      let (items, r) ← blockItems read fuel r
      return (item :: items, r)
    | .blockEnd :: rest => some ([], r.goTo rest)
    | _ => none

/-- The items of a sequence that is a member of a block mapping and not indented further; any other
token ends it. -/
def memberItems (read : Setting → Reader Node) : (fuel : Nat) → Reader (List Node)
  | 0, _ => none
  | fuel + 1, r =>
    match r.tokens with
    | .blockEntry :: rest => do
      let (item, r) ← orMissing (read .block) [.blockEntry, .key, .value, .blockEnd] (r.goTo rest)
      let (items, r) ← memberItems read fuel r
      return (item :: items, r)
    | _ => some ([], r)

/-- The members of a block mapping. -/
def blockMembers (read : Setting → Reader Node) : (fuel : Nat) → Reader (List (Node × Node))
  | 0, _ => none
  | fuel + 1, r =>
    match r.tokens with
    | .key :: rest => do
      let stops := [.key, .value, .blockEnd]
      let (key, r) ← orMissing (read .member) stops (r.goTo rest)
      let (value, r) ← value (read .member) stops r
      let (members, r) ← blockMembers read fuel r
      return ((key, value) :: members, r)
    | .blockEnd :: rest => some ([], r.goTo rest)
    | _ => none

/-! ## Brackets -/

/-- Read the comma after an item or member; it may be missing before the closing bracket. -/
def separator (close : Token) (r : Reading) : Option Reading :=
  match r.tokens with
  | .flowEntry :: rest => some (r.goTo rest)
  | next :: _ => if next = close then some r else none
  | [] => none

/-- The key of a pair that is an item by itself. When the key is missing, the token that tells so is
used up. -/
def pairKey (read : Reader Node) : Reader Node := fun r =>
  match r.tokens with
  | [] => none
  | next :: rest =>
    if [.value, .flowEntry, .flowSequenceEnd].contains next then some (.empty, r.goTo rest)
    else read r

/-- An item of a sequence in brackets: a node, or a mapping with one member. -/
def flowItem (read : Reader Node) : Reader Node := fun r =>
  match r.tokens with
  | .key :: rest => do
    let (key, r) ← pairKey read (r.goTo rest)
    let (value, r) ← value read [.flowEntry, .flowSequenceEnd] r
    return (.mapping [(key, value)], r)
  | _ => read r

/-- The items of a sequence in brackets. -/
def flowItems (read : Reader Node) : (fuel : Nat) → Reader (List Node)
  | 0, _ => none
  | fuel + 1, r =>
    match r.tokens with
    | .flowSequenceEnd :: rest => some ([], r.goTo rest)
    | _ => do
      let (item, r) ← flowItem read r
      let r ← separator .flowSequenceEnd r
      let (items, r) ← flowItems read fuel r
      return (item :: items, r)

/-- A member of a mapping in brackets: a key with or without a value, or a node alone, which is a
key. -/
def flowMember (read : Reader Node) : Reader (Node × Node) := fun r =>
  let stops := [.flowEntry, .flowMappingEnd]
  match r.tokens with
  | .key :: rest => do
    let (key, r) ← orMissing read (.value :: stops) (r.goTo rest)
    let (value, r) ← value read stops r
    return ((key, value), r)
  | _ => (read r).map fun (key, r) => ((key, .empty), r)

/-- The members of a mapping in brackets. -/
def flowMembers (read : Reader Node) : (fuel : Nat) → Reader (List (Node × Node))
  | 0, _ => none
  | fuel + 1, r =>
    match r.tokens with
    | .flowMappingEnd :: rest => some ([], r.goTo rest)
    | _ => do
      let (member, r) ← flowMember read r
      let r ← separator .flowMappingEnd r
      let (members, r) ← flowMembers read fuel r
      return (member :: members, r)

/-! ## One node -/

/-- A node after its anchor and tag. It may be missing only if it has one of the two. -/
def content (read : Setting → Reader Node) (setting : Setting) (mayBeMissing : Bool) :
    Reader Node := fun r =>
  let fuel := r.tokens.length + 1
  let missing : Option (Node × Reading) := if mayBeMissing then some (.empty, r) else none
  match r.tokens with
  | .scalar isPlain text :: rest => some (.scalar isPlain text, r.goTo rest)
  | .flowSequenceStart :: rest => sequence (flowItems (read .flow) fuel (r.goTo rest))
  | .flowMappingStart :: rest => mapping (flowMembers (read .flow) fuel (r.goTo rest))
  | .blockSequenceStart :: rest =>
    if setting = .flow then missing else sequence (blockItems read fuel (r.goTo rest))
  | .blockMappingStart :: rest =>
    if setting = .flow then missing else mapping (blockMembers read fuel (r.goTo rest))
  | .blockEntry :: _ =>
    if setting = .member then sequence (memberItems read fuel r) else missing
  | _ => missing
where
  /-- The node with these items. -/
  sequence (found : Option (List Node × Reading)) : Option (Node × Reading) :=
    found.map fun (items, r) => (.sequence items, r)
  /-- The node with these members. -/
  mapping (found : Option (List (Node × Node) × Reading)) : Option (Node × Reading) :=
    found.map fun (members, r) => (.mapping members, r)

/-- A node. Fuel bounds how deep nodes are nested; each level takes a token at least. -/
def node : (fuel : Nat) → Setting → Reader Node
  | 0, _, _ => none
  | fuel + 1, setting, r =>
    match r.tokens with
    | .alias name :: rest =>
      (Dictionary.get? r.numbers name).map fun number => (.alias number, r.goTo rest)
    | _ =>
      let (anchor, handle, r) := r.properties
      if handle.all fun h => h.isEmpty || r.handles.contains h then
        match anchor with
        | none => content (node fuel) setting handle.isSome r
        | some name => do
          let place := r.anchored.length
          let (found, r) ← content (node fuel) setting true (r.bind name)
          return (found, r.complete place found)
      else none

end Reader

/-! ## The document -/

/-- Whether a token stands outside all documents. -/
def Token.endsDocument : Token → Bool
  | .versionDirective _ _ => true
  | .tagDirective _ => true
  | .documentStart => true
  | .documentEnd => true
  | _ => false

/-- The document of a text. -/
structure Document where
  /-- The outermost node; none if the text has no document. -/
  root : Option Node
  /-- The nodes with an anchor by number, the later of two with one number last. -/
  anchored : List (Nat × Node)

namespace Document

/-- The node itself, or the one that an alias stands for. -/
def resolve (d : Document) : Node → Node
  | .alias number => (d.anchored.reverse.lookup number).getD .empty
  | node => node

/-- The handles that are declared before a document, and the tokens after the declarations. Each
handle may be declared once, and a version once. -/
def directives? (hasVersion : Bool) (declared : List String) :
    List Token → Option (List String × List Token)
  | .versionDirective major minor :: rest =>
    if hasVersion ∨ major ≠ 1 ∨ (minor ≠ 1 ∧ minor ≠ 2) then none
    else directives? true declared rest
  | .tagDirective handle :: rest =>
    if declared.contains handle then none else directives? hasVersion (handle :: declared) rest
  | rest => some (declared, rest)

/-- The document with this outermost node. Only end marks may follow it. -/
def ofRoot? (root : Node) (r : Reading) : Option Document :=
  if r.tokens.all (· = .documentEnd) then some ⟨some root, r.anchored⟩ else none

/-- Read the outermost node and nothing more. -/
def ofReading? (r : Reading) : Option Document :=
  (Reader.node (r.tokens.length + 1) .block r).bind fun (root, r) => ofRoot? root r

/-- The document that tokens make. Directives have to be followed by a start mark. -/
def ofTokens? (tokens : List Token) : Option Document := do
  let (declared, rest) ← directives? false [] tokens
  let handles := "!" :: "!!" :: declared
  match rest with
  | .documentStart :: rest =>
    if rest.head?.all Token.endsDocument then ofRoot? .empty { tokens := rest }
    else ofReading? { tokens := rest, handles }
  | [] => if tokens.isEmpty then some ⟨none, []⟩ else none
  | rest => if rest.length < tokens.length then none else ofReading? { tokens := rest, handles }

/-- The document of a YAML text; a text with several has none. -/
def ofText? (source : String) : Option Document :=
  (Token.ofText? source).bind ofTokens?

end Document

end PlcWorkbench.Yaml
