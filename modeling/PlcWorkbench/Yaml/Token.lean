import PlcWorkbench.Yaml.Scalar

/-!
# Tokens

The tokens of a YAML text. Indentation becomes tokens of its own that open and close blocks, and a
key that is only recognized by the colon after it gets its token put in front of it afterwards:
`Scanner.key?` remembers where a key could have started. Inside brackets indentation does not count.
-/

namespace PlcWorkbench.Yaml

/-- A token. -/
inductive Token where
  | versionDirective (major minor : Nat)
  | tagDirective (handle : String)
  | documentStart
  | documentEnd
  | blockSequenceStart
  | blockMappingStart
  | blockEnd
  | blockEntry
  | flowSequenceStart
  | flowSequenceEnd
  | flowMappingStart
  | flowMappingEnd
  | flowEntry
  | key
  | value
  | anchor (name : String)
  | alias (name : String)
  /-- A tag, of which the handle is what has to be known. -/
  | tag (handle : String)
  | scalar (isPlain : Bool) (text : String)
deriving DecidableEq, Repr

/-- A place where a key may have started: the number of tokens before it, and whether it has to be
one. -/
structure KeyStart where
  position : Nat
  isRequired : Bool
  index : Nat
  line : Nat
  column : Nat

/-- A text that is partly divided into tokens. -/
structure Scanner where
  cursor : Cursor
  /-- The tokens so far, the last one first. -/
  tokens : List Token := []
  /-- The columns of the open blocks plus one, the innermost first. -/
  blocks : List Nat := []
  /-- Whether a key may start here without a question mark. -/
  keyAllowed : Bool := true
  /-- Where a key may have started outside all brackets. -/
  outerKey? : Option KeyStart := none
  /-- The same for each open bracket, the innermost first. -/
  flowKeys : List (Option KeyStart) := []

namespace Scanner

/-- Whether a bracket is open. -/
def inFlow (s : Scanner) : Bool := !s.flowKeys.isEmpty

/-- The column of the innermost block plus one; zero outside all blocks. -/
def indent (s : Scanner) : Nat := s.blocks.headD 0

/-- Where a key may have started at the present level. -/
def key? (s : Scanner) : Option KeyStart :=
  match s.flowKeys with
  | [] => s.outerKey?
  | key :: _ => key

/-- Remember or forget where a key may have started. -/
def setKey (s : Scanner) (key : Option KeyStart) : Scanner :=
  match s.flowKeys with
  | [] => { s with outerKey? := key }
  | _ :: outer => { s with flowKeys := key :: outer }

/-- Add a token at the end. -/
def emit (s : Scanner) (t : Token) : Scanner := { s with tokens := t :: s.tokens }

/-- Put a token in front of those from the given position on. -/
def insert (s : Scanner) (position : Nat) (t : Token) : Scanner :=
  let count := s.tokens.length - position
  { s with tokens := s.tokens.take count ++ t :: s.tokens.drop count }

/-- Forget where a key may have started; one that has to be a key cannot be forgotten. -/
def dropKey? (s : Scanner) : Option Scanner :=
  match s.key? with
  | some key => if key.isRequired then none else some (s.setKey none)
  | none => some s

/-- Note that a key may start here. -/
def saveKey? (s : Scanner) : Option Scanner :=
  if s.keyAllowed then
    s.dropKey?.map fun s =>
      let c := s.cursor
      s.setKey (some {
        position := s.tokens.length
        isRequired := !s.inFlow && s.indent == c.column + 1
        index := c.index
        line := c.line
        column := c.column })
  else some s

/-- The longest key without a question mark, in characters. -/
def maxKeyLength : Nat := 1024

/-- Forget a key that would span lines or be too long. -/
def expire? (c : Cursor) (key : Option KeyStart) : Option (Option KeyStart) :=
  match key with
  | some k =>
    if k.line < c.line ∨ k.index + maxKeyLength < c.index then
      if k.isRequired then none else some none
    else some key
  | none => some none

/-- Forget all keys that would span lines or be too long. -/
def expireKeys? (s : Scanner) : Option Scanner := do
  let outerKey? ← expire? s.cursor s.outerKey?
  let flowKeys ← s.flowKeys.mapM (expire? s.cursor)
  return { s with outerKey?, flowKeys }

/-- Close the blocks that are indented further than a column, which is given plus one. -/
def closeBlocks (column : Nat) : List Nat → List Token → List Nat × List Token
  | [], tokens => ([], tokens)
  | b :: blocks, tokens =>
    if column < b then closeBlocks column blocks (.blockEnd :: tokens) else (b :: blocks, tokens)

/-- Close the blocks that are indented further than a column, unless a bracket is open. -/
def unindent (s : Scanner) (column : Nat) : Scanner :=
  if s.inFlow then s
  else
    let (blocks, tokens) := closeBlocks column s.blocks s.tokens
    { s with blocks, tokens }

/-- Open a block at a column if it is indented further than the present one. -/
def openBlock (s : Scanner) (column position : Nat) (t : Token) : Scanner :=
  if s.inFlow ∨ column + 1 ≤ s.indent then s
  else { s.insert position t with blocks := (column + 1) :: s.blocks }

/-- Go to another place. -/
def moveTo (s : Scanner) (cursor : Cursor) : Scanner := { s with cursor }

/-- Go on by so many characters. -/
def advance (s : Scanner) (count : Nat) : Scanner := s.moveTo (s.cursor.advance count)

/-- Allow or forbid that a key starts without a question mark. -/
def allowKey (s : Scanner) (allowed : Bool) : Scanner := { s with keyAllowed := allowed }

/-! ## Between tokens -/

/-- Skip white space, comments and line breaks. Tabs do not count as white space where they could be
taken for indentation. -/
def skipToToken : (fuel : Nat) → Scanner → Scanner
  | 0, s => s
  | fuel + 1, s =>
    let c :=
      if s.cursor.index = 0 ∧ s.cursor.rest.head? = some '\ufeff' then s.cursor.advance 1
      else s.cursor
    let tabs := s.inFlow || !s.keyAllowed
    let c := c.skipWhile fun x => x == ' ' || (tabs && x == '\t')
    let c := if c.rest.head? = some '#' then c.skipLine else c
    match c.takeBreak? with
    | some (_, after) =>
      skipToToken fuel { s with cursor := after, keyAllowed := s.keyAllowed || !s.inFlow }
    | none => s.moveTo c

/-! ## Directives, anchors and tags -/

/-- A number of a version directive. -/
def versionNumber? (c : Cursor) : Option (Nat × Cursor) :=
  let digits := c.rest.takeWhile Char.isDigit
  if digits.isEmpty ∨ 9 < digits.length then none
  else some (digits.foldl (fun n d => n * 10 + (d.toNat - '0'.toNat)) 0, c.advance digits.length)

/-- The handle of a tag: an exclamation mark, and for a named or secondary handle a word and another
mark. -/
def tagHandle? (isDirective : Bool) (c : Cursor) : Option (List Char × Cursor) :=
  match c.rest with
  | '!' :: rest =>
    let word := rest.takeWhile isWordChar
    match rest.drop word.length with
    | '!' :: _ => some ('!' :: (word ++ ['!']), c.advance (word.length + 2))
    | _ =>
      if isDirective ∧ ¬word.isEmpty then none
      else some ('!' :: word, c.advance (word.length + 1))
  | _ => none

/-- The continuation bytes of a character of so many bytes, each written in hexadecimal after a
percent sign. -/
def escapedTail : (count : Nat) → List Char → Option (Nat × List Char)
  | 0, rest => some (0, rest)
  | count + 1, '%' :: a :: b :: rest => do
    let byte ← hexValue? [a, b]
    if byte / 64 = 2 then escapedTail count rest else none
  | _, _ => none

/-- A character of a tag that is written by the hexadecimal values of its bytes; gives what follows
it. -/
def uriEscape? : List Char → Option (List Char)
  | '%' :: a :: b :: rest => do
    let byte ← hexValue? [a, b]
    let count ←
      if byte < 0x80 then some 0
      else if byte / 32 = 6 then some 1
      else if byte / 16 = 14 then some 2
      else if byte / 8 = 30 then some 3
      else none
    (escapedTail count rest).map (·.2)
  | _ => none

/-- Whether a character may stand in a tag; commas and square brackets only in a verbatim one. -/
def isUriChar (isVerbatim : Bool) (c : Char) : Bool :=
  isWordChar c || c ∈ [';', '/', '?', ':', '@', '&', '=', '+', '$', '.', '!', '~', '*', '\x27', '(',
    ')', '%']
    || (isVerbatim && c ∈ [',', '[', ']'])

/-- The number of characters of a tag's address. -/
def uriLength? (isVerbatim : Bool) : (fuel : Nat) → List Char → Option Nat
  | 0, _ => some 0
  | _, [] => some 0
  | fuel + 1, c :: rest =>
    if c = '%' then do
      let after ← uriEscape? (c :: rest)
      let more ← uriLength? isVerbatim fuel after
      return (c :: rest).length - after.length + more
    else if isUriChar isVerbatim c then (uriLength? isVerbatim fuel rest).map (· + 1)
    else some 0

/-- Skip a tag's address, which may be empty only if something precedes it. -/
def skipUri? (isVerbatim mayBeEmpty : Bool) (c : Cursor) : Option Cursor := do
  let count ← uriLength? isVerbatim c.rest.length c.rest
  if count = 0 ∧ ¬mayBeEmpty then none else some (c.advance count)

/-- A directive after its percent sign. -/
def directive? (c : Cursor) : Option (Token × Cursor) := do
  let name := c.rest.takeWhile isWordChar
  let c := c.advance name.length
  if !gapAhead c.rest then none
  let c := c.skipWhile isBlank
  let (token, c) ←
    if name = "YAML".toList then do
      let (major, c) ← versionNumber? c
      if c.rest.head? ≠ some '.' then none
      let (minor, c) ← versionNumber? (c.advance 1)
      some (Token.versionDirective major minor, c)
    else if name = "TAG".toList then do
      let (handle, c) ← tagHandle? true c
      if ¬c.rest.head?.any isBlank then none
      let c ← skipUri? true false (c.skipWhile isBlank)
      if !gapAhead c.rest then none
      some (Token.tagDirective (String.ofList handle), c)
    else none
  let c ← c.finishLine?
  return (token, c)

/-- The name of an anchor or alias after its mark. -/
def anchorName? (c : Cursor) : Option (String × Cursor) :=
  let name := c.rest.takeWhile isWordChar
  let after := c.advance name.length
  let ends := gapAhead after.rest
    || after.rest.head?.any fun x => x ∈ ['?', ':', ',', ']', '\x7d', '%', '@', '\x60']
  if name.isEmpty ∨ ¬ends then none else some (String.ofList name, after)

/-- A tag: its handle, which is empty for verbatim tags and for the mark alone. -/
def tag? (inFlow : Bool) (c : Cursor) : Option (Token × Cursor) := do
  let (handle, c) ←
    match c.rest with
    | '!' :: '<' :: _ => do
      let c ← skipUri? true false (c.advance 2)
      if c.rest.head? = some '>' then some ([], c.advance 1) else none
    | _ => do
      let (handle, c) ← tagHandle? false c
      if 1 < handle.length ∧ handle.getLast? = some '!' then do
        let c ← skipUri? false false c
        some (handle, c)
      else do
        let after ← skipUri? false true c
        let suffix := handle.length - 1 + (after.index - c.index)
        some (if suffix = 0 then [] else ['!'], after)
  if gapAhead c.rest ∨ (inFlow ∧ c.rest.head? = some ',') then
    some (.tag (String.ofList handle), c)
  else none

/-! ## The next token -/

/-- A directive or document mark ends all blocks and cannot be part of a key. -/
def leaveBlocks? (s : Scanner) : Option Scanner :=
  (s.unindent 0).dropKey?.map (·.allowKey false)

/-- An opening bracket. -/
def openBracket? (s : Scanner) (t : Token) : Option Scanner :=
  s.saveKey?.map fun s =>
    (({ s with flowKeys := none :: s.flowKeys }.allowKey true).advance 1).emit t

/-- A closing bracket. -/
def closeBracket? (s : Scanner) (t : Token) : Option Scanner :=
  s.dropKey?.map fun s =>
    (({ s with flowKeys := s.flowKeys.tail }.allowKey false).advance 1).emit t

/-- A dash, question mark or colon that opens a block unless a bracket is open. -/
def openAtIndicator? (s : Scanner) (t : Token) : Option Scanner :=
  if s.inFlow then some s
  else if s.keyAllowed then some (s.openBlock s.cursor.column s.tokens.length t)
  else none

/-- A dash that starts an entry. -/
def blockEntry? (s : Scanner) : Option Scanner := do
  let s ← s.openAtIndicator? .blockSequenceStart
  let s ← s.dropKey?
  return ((s.allowKey true).advance 1).emit .blockEntry

/-- A question mark that starts a key. -/
def explicitKey? (s : Scanner) : Option Scanner := do
  let s ← s.openAtIndicator? .blockMappingStart
  let s ← s.dropKey?
  return ((s.allowKey !s.inFlow).advance 1).emit .key

/-- A colon that starts a value, and perhaps makes a key of what stands before it. -/
def value? (s : Scanner) : Option Scanner :=
  match s.key? with
  | some key =>
    let s := (s.insert key.position .key).openBlock key.column key.position .blockMappingStart
    some ((((s.setKey none).allowKey false).advance 1).emit .value)
  | none => do
    let s ← s.openAtIndicator? .blockMappingStart
    return ((s.allowKey !s.inFlow).advance 1).emit .value

/-- An anchor or an alias. -/
def mark? (s : Scanner) (token : String → Token) : Option Scanner := do
  let s ← s.saveKey?
  let (name, c) ← anchorName? (s.cursor.advance 1)
  return ((s.allowKey false).moveTo c).emit (token name)

/-- A tag. -/
def tagged? (s : Scanner) : Option Scanner := do
  let s ← s.saveKey?
  let (t, c) ← tag? s.inFlow s.cursor
  return ((s.allowKey false).moveTo c).emit t

/-- A scalar in quotes. -/
def quoted? (s : Scanner) (quote : Char) : Option Scanner := do
  let s ← s.saveKey?
  let (text, c) ← quotedScalar? quote (s.cursor.rest.length + 1) [] (s.cursor.advance 1)
  return ((s.allowKey false).moveTo c).emit (.scalar false (String.ofList text))

/-- A plain scalar. -/
def plain? (s : Scanner) : Option Scanner := do
  let s ← s.saveKey?
  let (text, c, endsLine) ← plainScalar? s.inFlow s.indent (s.cursor.rest.length + 1) [] {} s.cursor
  return ((s.allowKey endsLine).moveTo c).emit (.scalar true (String.ofList text))

/-- A block scalar. -/
def block? (s : Scanner) (folded : Bool) : Option Scanner := do
  let s ← s.dropKey?
  let (text, c) ← blockScalar? folded s.indent (s.cursor.advance 1)
  return ((s.allowKey true).moveTo c).emit (.scalar false (String.ofList text))

/-- Whether a plain scalar may start with these characters. -/
def startsPlain (inFlow : Bool) (c : Char) (rest : List Char) : Bool :=
  if c = '-' then !rest.head?.any isBlank
  else if c = '?' ∨ c = ':' then !inFlow && !gapAhead rest
  else !(isGap c || c ∈ [',', '[', ']', '\x7b', '\x7d', '#', '&', '*', '!', '|', '>', '\x27',
      '\x22', '%',
    '@', '\x60'])

/-- Read one token or, where a key is recognized, several. The scanner stands at a character of a
token. -/
def next? (s : Scanner) (c : Char) (rest : List Char) : Option Scanner :=
  if s.cursor.column = 0 ∧ c = '%' then do
    let s ← s.leaveBlocks?
    let (t, cursor) ← directive? (s.cursor.advance 1)
    return (s.moveTo cursor).emit t
  else if s.cursor.atIndicator '-' then
    s.leaveBlocks?.map fun s => (s.advance 3).emit .documentStart
  else if s.cursor.atIndicator '.' then
    s.leaveBlocks?.map fun s => (s.advance 3).emit .documentEnd
  else if c = '[' then s.openBracket? .flowSequenceStart
  else if c = '\x7b' then s.openBracket? .flowMappingStart
  else if c = ']' then s.closeBracket? .flowSequenceEnd
  else if c = '\x7d' then s.closeBracket? .flowMappingEnd
  else if c = ',' then s.dropKey?.map fun s => ((s.allowKey true).advance 1).emit .flowEntry
  else if c = '-' ∧ gapAhead rest then s.blockEntry?
  else if c = '?' ∧ (s.inFlow ∨ gapAhead rest) then s.explicitKey?
  else if c = ':' ∧ (s.inFlow ∨ gapAhead rest) then s.value?
  else if c = '*' then s.mark? .alias
  else if c = '&' then s.mark? .anchor
  else if c = '!' then s.tagged?
  else if c = '|' ∧ ¬s.inFlow then s.block? false
  else if c = '>' ∧ ¬s.inFlow then s.block? true
  else if c = '\x27' ∨ c = '\x22' then s.quoted? c
  else if startsPlain s.inFlow c rest then s.plain?
  else none

/-- Read the remaining tokens. Each round but the last takes a character. -/
def finish? : (fuel : Nat) → Scanner → Option Scanner
  | 0, _ => none
  | fuel + 1, s => do
    let s := skipToToken (s.cursor.rest.length + 1) s
    let s ← s.expireKeys?
    let s := s.unindent (s.cursor.column + 1)
    match s.cursor.rest with
    | [] => (s.unindent 0).dropKey?
    | c :: rest =>
      let s ← s.next? c rest
      finish? fuel s

end Scanner

/-- The tokens of a YAML text; none if it has a character or an arrangement that YAML does not
allow. A byte order mark at the front is passed over. -/
def Token.ofText? (source : String) : Option (List Token) :=
  let characters :=
    match source.toList with
    | '\ufeff' :: rest => rest
    | characters => characters
  if characters.all isPrintable then
    (Scanner.finish? (characters.length + 1) { cursor := { rest := characters } }).map
      (·.tokens.reverse)
  else none

end PlcWorkbench.Yaml
