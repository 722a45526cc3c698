import PlcWorkbench.Json.Basic
import PlcWorkbench.Yaml.Cursor

/-!
# Scalars

The three ways in which a YAML text writes a scalar: plain, in quotes, and as a block. Plain and
quoted scalars fold a line break into a space and keep further breaks; a literal block keeps all
breaks, a folded one folds those between lines that are not indented further. Each reader starts
after the characters that tell which scalar it is and gives the text with the place after it. Fuel
bounds the number of lines or characters and is at least the length of the text.
-/

namespace PlcWorkbench.Yaml

/-! ## Gaps inside a scalar -/

/-- What stands between two runs of a scalar: blanks on one line, or the first line break and the
ones after it. -/
structure Gap where
  blanks : List Char := []
  first : Option (List Char) := none
  more : List Char := []

namespace Gap

/-- What a gap contributes to the scalar. -/
def text (g : Gap) : List Char :=
  match g.first with
  | none => g.blanks
  | some ['\n'] => if g.more.isEmpty then [' '] else g.more
  | some first => first ++ g.more

/-- Read a gap. After a line break, a tab before the column `limit` is refused. -/
def take? (limit : Nat) : (fuel : Nat) → Gap → Cursor → Option (Gap × Cursor)
  | 0, g, c => some (g, c)
  | fuel + 1, g, c =>
    match c.takeBreak? with
    | some (lineBreak, after) =>
      match g.first with
      | none => take? limit fuel { g with blanks := [], first := some lineBreak } after
      | some _ => take? limit fuel { g with more := g.more ++ lineBreak } after
    | none =>
      match c.rest with
      | b :: _ =>
        if isBlank b then
          match g.first with
          | none => take? limit fuel { g with blanks := g.blanks ++ [b] } (c.advance 1)
          | some _ =>
            if c.column < limit ∧ b = '\t' then none else take? limit fuel g (c.advance 1)
        else some (g, c)
      | [] => some (g, c)

end Gap

/-! ## Plain scalars -/

/-- The characters that end a plain scalar inside brackets. -/
def isFlowIndicator (c : Char) : Bool :=
  c = ',' || c = '[' || c = ']' || c = '\x7b' || c = '\x7d'

/-- A run of a plain scalar without gaps. Inside brackets a colon right before an indicator is
refused. -/
def plainRun? (inFlow : Bool) : List Char → Option (List Char)
  | [] => some []
  | c :: rest =>
    if isGap c then some []
    else if inFlow && c == ':' && rest.head?.any (fun next => isFlowIndicator next || next == '?')
        then none
    else if (c == ':' && gapAhead rest) || (inFlow && isFlowIndicator c) then some []
    else (plainRun? inFlow rest).map (c :: ·)

/-- Go on with a plain scalar whose lines are indented to `indent` at least; `gap` is not yet part
of it. Tells whether a line break ended it. -/
def plainScalar? (inFlow : Bool) (indent : Nat) :
    (fuel : Nat) → (text : List Char) → Gap → Cursor → Option (List Char × Cursor × Bool)
  | 0, text, gap, c => some (text, c, gap.first.isSome)
  | fuel + 1, text, gap, c =>
    if c.atDocumentIndicator || c.rest.head? == some '#' then some (text, c, gap.first.isSome)
    else
      match plainRun? inFlow c.rest with
      | none => none
      | some run =>
        let after := c.advance run.length
        let text := if run.isEmpty then text else text ++ gap.text ++ run
        let gap := if run.isEmpty then gap else {}
        match after.rest with
        | next :: _ =>
          if isGap next then
            match Gap.take? indent after.rest.length gap after with
            | none => none
            | some (gap, after) =>
              if !inFlow && after.column < indent then some (text, after, gap.first.isSome)
              else plainScalar? inFlow indent fuel text gap after
          else some (text, after, gap.first.isSome)
        | [] => some (text, after, gap.first.isSome)

/-! ## Quoted scalars -/

/-- The value of hexadecimal digits. -/
def hexValue? (digits : List Char) : Option Nat :=
  digits.foldlM (fun value c => (Json.hexValue? c).map (value * 16 + ·)) 0

/-- The character that `count` hexadecimal digits give, and how many characters were read with the
letter. -/
def hexEscape? (count : Nat) (source : List Char) : Option (Char × Nat) :=
  let digits := source.take count
  if digits.length < count then none
  else (hexValue? digits).bind fun code =>
    if code.isValidChar then some (Char.ofNat code, count + 1) else none

/-- The character that an escape stands for, after its backslash, and how many characters were
read. -/
def escape? : List Char → Option (Char × Nat)
  | [] => none
  | c :: rest =>
    match c with
    | '0' => some ('\x00', 1)
    | 'a' => some ('\x07', 1)
    | 'b' => some ('\x08', 1)
    | 't' => some ('\t', 1)
    | '\t' => some ('\t', 1)
    | 'n' => some ('\n', 1)
    | 'v' => some ('\x0b', 1)
    | 'f' => some ('\x0c', 1)
    | 'r' => some ('\r', 1)
    | 'e' => some ('\x1b', 1)
    | ' ' => some (' ', 1)
    | '\x22' => some ('\x22', 1)
    | '/' => some ('/', 1)
    | '\\' => some ('\\', 1)
    | 'N' => some ('\u0085', 1)
    | '_' => some ('\u00a0', 1)
    | 'L' => some ('\u2028', 1)
    | 'P' => some ('\u2029', 1)
    | 'x' => hexEscape? 2 rest
    | 'u' => hexEscape? 4 rest
    | 'U' => hexEscape? 8 rest
    | _ => none

/-- A run of a scalar in single quotes up to a gap or a quote; two quotes stand for one. -/
def singleRun : List Char → List Char × Nat
  | '\x27' :: '\x27' :: rest =>
    let (run, count) := singleRun rest
    ('\x27' :: run, count + 2)
  | c :: rest =>
    if isGap c || c == '\x27' then ([], 0)
    else
      let (run, count) := singleRun rest
      (c :: run, count + 1)
  | [] => ([], 0)

/-- A run of a scalar in double quotes up to a gap, a quote or an escaped line break, with how many
characters it takes. -/
def doubleRun? : (fuel : Nat) → List Char → Option (List Char × Nat)
  | 0, _ => some ([], 0)
  | _, [] => some ([], 0)
  | fuel + 1, c :: rest =>
    if isGap c || c == '\x22' then some ([], 0)
    else if c == '\\' then
      if rest.head?.any isBreak then some ([], 0)
      else
        match escape? rest with
        | none => none
        | some (resolved, count) =>
          (doubleRun? fuel (rest.drop count)).map fun (run, more) =>
            (resolved :: run, 1 + count + more)
    else (doubleRun? fuel rest).map fun (run, more) => (c :: run, 1 + more)

/-- Go on with a quoted scalar up to its closing quote. -/
def quotedScalar? (quote : Char) :
    (fuel : Nat) → (text : List Char) → Cursor → Option (List Char × Cursor)
  | 0, _, _ => none
  | fuel + 1, text, c =>
    if c.atDocumentIndicator || c.rest.isEmpty then none
    else
      match (if quote = '\x27' then some (singleRun c.rest)
          else doubleRun? c.rest.length c.rest) with
      | none => none
      | some (run, count) =>
        let c := c.advance count
        let text := text ++ run
        match c.rest with
        | next :: _ =>
          if next = quote then some (text, c.advance 1)
          else
            let (gap, c) : Gap × Cursor :=
              if next = '\\' then ({ first := some [] }, (c.advance 1).skipBreak) else ({}, c)
            match gap.take? 0 c.rest.length c with
            | none => none
            | some (gap, c) => quotedScalar? quote fuel (text ++ gap.text) c
        | [] => none

/-! ## Block scalars -/

/-- How a block scalar ends: without its last break, with it, or with all breaks. -/
inductive Chomping where
  | strip
  | clip
  | keep
deriving DecidableEq

/-- The header of a block scalar: how it ends, and its indentation if it is given. -/
def blockHeader? (source : List Char) : Option (Chomping × Option Nat × Nat) :=
  let chomping (c : Char) : Option Chomping :=
    if c = '+' then some .keep else if c = '-' then some .strip else none
  let digit (c : Char) : Option Nat := if c.isDigit then some (c.toNat - '0'.toNat) else none
  let header : Chomping × Option Nat × Nat :=
    match source with
    | a :: b :: _ =>
      match chomping a, digit a, chomping b, digit b with
      | some kind, _, _, some n => (kind, some n, 2)
      | some kind, _, _, none => (kind, none, 1)
      | none, some n, some kind, _ => (kind, some n, 2)
      | none, some n, none, _ => (.clip, some n, 1)
      | none, none, _, _ => (.clip, none, 0)
    | [a] =>
      match chomping a, digit a with
      | some kind, _ => (kind, none, 1)
      | none, some n => (.clip, some n, 1)
      | none, none => (.clip, none, 0)
    | [] => (.clip, none, 0)
  if header.2.1 = some 0 then none else some header

/-- Skip the indentation and the empty lines before a line of a block scalar. While the indentation
is not known, `widest` is the deepest one seen. Indenting by a tab is refused. -/
def blockBreaks? (indent : Option Nat) :
    (fuel : Nat) → (widest : Nat) → (breaks : List Char) → Cursor →
      Option (Nat × List Char × Cursor)
  | 0, widest, breaks, c => some (widest, breaks, c)
  | fuel + 1, widest, breaks, c =>
    let room :=
      match indent with
      | some n => n - c.column
      | none => c.rest.length
    let c := c.advance ((c.rest.take room).takeWhile (· == ' ')).length
    let widest := max widest c.column
    if (indent.all (c.column < ·)) && c.rest.head? == some '\t' then none
    else
      match c.takeBreak? with
      | some (lineBreak, after) => blockBreaks? indent fuel widest (breaks ++ lineBreak) after
      | none => some (widest, breaks, c)

/-- Go on with a block scalar of a known indentation. `lead` is the last line break, `breaks` are
those after it, and `blankBefore` tells whether the last line started with a blank. -/
def blockLines? (folded : Bool) (indent : Nat) : (fuel : Nat) → (text lead breaks : List Char) →
    (blankBefore : Bool) → Cursor → Option (List Char × List Char × List Char × Cursor)
  | 0, text, lead, breaks, _, c => some (text, lead, breaks, c)
  | fuel + 1, text, lead, breaks, blankBefore, c =>
    if c.column = indent ∧ ¬c.rest.isEmpty then
      let blankHere := c.rest.head?.any isBlank
      let joint :=
        if folded && lead == ['\n'] && !blankBefore && !blankHere then
          if breaks.isEmpty then [' '] else []
        else lead
      let line := c.rest.takeWhile (!isBreak ·)
      let after := c.advance line.length
      let (lead, after) := (after.takeBreak?).getD ([], after)
      let text' := text ++ joint ++ breaks ++ line
      match blockBreaks? (some indent) after.rest.length 0 [] after with
      | none => none
      | some (_, breaks, after) => blockLines? folded indent fuel text' lead breaks blankHere after
    else some (text, lead, breaks, c)

/-- A block scalar after its first character. `parent` is one more than the column of the block
around it. -/
def blockScalar? (folded : Bool) (parent : Nat) (c : Cursor) : Option (List Char × Cursor) := do
  let (chomping, given, count) ← blockHeader? c.rest
  let c ← (c.advance count).finishLine?
  let known := given.map fun n => (if parent = 0 then 0 else parent - 1) + n
  let (widest, breaks, c) ← blockBreaks? known c.rest.length 0 [] c
  let indent := known.getD (max widest (max parent 1))
  let (text, lead, breaks, c) ← blockLines? folded indent (c.rest.length + 1) [] [] breaks false c
  return match chomping with
    | .strip => (text, c)
    | .clip => (text ++ lead, c)
    | .keep => (text ++ lead ++ breaks, c)

end PlcWorkbench.Yaml
