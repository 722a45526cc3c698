/-!
# A place in a YAML text

YAML measures indentation in columns and keeps keys on one line, so a reader has to know where it
stands. A cursor is the text not yet read together with its index, line and column. Line breaks are
read through `takeBreak?`, which gives them in their normal form; the end of the text counts as a
break for what comes before it.
-/

namespace PlcWorkbench.Yaml

/-- A space or a tab. -/
def isBlank (c : Char) : Bool := c = ' ' || c = '\t'

/-- A character that breaks a line. -/
def isBreak (c : Char) : Bool :=
  c = '\r' || c = '\n' || c = '\u0085' || c = '\u2028' || c = '\u2029'

/-- A character that may not continue a word: blank or breaking. -/
def isGap (c : Char) : Bool := isBlank c || isBreak c

/-- A character of an anchor, a tag handle or a directive name. -/
def isWordChar (c : Char) : Bool := c.isAlphanum || c = '_' || c = '-'

/-- A character that a YAML text may contain. -/
def isPrintable (c : Char) : Bool :=
  let code := c.toNat
  code = 0x9 || code = 0xA || code = 0xD || (0x20 ≤ code && code ≤ 0x7E) || code = 0x85
    || (0xA0 ≤ code && code ≤ 0xFFFD) || 0x10000 ≤ code

/-- Whether a text starts with a gap or is at its end. -/
def gapAhead : List Char → Bool
  | [] => true
  | c :: _ => isGap c

/-- A place in a text: what is left, and where it starts. -/
structure Cursor where
  rest : List Char
  index : Nat := 0
  line : Nat := 0
  column : Nat := 0
deriving Inhabited

namespace Cursor

/-- Go on by so many characters of the line. -/
def advance (c : Cursor) (count : Nat) : Cursor :=
  { c with rest := c.rest.drop count, index := c.index + count, column := c.column + count }

/-- Go on over the characters that meet the condition. -/
def skipWhile (c : Cursor) (p : Char → Bool) : Cursor :=
  c.advance (c.rest.takeWhile p).length

/-- A line break in its normal form and the place after it. All but the two Unicode separators read
as a line feed, and a carriage return with a line feed is one break. -/
def takeBreak? (c : Cursor) : Option (List Char × Cursor) :=
  let after (count : Nat) : Cursor :=
    { rest := c.rest.drop count, index := c.index + count, line := c.line + 1, column := 0 }
  match c.rest with
  | '\r' :: '\n' :: _ => some (['\n'], after 2)
  | b :: _ =>
    if b = '\u2028' ∨ b = '\u2029' then some ([b], after 1)
    else if isBreak b then some (['\n'], after 1)
    else none
  | [] => none

/-- Go to the next line, if a line break is ahead. -/
def skipBreak (c : Cursor) : Cursor :=
  match c.takeBreak? with
  | some (_, after) => after
  | none => c

/-- Go on to the end of the line. -/
def skipLine (c : Cursor) : Cursor := c.skipWhile (!isBreak ·)

/-- Whether three of these characters and then a gap start the line. -/
def atIndicator (c : Cursor) (mark : Char) : Bool :=
  match c.rest with
  | x :: y :: z :: rest => c.column == 0 && x == mark && y == mark && z == mark && gapAhead rest
  | _ => false

/-- Whether a document starts or ends here. -/
def atDocumentIndicator (c : Cursor) : Bool := c.atIndicator '-' || c.atIndicator '.'

/-- Skip blanks and a comment up to the end of the line; anything else is refused. -/
def finishLine? (c : Cursor) : Option Cursor :=
  let c := c.skipWhile isBlank
  let c := if c.rest.head? = some '#' then c.skipLine else c
  match c.rest with
  | [] => some c
  | b :: _ => if isBreak b then some c.skipBreak else none

end Cursor

end PlcWorkbench.Yaml
