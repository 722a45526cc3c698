import PlcWorkbench.Dictionary

/-!
# JSON values

JSON texts as trees. Numbers and strings are kept as they are written, so that a value that nobody
looks at need not denote anything; `Json.text?` and `Json.natural?` say what a string or a number
denotes.
-/

namespace PlcWorkbench

/-- A JSON value. A string holds the characters between its quotes, escapes included. -/
inductive Json where
  | null
  | bool (value : Bool)
  | number (literal : List Char)
  | string (literal : List Char)
  | array (items : List Json)
  | object (members : List (String × Json))
deriving Inhabited

namespace Json

/-- The value of a hexadecimal digit. -/
def hexValue? (c : Char) : Option Nat :=
  if '0' ≤ c ∧ c ≤ '9' then some (c.toNat - '0'.toNat)
  else if 'a' ≤ c ∧ c ≤ 'f' then some (c.toNat - 'a'.toNat + 10)
  else if 'A' ≤ c ∧ c ≤ 'F' then some (c.toNat - 'A'.toNat + 10)
  else none

/-- The code unit that four hexadecimal digits give. -/
def codeUnit? (a b c d : Char) : Option Nat := do
  let a ← hexValue? a
  let b ← hexValue? b
  let c ← hexValue? c
  let d ← hexValue? d
  return ((a * 16 + b) * 16 + c) * 16 + d

/-- The character that a one-letter escape stands for. -/
def escaped? : Char → Option Char
  | '\x22' => some '\x22'
  | '\\' => some '\\'
  | '/' => some '/'
  | 'b' => some '\x08'
  | 'f' => some '\x0c'
  | 'n' => some '\n'
  | 'r' => some '\r'
  | 't' => some '\t'
  | _ => none

/-- The characters that a string's literal denotes. Code units above the first plane come in pairs;
a half that stands alone denotes nothing. -/
def unescape? : List Char → Option (List Char)
  | [] => some []
  | '\\' :: 'u' :: a :: b :: c :: d :: '\\' :: 'u' :: a' :: b' :: c' :: d' :: rest =>
    match codeUnit? a b c d, codeUnit? a' b' c' d' with
    | some high, some low =>
      if 0xD800 ≤ high ∧ high ≤ 0xDBFF then
        if 0xDC00 ≤ low ∧ low ≤ 0xDFFF then
          (unescape? rest).map (Char.ofNat (0x10000 + (high - 0xD800) * 0x400 + (low - 0xDC00))
              :: ·)
        else none
      else if 0xDC00 ≤ high ∧ high ≤ 0xDFFF then none
      else (unescape? ('\\' :: 'u' :: a' :: b' :: c' :: d' :: rest)).map (Char.ofNat high :: ·)
    | _, _ => none
  | '\\' :: 'u' :: a :: b :: c :: d :: rest =>
    match codeUnit? a b c d with
    | some unit => if unit.isValidChar then (unescape? rest).map (Char.ofNat unit :: ·) else none
    | none => none
  | '\\' :: c :: rest =>
    match escaped? c with
    | some c => (unescape? rest).map (c :: ·)
    | none => none
  | c :: rest => (unescape? rest).map (c :: ·)
termination_by literal => literal.length

/-- The text that a string denotes. -/
def text? : Json → Option String
  | .string literal => (unescape? literal).map String.ofList
  | _ => none

/-- The number that a literal of digits denotes; a sign, a fraction or an exponent is none. -/
def natural? : Json → Option Nat
  | .number literal =>
    if literal.all Char.isDigit then
      some (literal.foldl (fun value c => value * 10 + (c.toNat - '0'.toNat)) 0)
    else none
  | _ => none

/-- The digits of a number below sixteen. -/
def hexDigit (n : Nat) : Char :=
  if n < 10 then Char.ofNat ('0'.toNat + n) else Char.ofNat ('a'.toNat + (n - 10))

/-- The written form of one character of a string. -/
def escapeChar (c : Char) : List Char :=
  match c with
  | '\x22' => ['\\', '\x22']
  | '\\' => ['\\', '\\']
  | '\x08' => ['\\', 'b']
  | '\x0c' => ['\\', 'f']
  | '\n' => ['\\', 'n']
  | '\r' => ['\\', 'r']
  | '\t' => ['\\', 't']
  | c =>
    if c.toNat < 0x20 then ['\\', 'u', '0', '0', hexDigit (c.toNat / 16), hexDigit (c.toNat % 16)]
    else [c]

/-- The string that denotes a text. -/
def ofText (text : String) : Json := .string (text.toList.flatMap escapeChar)

/-- The number that denotes a natural number. -/
def ofNat (n : Nat) : Json := .number (toString n).toList

/-- The string that denotes a text, or null for none. -/
def ofText? : Option String → Json
  | some text => ofText text
  | none => .null

end Json

end PlcWorkbench
