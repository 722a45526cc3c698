import PlcWorkbench.Xml.Error

/-!
# Escaping

`escape` writes the five characters with a meaning in markup as named references; `unescape`
resolves named and numeric references. What `escape` writes, `unescape` reads back.
-/

namespace PlcWorkbench.Xml

/-- The number of bytes that the characters take in UTF-8. -/
def utf8Length : List Char → Nat
  | [] => 0
  | c :: rest => c.utf8Size + utf8Length rest

/-- The written form of one character in text or in an attribute value. -/
def escapeChar (c : Char) : List Char :=
  match c with
  | '<' => ['&', 'l', 't', ';']
  | '>' => ['&', 'g', 't', ';']
  | '&' => ['&', 'a', 'm', 'p', ';']
  | '\x27' => ['&', 'a', 'p', 'o', 's', ';']
  | '\x22' => ['&', 'q', 'u', 'o', 't', ';']
  | c => [c]

/-- The written form of text or of an attribute value. -/
def escape (characters : List Char) : List Char :=
  characters.flatMap escapeChar

/-- The character of a numeric reference, given what follows the number sign. -/
def resolveNumber (numeral : List Char) : Except EscapeError Char :=
  let (radix, digits) :=
    match numeral with
    | 'x' :: digits => (16, digits)
    | digits => (10, digits)
  match digits with
  | '+' :: _ => .error .signedNumber
  | '-' :: _ => .error .signedNumber
  | _ =>
    match Text.Numeral.read radix digits with
    | .error fault => .error (.badNumber fault)
    | .ok 0 => .error .zero
    | .ok code => if code.isValidChar then .ok (Char.ofNat code) else .error (.notScalar code)

/-- The character that a reference stands for. Positions count from the start of its name. -/
def resolve (name : List Char) : Except EscapeError Char :=
  match name with
  | '#' :: numeral => resolveNumber numeral
  | ['l', 't'] => .ok '<'
  | ['g', 't'] => .ok '>'
  | ['a', 'm', 'p'] => .ok '&'
  | ['a', 'p', 'o', 's'] => .ok '\x27'
  | ['q', 'u', 'o', 't'] => .ok '\x22'
  | name => .error (.unknownEntity 0 (utf8Length name) (String.ofList name))

/-- The same fault at a place that lies further on in the text. -/
def EscapeError.shift (offset : Nat) : EscapeError → EscapeError
  | .unterminated start stop => .unterminated (offset + start) (offset + stop)
  | .unknownEntity start stop name => .unknownEntity (offset + start) (offset + stop) name
  | cause => cause

/-- Resolve the references in the rest of a text of `total` bytes. Within a reference, `name` holds
the characters since its ampersand, the last one first; another ampersand or the end of the text
leaves it unterminated. -/
def unescapeFrom (total : Nat) :
    (name : Option (List Char)) → List Char → Except EscapeError (List Char)
  | none, [] => .ok []
  | none, '&' :: rest => unescapeFrom total (some []) rest
  | none, c :: rest => (unescapeFrom total none rest).map (c :: ·)
  | some name, [] => .error (.unterminated (total - utf8Length name - 1) total)
  | some name, c :: rest =>
    if c = '&' then
      .error (.unterminated (total - utf8Length (c :: rest) - utf8Length name - 1) total)
    else if c = ';' then
      match resolve name.reverse with
      | .error cause => .error (cause.shift (total - utf8Length (c :: rest) - utf8Length name))
      | .ok resolved => (unescapeFrom total none rest).map (resolved :: ·)
    else unescapeFrom total (some (c :: name)) rest

/-- Resolve the references in text or in an attribute value. -/
def unescape (characters : List Char) : Except EscapeError (List Char) :=
  unescapeFrom (utf8Length characters) none characters

end PlcWorkbench.Xml
