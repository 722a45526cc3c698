import PlcWorkbench.Json.Basic

/-!
# Reading JSON

A strict reader: one value, with nothing but white space around it. Only the keys of objects have to
denote a text here; other strings and numbers are checked for their form and kept as written.
-/

namespace PlcWorkbench.Json

/-- White space between the parts of a JSON text. -/
def isSpace (c : Char) : Bool :=
  c = ' ' || c = '\t' || c = '\n' || c = '\r'

/-- The text from its first character that is no white space. -/
def skip (source : List Char) : List Char := source.dropWhile isSpace

/-- What follows `word` at the front of the text. -/
def dropWord? : (word : List Char) → List Char → Option (List Char)
  | [], source => some source
  | w :: word, c :: source => if w = c then dropWord? word source else none
  | _ :: _, [] => none

/-- A string after its opening quote: its literal, and what follows the closing quote. Control
characters and unknown escapes are refused. -/
def takeString? : List Char → Option (List Char × List Char)
  | [] => none
  | '\x22' :: rest => some ([], rest)
  | '\\' :: 'u' :: a :: b :: c :: d :: rest =>
    if (codeUnit? a b c d).isSome then
      (takeString? rest).map fun (literal, after) =>
        ('\\' :: 'u' :: a :: b :: c :: d :: literal, after)
    else none
  | '\\' :: c :: rest =>
    if (escaped? c).isSome then
      (takeString? rest).map fun (literal, after) => ('\\' :: c :: literal, after)
    else none
  | c :: rest =>
    if c = '\\' ∨ c.toNat < 0x20 then none
    else (takeString? rest).map fun (literal, after) => (c :: literal, after)

/-- One digit or more, and what follows them. -/
def takeDigits? (source : List Char) : Option (List Char × List Char) :=
  match source.takeWhile Char.isDigit with
  | [] => none
  | digits => some (digits, source.dropWhile Char.isDigit)

/-- The whole part of a number: a zero alone, or digits that start with another. -/
def takeWhole? : List Char → Option (List Char × List Char)
  | '0' :: rest => some (['0'], rest)
  | source => takeDigits? source

/-- The fraction of a number, if there is one. -/
def takeFraction? : List Char → Option (List Char × List Char)
  | '.' :: rest => (takeDigits? rest).map fun (digits, after) => ('.' :: digits, after)
  | source => some ([], source)

/-- The exponent of a number, if there is one. -/
def takeExponent? : List Char → Option (List Char × List Char)
  | c :: rest =>
    if c = 'e' ∨ c = 'E' then
      match rest with
      | sign :: more =>
        if sign = '+' ∨ sign = '-' then
          (takeDigits? more).map fun (digits, after) => (c :: sign :: digits, after)
        else (takeDigits? rest).map fun (digits, after) => (c :: digits, after)
      | [] => none
    else some ([], c :: rest)
  | [] => some ([], [])

/-- A number without its sign: its literal, and what follows it. -/
def takeNumber? (source : List Char) : Option (List Char × List Char) := do
  let (whole, rest) ← takeWhole? source
  let (fraction, rest) ← takeFraction? rest
  let (exponent, rest) ← takeExponent? rest
  return (whole ++ fraction ++ exponent, rest)

mutual

/-- A value at the front of the text and what follows it. Each level of nesting takes one unit of
fuel, of which the length of the text is enough. -/
def takeValue? : (fuel : Nat) → List Char → Option (Json × List Char)
  | 0, _ => none
  | fuel + 1, source =>
    match skip source with
    | '\x22' :: rest => (takeString? rest).map fun (literal, after) => (.string literal, after)
    | '[' :: rest =>
      match skip rest with
      | ']' :: after => some (.array [], after)
      | _ => (takeItems? fuel rest).map fun (items, after) => (.array items, after)
    | '\x7b' :: rest =>
      match skip rest with
      | '\x7d' :: after => some (.object [], after)
      | _ => (takeMembers? fuel rest).map fun (members, after) => (.object members, after)
    | 'n' :: rest => (dropWord? ['u', 'l', 'l'] rest).map fun after => (.null, after)
    | 't' :: rest => (dropWord? ['r', 'u', 'e'] rest).map fun after => (.bool true, after)
    | 'f' :: rest => (dropWord? ['a', 'l', 's', 'e'] rest).map fun after => (.bool false, after)
    | '-' :: rest =>
      (takeNumber? rest).map fun (literal, after) => (.number ('-' :: literal), after)
    | rest => (takeNumber? rest).map fun (literal, after) => (.number literal, after)

/-- The items of an array up to its closing bracket. -/
def takeItems? : (fuel : Nat) → List Char → Option (List Json × List Char)
  | 0, _ => none
  | fuel + 1, source => do
    let (item, rest) ← takeValue? fuel source
    match skip rest with
    | ',' :: rest =>
      let (items, after) ← takeItems? fuel rest
      return (item :: items, after)
    | ']' :: after => return ([item], after)
    | _ => none

/-- The members of an object up to its closing brace. -/
def takeMembers? : (fuel : Nat) → List Char → Option (List (String × Json) × List Char)
  | 0, _ => none
  | fuel + 1, source =>
    match skip source with
    | '\x22' :: rest => do
      let (literal, rest) ← takeString? rest
      let key ← unescape? literal
      match skip rest with
      | ':' :: rest =>
        let (value, rest) ← takeValue? fuel rest
        match skip rest with
        | ',' :: rest =>
          let (members, after) ← takeMembers? fuel rest
          return ((String.ofList key, value) :: members, after)
        | '\x7d' :: after => return ([(String.ofList key, value)], after)
        | _ => none
      | _ => none
    | _ => none

end

/-- Read a JSON text. -/
def read? (source : String) : Option Json :=
  let characters := source.toList
  match takeValue? (2 * characters.length + 2) characters with
  | some (value, rest) => if (skip rest).isEmpty then some value else none
  | none => none

end PlcWorkbench.Json
