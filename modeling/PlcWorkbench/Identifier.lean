import PlcWorkbench.Failure

/-!
# Identifiers

Which names a controller accepts for instructions, parameters and tags: a letter or an underscore
first, then letters, digits and single underscores, at most forty characters, and no underscore at
the end.
-/

namespace PlcWorkbench.Identifier

/-- The most characters that an identifier has. -/
def maxLength : Nat := 40

/-- Whether a character may start an identifier. -/
def isStart (c : Char) : Bool := c.isAlpha || c == '_'

/-- Whether a character may continue an identifier. -/
def isPart (c : Char) : Bool := c.isAlphanum || c == '_'

/-- Whether two underscores stand next to each other. -/
def hasDoubleUnderscore : List Char → Bool
  | '_' :: '_' :: _ => true
  | _ :: rest => hasDoubleUnderscore rest
  | [] => false

/-- Whether the characters start and go on as an identifier does. -/
def hasShape : List Char → Bool
  | [] => false
  | first :: rest => isStart first && rest.length < maxLength && rest.all isPart

/-- Whether a text is an identifier. -/
def isValid (id : String) : Bool :=
  let characters := id.toList
  hasShape characters && !hasDoubleUnderscore characters && characters.getLast? != some '_'

/-- Accept an identifier, and refuse any other text. -/
def validate (id : String) : Except Failure Unit :=
  if isValid id then .ok () else .error (.invalidIdentifier id)

end PlcWorkbench.Identifier
