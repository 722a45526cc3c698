import PlcWorkbench.Json.Basic

/-!
# Writing JSON

The layout for people: each item and member on a line of its own, indented by two spaces for each
level, and a space after the colon of a member. Empty arrays and objects stand on one line.
-/

namespace PlcWorkbench.Json

/-- A line break and the indentation of a level. -/
def lineBreak (level : Nat) : List Char :=
  '\n' :: List.replicate (2 * level) ' '

/-- A literal between its quotes. -/
def quoted (literal : List Char) : List Char :=
  '\x22' :: (literal ++ ['\x22'])

mutual

/-- The text of a value that starts on a line of the given level. -/
def layout (level : Nat) : Json → List Char
  | .null => ['n', 'u', 'l', 'l']
  | .bool true => ['t', 'r', 'u', 'e']
  | .bool false => ['f', 'a', 'l', 's', 'e']
  | .number literal => literal
  | .string literal => quoted literal
  | .array [] => ['[', ']']
  | .array (item :: items) =>
    '[' :: (lineBreak (level + 1) ++ layout (level + 1) item ++ layoutItems (level + 1) items
      ++ lineBreak level ++ [']'])
  | .object [] => ['\x7b', '\x7d']
  | .object ((key, value) :: members) =>
    '\x7b' :: (lineBreak (level + 1) ++ quoted (key.toList.flatMap escapeChar) ++ [':', ' ']
      ++ layout (level + 1) value ++ layoutMembers (level + 1) members ++ lineBreak level
      ++ ['\x7d'])

/-- The items of an array after the first. -/
def layoutItems (level : Nat) : List Json → List Char
  | [] => []
  | item :: items => ',' :: (lineBreak level ++ layout level item ++ layoutItems level items)

/-- The members of an object after the first. -/
def layoutMembers (level : Nat) : List (String × Json) → List Char
  | [] => []
  | (key, value) :: members =>
    ',' :: (lineBreak level ++ quoted (key.toList.flatMap escapeChar) ++ [':', ' ']
        ++ layout level value
      ++ layoutMembers level members)

end

/-- The text of a value. -/
def pretty (value : Json) : String :=
  String.ofList (layout 0 value)

end PlcWorkbench.Json
