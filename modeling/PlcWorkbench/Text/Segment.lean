/-!
# Segments of a text

A separator character divides a text into segments; there is always at least one.
-/

namespace PlcWorkbench.Text

/-- The segments between the separators, in order. -/
def segments (separator : Char) : List Char → List (List Char)
  | [] => [[]]
  | c :: rest =>
    match segments separator rest with
    | [] => [[c]]
    | first :: others => if c = separator then [] :: first :: others else (c :: first) :: others

/-- The segment after the last separator. -/
def lastSegment (separator : Char) (characters : List Char) : List Char :=
  (characters.reverse.takeWhile (· != separator)).reverse

end PlcWorkbench.Text
