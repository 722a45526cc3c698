import PlcWorkbench.Xml.Markup

/-!
# Reading with nesting

A reader takes the pieces of a text one by one and keeps the names of the tags that are open. An end
tag has to carry the innermost of them.
-/

namespace PlcWorkbench.Xml

/-- A text that is partly read: what is left, and the names of the open tags, the innermost
first. -/
structure Reader where
  source : List Char
  openNames : List (List Char) := []
deriving DecidableEq, Repr

/-- The name in an end tag: white space after it is no part of it, unless there is nothing else. -/
def endName (content : List Char) : List Char :=
  let name := (content.reverse.dropWhile isSpace).reverse
  if name.isEmpty then content else name

/-- The next piece and the reader after it; nothing at the end of the text. -/
def Reader.next? (reader : Reader) : Except Error (Option (Markup × Reader)) :=
  match Markup.next? reader.source with
  | .error cause => .error cause
  | .ok none => .ok none
  | .ok (some (markup, rest)) =>
    match markup with
    | .startTag content => .ok (some (markup, ⟨rest, tagName content :: reader.openNames⟩))
    | .endTag content =>
      match reader.openNames with
      | [] => .error (.unmatchedEnd (String.ofList (endName content)))
      | name :: outer =>
        if endName content = name then .ok (some (markup, ⟨rest, outer⟩))
        else .error (.mismatchedEnd (String.ofList name) (String.ofList (endName content)))
    | _ => .ok (some (markup, ⟨rest, reader.openNames⟩))

/-- Each piece takes something off the text. -/
theorem Reader.length_lt_of_next? {reader after : Reader} {m : Markup}
    (h : reader.next? = .ok (some (m, after))) : after.source.length < reader.source.length := by
  unfold Reader.next? at h
  split at h
  · cases h
  · cases h
  · rename_i markup rest found
    have shorter := Markup.length_lt_of_next? found
    split at h
    · cases h
      exact shorter
    · split at h
      · cases h
      · split at h
        · cases h
          exact shorter
        · cases h
    · cases h
      exact shorter

end PlcWorkbench.Xml
