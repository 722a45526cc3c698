import PlcWorkbench.Xml.Basic
import PlcWorkbench.Xml.Escape

/-!
# Tags and declarations

Reading what stands between the brackets of a start tag or of an XML declaration. A position is a
byte offset in that content: what is not yet read ends at the content's length, so the position of a
suffix is the length less the suffix. `RawAttribute.next?` finds one attribute after another; tags
unescape the values and refuse a repeated key, declarations do neither.
-/

namespace PlcWorkbench.Xml

/-- White space of markup: space, tab, line feed and carriage return. -/
def isSpace (c : Char) : Bool :=
  c = ' ' || c = '\t' || c = '\n' || c = '\r'

/-- An attribute as written: its key, where the key starts, and the characters between the
quotes. -/
structure RawAttribute where
  key : String
  position : Nat
  value : List Char
deriving DecidableEq, Repr

/-- Whether a character continues an attribute's key. -/
def isKeyChar (c : Char) : Bool := c != '=' && !isSpace c

/-- The value that starts at an opening quote after optional white space, and what follows its
closing quote. -/
def RawAttribute.value? (total : Nat) (source : List Char) :
    Except AttributeError (List Char × List Char) :=
  match source.dropWhile isSpace with
  | [] => .error (.missingValue total)
  | quote :: rest =>
    if quote = '\x22' ∨ quote = '\x27' then
      match rest.dropWhile (· != quote) with
      | [] => .error (.unclosedQuote total quote)
      | _ :: after => .ok (rest.takeWhile (· != quote), after)
    else .error (.unquoted (total - utf8Length (quote :: rest)))

/-- The next attribute of a content of `total` bytes and what follows it; nothing if only white
space is left. A key among the `known` ones, each with its position, is refused as soon as its
equals sign is found. -/
def RawAttribute.next? (total : Nat) (known : List (String × Nat)) (source : List Char) :
    Except AttributeError (Option (RawAttribute × List Char)) :=
  match source.dropWhile isSpace with
  | [] => .ok none
  | first :: rest =>
    let key := String.ofList (first :: rest.takeWhile isKeyChar)
    let position := total - utf8Length (first :: rest)
    match (rest.dropWhile isKeyChar).dropWhile isSpace with
    | [] => .error (.expectedEquals total)
    | equals :: rest =>
      if equals = '=' then
        match known.lookup key with
        | some previous => .error (.duplicated position previous)
        | none =>
          match RawAttribute.value? total rest with
          | .error cause => .error cause
          | .ok (value, after) => .ok (some (⟨key, position, value⟩, after))
      else .error (.expectedEquals (total - utf8Length (equals :: rest)))

/-- Dropping leading characters makes no list longer. -/
theorem length_dropWhile_le (p : Char → Bool) (l : List Char) : (l.dropWhile p).length ≤ l.length :=
  (List.dropWhile_suffix p).length_le

/-- What follows a value is shorter than what the value was read from. -/
theorem RawAttribute.length_lt_of_value? {total : Nat} {source value after : List Char}
    (h : RawAttribute.value? total source = .ok (value, after)) : after.length < source.length := by
  have outer := length_dropWhile_le isSpace source
  unfold RawAttribute.value? at h
  split at h
  · cases h
  · rename_i quote rest found
    rw [found] at outer
    split at h
    · have inner := length_dropWhile_le (· != quote) rest
      split at h
      · cases h
      · rename_i closing tail opened
        rw [opened] at inner
        cases h
        simp only [List.length_cons] at outer inner
        omega
    · cases h

/-- What follows an attribute is shorter than what the attribute was read from. -/
theorem RawAttribute.length_lt_of_next? {total : Nat} {known : List (String × Nat)}
    {source after : List Char} {a : RawAttribute}
    (h : RawAttribute.next? total known source = .ok (some (a, after))) :
    after.length < source.length := by
  have outer := length_dropWhile_le isSpace source
  unfold RawAttribute.next? at h
  split at h
  · cases h
  · rename_i first rest found
    rw [found] at outer
    have middle := length_dropWhile_le isKeyChar rest
    have inner := length_dropWhile_le isSpace (rest.dropWhile isKeyChar)
    dsimp only at h
    split at h
    · cases h
    · rename_i equals tail opened
      rw [opened] at inner
      split at h
      · split at h
        · cases h
        · split at h
          · cases h
          · rename_i value after' read
            have shorter := RawAttribute.length_lt_of_value? read
            cases h
            simp only [List.length_cons] at outer inner
            omega
      · cases h

/-! ## Start tags -/

/-- Read the attributes of a tag, unescaping each value before the next attribute is looked at. -/
def readAttributes (total : Nat) (known : List (String × Nat)) (source : List Char) :
    Except Error Attributes :=
  match _h : RawAttribute.next? total known source with
  | .error cause => .error (.attribute cause)
  | .ok none => .ok []
  | .ok (some (a, after)) =>
    match unescape a.value with
    | .error cause => .error (.escape cause)
    | .ok value =>
      (readAttributes total ((a.key, a.position) :: known) after).map
        ((a.key, String.ofList value) :: ·)
termination_by source.length
decreasing_by exact RawAttribute.length_lt_of_next? _h

/-- The characters of a tag's name: all up to the first white space. -/
def tagName (content : List Char) : List Char :=
  content.takeWhile (!isSpace ·)

/-- Read a tag from the content between its brackets. -/
def Tag.read (content : List Char) : Except Error Tag :=
  (readAttributes (utf8Length content) [] (content.dropWhile (!isSpace ·))).map
    fun attributes => ⟨String.ofList (tagName content), attributes⟩

/-! ## Declarations -/

/-- The value of the first attribute under `key`, as written. -/
def findRaw? (total : Nat) (key : String) (source : List Char) :
    Except AttributeError (Option String) :=
  match _h : RawAttribute.next? total [] source with
  | .error cause => .error cause
  | .ok none => .ok none
  | .ok (some (a, after)) =>
    if a.key = key then .ok (some (String.ofList a.value)) else findRaw? total key after
termination_by source.length
decreasing_by exact RawAttribute.length_lt_of_next? _h

/-- The name that marks a processing instruction as the XML declaration. -/
def declarationName : List Char := ['x', 'm', 'l']

/-- Read an XML declaration from the content between its brackets. The version stands first; the
encoding and the standalone flag are then each looked for from the front. -/
def Declaration.read (content : List Char) : Except Error Declaration :=
  let total := utf8Length content
  let source := content.drop declarationName.length
  match RawAttribute.next? total [] source with
  | .error cause => .error (.declarationAttribute cause)
  | .ok none => .error .versionMissing
  | .ok (some (first, _)) =>
    if first.key = "version" then
      match findRaw? total "encoding" source with
      | .error cause => .error (.declarationAttribute cause)
      | .ok encoding =>
        match findRaw? total "standalone" source with
        | .error cause => .error (.declarationAttribute cause)
        | .ok standalone => .ok ⟨String.ofList first.value, encoding, standalone⟩
    else .error (.versionNotFirst first.key)

end PlcWorkbench.Xml
