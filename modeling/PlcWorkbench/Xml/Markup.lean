import PlcWorkbench.Xml.Attribute

/-!
# Markup

The pieces that a document's text falls into: runs of text, tags, comments and the other constructs,
each with the content between its delimiters. `Markup.next?` takes one piece off the front of a
text.
-/

namespace PlcWorkbench.Xml

/-- One piece of a document's text. -/
inductive Markup where
  /-- The characters up to the next angle bracket, references unresolved. -/
  | text (characters : List Char)
  /-- The content of a start tag. -/
  | startTag (content : List Char)
  /-- The content of a tag that is also its own end, without the slash. -/
  | emptyTag (content : List Char)
  /-- The content of an end tag after the slash. -/
  | endTag (content : List Char)
  | cdata (characters : List Char)
  | comment (characters : List Char)
  | instruction (characters : List Char)
  /-- The content of an XML declaration, its name included. -/
  | declaration (content : List Char)
  /-- A document type, whose content has no effect. -/
  | doctype
deriving DecidableEq, Repr

/-! ## Delimiters -/

/-- What follows `start` at the front of the text. -/
def dropStart? : (start : List Char) → List Char → Option (List Char)
  | [], source => some source
  | _ :: _, [] => none
  | s :: start, c :: source => if s = c then dropStart? start source else none

/-- The text before the first occurrence of `stop`, and the text after it. -/
def breakOn? (stop : List Char) : List Char → Option (List Char × List Char)
  | [] => (dropStart? stop []).map fun after => ([], after)
  | c :: rest =>
    match dropStart? stop (c :: rest) with
    | some after => some ([], after)
    | none => (breakOn? stop rest).map fun (before, after) => (c :: before, after)

/-- The content of a tag: the text before the first closing bracket outside quotes, and the text
after it. The quote that is open, if any, is passed along. -/
def breakTag? : (quote : Option Char) → List Char → Option (List Char × List Char)
  | _, [] => none
  | none, '>' :: rest => some ([], rest)
  | none, c :: rest =>
    (breakTag? (if c = '\x22' ∨ c = '\x27' then some c else none) rest).map
      fun (content, after) => (c :: content, after)
  | some quote, c :: rest =>
    (breakTag? (if c = quote then none else some quote) rest).map fun (content, after) =>
      (c :: content, after)

/-- The content of a document type: the text before the first closing bracket that closes no bracket
opened in it, and the text after it. -/
def breakDoctype? : (depth : Nat) → List Char → Option (List Char × List Char)
  | _, [] => none
  | 0, '>' :: rest => some ([], rest)
  | depth, c :: rest =>
    let depth := if c = '<' then depth + 1 else if c = '>' then depth - 1 else depth
    (breakDoctype? depth rest).map fun (content, after) => (c :: content, after)

/-- What follows `start` at the front of the text, letters of either case being alike. -/
def dropStartAnyCase? (start source : List Char) : Option (List Char) :=
  if (source.take start.length).map Char.toUpper = start then some (source.drop start.length)
  else none

/-! ## Constructs -/

namespace Markup

/-- A construct between two delimiters: the piece with its content, and the text after it. -/
def readDelimited (start stop : List Char) (piece : List Char → Markup) (unclosed : Error)
    (source : List Char) : Except Error (Markup × List Char) :=
  match dropStart? start source with
  | none => .error unclosed
  | some body =>
    match breakOn? stop body with
    | none => .error unclosed
    | some (content, after) => .ok (piece content, after)

/-- A CDATA section, after its opening bracket and exclamation mark. -/
def readCData : List Char → Except Error (Markup × List Char) :=
  readDelimited ['[', 'C', 'D', 'A', 'T', 'A', '['] [']', ']', '>'] .cdata .unclosedCData

/-- A comment, after its opening bracket and exclamation mark. -/
def readComment : List Char → Except Error (Markup × List Char) :=
  readDelimited ['-', '-'] ['-', '-', '>'] .comment .unclosedComment

/-- A document type, after its opening bracket and exclamation mark. It has to name a type. -/
def readDoctype (source : List Char) : Except Error (Markup × List Char) :=
  match dropStartAnyCase? ['D', 'O', 'C', 'T', 'Y', 'P', 'E'] source with
  | none => .error .unclosedDoctype
  | some body =>
    match breakDoctype? 0 body with
    | none => .error .unclosedDoctype
    | some (content, after) =>
      if content.all isSpace then .error .unnamedDoctype else .ok (.doctype, after)

/-- A construct that opens with an exclamation mark, which is left out; the next character tells
which it is. -/
def readMarked (source : List Char) : Except Error (Markup × List Char) :=
  match source with
  | '[' :: _ => readCData source
  | '-' :: _ => readComment source
  | 'D' :: _ => readDoctype source
  | 'd' :: _ => readDoctype source
  | _ => .error .unknownMarkup

/-- Whether a processing instruction with this content is the XML declaration. -/
def isDeclaration (content : List Char) : Bool :=
  match dropStart? declarationName content with
  | some [] => true
  | some (c :: _) => isSpace c
  | none => false

/-- A declaration, or any other processing instruction. -/
def ofInstructionContent (content : List Char) : Markup :=
  if isDeclaration content then .declaration content else .instruction content

/-- A processing instruction or declaration, after its opening question mark. -/
def readInstruction (source : List Char) : Except Error (Markup × List Char) :=
  match source with
  | '>' :: _ => .error .unclosedInstruction
  | _ => readDelimited [] ['?', '>'] ofInstructionContent .unclosedInstruction source

/-- A start tag or an empty element's tag; a slash right before the closing bracket tells them
apart. -/
def ofTagContent (content : List Char) : Markup :=
  if content.getLast? = some '/' then .emptyTag content.dropLast else .startTag content

/-- The construct after an opening bracket. -/
def readConstruct (source : List Char) : Except Error (Markup × List Char) :=
  match source with
  | '!' :: rest => readMarked rest
  | '?' :: rest => readInstruction rest
  | '/' :: rest =>
    match breakTag? none rest with
    | none => .error .unclosedTag
    | some (content, after) => .ok (.endTag content, after)
  | _ =>
    match breakTag? none source with
    | none => .error .unclosedTag
    | some (content, after) => .ok (ofTagContent content, after)

/-- The first piece of a text and what follows it; nothing at the end of the text. -/
def next? (source : List Char) : Except Error (Option (Markup × List Char)) :=
  match source with
  | [] => .ok none
  | '<' :: rest => (readConstruct rest).map some
  | _ => .ok (some (.text (source.takeWhile (· != '<')), source.dropWhile (· != '<')))

end Markup

/-! ## Each piece takes something off the text -/

/-- What follows a start is no longer than the text. -/
theorem length_le_of_dropStart? {start source after : List Char}
    (h : dropStart? start source = some after) :
    after.length ≤ source.length := by
  induction start generalizing source with
  | nil => cases h; exact Nat.le_refl _
  | cons s start ih =>
    cases source with
    | nil => cases h
    | cons c source =>
      simp only [dropStart?] at h
      split at h
      · exact Nat.le_succ_of_le (ih h)
      · cases h

/-- What follows a stop is no longer than the text. -/
theorem length_le_of_breakOn? {stop source before after : List Char}
    (h : breakOn? stop source = some (before, after)) : after.length ≤ source.length := by
  induction source generalizing before with
  | nil =>
    simp only [breakOn?, Option.map_eq_some_iff] at h
    obtain ⟨a, ha, hb⟩ := h
    cases hb
    exact length_le_of_dropStart? ha
  | cons c rest ih =>
    simp only [breakOn?] at h
    split at h
    · rename_i found
      cases h
      exact length_le_of_dropStart? found
    · obtain ⟨⟨b, a⟩, hb, heq⟩ := Option.map_eq_some_iff.1 h
      cases heq
      exact Nat.le_succ_of_le (ih hb)

/-- What follows a tag's content is no longer than the text. -/
theorem length_le_of_breakTag? {quote : Option Char} {source content after : List Char}
    (h : breakTag? quote source = some (content, after)) : after.length ≤ source.length := by
  induction source generalizing quote content with
  | nil => cases quote <;> cases h
  | cons c rest ih =>
    unfold breakTag? at h
    split at h
    · contradiction
    · rename_i heq
      cases heq
      cases h
      exact Nat.le_succ _
    · rename_i heq
      cases heq
      obtain ⟨⟨b, a⟩, hb, he⟩ := Option.map_eq_some_iff.1 h
      cases he
      exact Nat.le_succ_of_le (ih hb)
    · rename_i heq
      cases heq
      obtain ⟨⟨b, a⟩, hb, he⟩ := Option.map_eq_some_iff.1 h
      cases he
      exact Nat.le_succ_of_le (ih hb)

/-- What follows a document type's content is no longer than the text. -/
theorem length_le_of_breakDoctype? {depth : Nat} {source content after : List Char}
    (h : breakDoctype? depth source = some (content, after)) : after.length ≤ source.length := by
  induction source generalizing depth content with
  | nil => simp [breakDoctype?] at h
  | cons c rest ih =>
    unfold breakDoctype? at h
    split at h
    · contradiction
    · rename_i heq
      cases heq
      cases h
      exact Nat.le_succ _
    · rename_i heq
      cases heq
      obtain ⟨⟨b, a⟩, hb, he⟩ := Option.map_eq_some_iff.1 h
      cases he
      exact Nat.le_succ_of_le (ih hb)

namespace Markup

/-- A delimited construct is read where both its delimiters are. -/
theorem readDelimited_eq_ok_iff {start stop source after : List Char} {piece : List Char → Markup}
    {unclosed : Error} {m : Markup} :
    readDelimited start stop piece unclosed source = .ok (m, after)
      ↔ ∃ body content, dropStart? start source = some body
        ∧ breakOn? stop body = some (content, after) ∧ m = piece content := by
  rw [readDelimited]
  cases opened : dropStart? start source with
  | none => simp
  | some body =>
    cases closed : breakOn? stop body <;> simp [closed, Prod.ext_iff, eq_comm, and_comm]

/-- A delimited construct takes nothing but its own characters. -/
theorem length_le_of_readDelimited {start stop source after : List Char}
    {piece : List Char → Markup} {unclosed : Error} {m : Markup}
    (h : readDelimited start stop piece unclosed source = .ok (m, after)) :
    after.length ≤ source.length := by
  obtain ⟨body, content, opened, closed, -⟩ := readDelimited_eq_ok_iff.1 h
  exact Nat.le_trans (length_le_of_breakOn? closed) (length_le_of_dropStart? opened)

/-- A document type takes nothing but its own characters. -/
theorem length_le_of_readDoctype {source after : List Char} {m : Markup}
    (h : readDoctype source = .ok (m, after)) : after.length ≤ source.length := by
  unfold readDoctype at h
  split at h
  · cases h
  · rename_i body opened
    split at h
    · cases h
    · rename_i content rest closed
      have shorter : body.length ≤ source.length := by
        simp only [dropStartAnyCase?] at opened
        split at opened
        · cases opened
          simp only [List.length_drop]
          omega
        · cases opened
      split at h
      · cases h
      · cases h
        exact Nat.le_trans (length_le_of_breakDoctype? closed) shorter

/-- A processing instruction takes nothing but its own characters. -/
theorem length_le_of_readInstruction {source after : List Char} {m : Markup}
    (h : readInstruction source = .ok (m, after)) : after.length ≤ source.length := by
  unfold readInstruction at h
  split at h
  · cases h
  · exact length_le_of_readDelimited h

/-- A construct takes nothing but its own characters. -/
theorem length_le_of_readConstruct {source after : List Char} {m : Markup}
    (h : readConstruct source = .ok (m, after)) : after.length ≤ source.length := by
  unfold readConstruct at h
  split at h
  · unfold readMarked at h
    split at h
    · exact Nat.le_succ_of_le (length_le_of_readDelimited h)
    · exact Nat.le_succ_of_le (length_le_of_readDelimited h)
    · exact Nat.le_succ_of_le (length_le_of_readDoctype h)
    · exact Nat.le_succ_of_le (length_le_of_readDoctype h)
    · cases h
  · exact Nat.le_succ_of_le (length_le_of_readInstruction h)
  · split at h
    · cases h
    · rename_i closed
      cases h
      exact Nat.le_succ_of_le (length_le_of_breakTag? closed)
  · split at h
    · cases h
    · rename_i closed
      cases h
      exact length_le_of_breakTag? closed

/-- What follows a piece is shorter than the text. -/
theorem length_lt_of_next? {source after : List Char} {m : Markup}
    (h : next? source = .ok (some (m, after))) : after.length < source.length := by
  unfold next? at h
  split at h
  · cases h
  · rename_i rest
    cases read : readConstruct rest with
    | error cause => rw [read] at h; cases h
    | ok pair =>
      rw [read] at h
      cases h
      exact Nat.lt_succ_of_le (length_le_of_readConstruct read)
  · rename_i notEmpty notMarkup
    cases h
    cases source with
    | nil => exact absurd rfl notEmpty
    | cons c rest =>
      have differs : (c != '<') = true := by
        simp only [bne_iff_ne, ne_eq]
        intro equal
        subst equal
        exact notMarkup rest rfl
      rw [List.dropWhile_cons, if_pos differs]
      exact Nat.lt_succ_of_le (length_dropWhile_le _ rest)

end Markup

end PlcWorkbench.Xml
