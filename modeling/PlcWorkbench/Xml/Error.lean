import PlcWorkbench.Text.Numeral

/-!
# Why a text is not a document

The causes for which reading a document fails, and their wording. Positions in attribute errors are
byte offsets from the start of the tag's content; ranges in escape errors are byte offsets in the
text or value itself.
-/

namespace PlcWorkbench.Xml

/-- A fault in the attributes of a tag. -/
inductive AttributeError where
  | expectedEquals (position : Nat)
  | duplicated (position previous : Nat)
  | unquoted (position : Nat)
  | missingValue (position : Nat)
  | unclosedQuote (position : Nat) (quote : Char)
deriving DecidableEq, Repr

/-- A fault in an entity or character reference. -/
inductive EscapeError where
  | unterminated (start stop : Nat)
  | unknownEntity (start stop : Nat) (name : String)
  | signedNumber
  | badNumber (fault : Text.Numeral.Fault)
  | zero
  | notScalar (code : Nat)
deriving DecidableEq, Repr

/-- Why a text is not a document. -/
inductive Error where
  | unclosedTag
  | unknownMarkup
  | unclosedCData
  | unclosedComment
  | unclosedDoctype
  | unclosedInstruction
  | unnamedDoctype
  | mismatchedEnd (expected found : String)
  | unmatchedEnd (found : String)
  | versionNotFirst (first : String)
  | versionMissing
  | attribute (cause : AttributeError)
  | declarationAttribute (cause : AttributeError)
  | escape (cause : EscapeError)
  | unexpectedEnd
  | cdataOutsideRoot
  | secondRoot (name : String)
  | unclosedElement (name : String)
  | noRoot
deriving DecidableEq, Repr

/-- The wording of an attribute error. -/
def AttributeError.message : AttributeError → String
  | .expectedEquals p =>
    "position " ++ toString p ++ ": attribute key must be directly followed by `=` or space"
  | .duplicated p q =>
    "position " ++ toString p ++ ": duplicated attribute, previous declaration at position "
      ++ toString q
  | .unquoted p =>
    "position " ++ toString p ++ ": attribute value must be enclosed in `\"` or `'`"
  | .missingValue p =>
    "position " ++ toString p ++ ": `=` must be followed by an attribute value"
  | .unclosedQuote p quote =>
    "position " ++ toString p ++ ": missing closing quote `" ++ quote.toString
      ++ "` in attribute value"

/-- The wording of a fault in a number. -/
def EscapeError.describe : Text.Numeral.Fault → String
  | .empty => "cannot parse integer from empty string"
  | .invalidDigit => "invalid digit found in string"
  | .tooLarge => "number too large to fit in target type"

/-- The wording of an escape error. -/
def EscapeError.message : EscapeError → String
  | .unterminated start stop =>
    "Error while escaping character at range " ++ toString start ++ ".." ++ toString stop
      ++ ": Cannot find ';' after '&'"
  | .unknownEntity start stop name =>
    "at " ++ toString start ++ ".." ++ toString stop ++ ": unrecognized entity `" ++ name ++ "`"
  | .signedNumber => "invalid character reference: unexpected number sign"
  | .badNumber fault => "invalid character reference: " ++ describe fault
  | .zero => "invalid character reference: 0x0 character is not permitted in XML"
  | .notScalar code =>
    "invalid character reference: `" ++ toString code ++ "` is not a valid codepoint"

/-- The wording of a reading error. -/
def Error.message : Error → String
  | .unclosedTag => "syntax error: tag not closed: `>` not found before end of input"
  | .unknownMarkup => "syntax error: unknown or missed symbol in markup"
  | .unclosedCData => "syntax error: CDATA not closed: `]]>` not found before end of input"
  | .unclosedComment => "syntax error: comment not closed: `-->` not found before end of input"
  | .unclosedDoctype => "syntax error: DOCTYPE not closed: `>` not found before end of input"
  | .unclosedInstruction =>
    "syntax error: processing instruction or xml declaration not closed: "
      ++ "`?>` not found before end of input"
  | .unnamedDoctype =>
    "ill-formed document: `<!DOCTYPE>` declaration does not contain a name of a document type"
  | .mismatchedEnd expected found =>
    "ill-formed document: expected `</" ++ expected ++ ">`, but `</" ++ found ++ ">` was found"
  | .unmatchedEnd found =>
    "ill-formed document: close tag `</" ++ found ++ ">` does not match any open tag"
  | .versionNotFirst first =>
    "ill-formed document: an XML declaration must start with `version` attribute, "
      ++ "but in starts with `" ++ first ++ "`"
  | .versionMissing =>
    "ill-formed document: an XML declaration does not contain `version` attribute"
  | .attribute cause => cause.message
  | .declarationAttribute cause => "error while parsing attribute: " ++ cause.message
  | .escape cause => cause.message
  | .unexpectedEnd => "unexpected end tag"
  | .cdataOutsideRoot => "CDATA outside root element"
  | .secondRoot name => "second root element '" ++ name ++ "'"
  | .unclosedElement name => "unclosed element '" ++ name ++ "'"
  | .noRoot => "document has no root element"

end PlcWorkbench.Xml
