import GatewayMapping.Text.Utf8

/-!
# Faults of JSON texts

Why a text is no JSON document, and where. Lines count from one; columns count the bytes of the
line up to and with the offending one.
-/

namespace GatewayMapping.Json

/-- Why a text is no JSON document. -/
inductive Flaw where
  | endInValue
  | endInList
  | endInObject
  | endInString
  | expectedColon
  | expectedListEnd
  | expectedObjectEnd
  | expectedIdent
  | expectedValue
  | invalidEscape
  | invalidNumber
  | numberOutOfRange
  | controlCharacter
  | keyNotString
  | loneSurrogate
  | trailingComma
  | trailingCharacters
  | endInHexEscape
  | recursionLimit
  deriving Repr, DecidableEq

/-- The wording of a flaw. -/
def Flaw.message : Flaw → String
  | .endInValue => "EOF while parsing a value"
  | .endInList => "EOF while parsing a list"
  | .endInObject => "EOF while parsing an object"
  | .endInString => "EOF while parsing a string"
  | .expectedColon => "expected `:`"
  | .expectedListEnd => "expected `,` or `]`"
  | .expectedObjectEnd => "expected `,` or `\x7d`"
  | .expectedIdent => "expected ident"
  | .expectedValue => "expected value"
  | .invalidEscape => "invalid escape"
  | .invalidNumber => "invalid number"
  | .numberOutOfRange => "number out of range"
  | .controlCharacter => "control character (\\u0000-\\u001F) found while parsing a string"
  | .keyNotString => "key must be a string"
  | .loneSurrogate => "lone leading surrogate in hex escape"
  | .trailingComma => "trailing comma"
  | .trailingCharacters => "trailing characters"
  | .endInHexEscape => "unexpected end of hex escape"
  | .recursionLimit => "recursion limit exceeded"

/-- A flaw, and how many bytes of the text lie behind it. -/
structure Fault where
  flaw : Flaw
  remaining : Nat
  deriving Repr, DecidableEq

/-- The line and the column reached after a number of bytes of a text. -/
def lineColumn : (bytes line column : Nat) → List Char → Nat × Nat
  | 0, line, column, _ => (line, column)
  | bytes + 1, line, column, [] => (line, column + bytes + 1)
  | bytes + 1, line, column, c :: cs =>
    if c = '\n' then lineColumn bytes (line + 1) 0 cs
    else if bytes + 1 ≤ c.utf8Size then (line, column + bytes + 1)
    else lineColumn (bytes + 1 - c.utf8Size) line (column + c.utf8Size) cs
termination_by structural _ _ _ cs => cs

/-- A flaw with its place in a text. -/
structure ReadError where
  flaw : Flaw
  line : Nat
  column : Nat
  deriving Repr, DecidableEq

/-- The place of a fault in the text that has it. -/
def Fault.locate (fault : Fault) (text : List Char) : ReadError :=
  let (line, column) := lineColumn (Text.Utf8.size text - fault.remaining) 1 0 text
  ⟨fault.flaw, line, column⟩

/-- The place of an error, as error texts end with it. -/
def placeText (line column : Nat) : String := s!" at line {line} column {column}"

/-- The full text of an error. -/
def ReadError.message (e : ReadError) : String := e.flaw.message ++ placeText e.line e.column

end GatewayMapping.Json
