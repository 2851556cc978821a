/-!
# What can be wrong with a JSON document

A fault has a cause and, once it is known, the place in the document where reading stopped.
-/

namespace BlobVault.Json

/-- Why a document cannot be read. -/
inductive Cause where
  /-- The document ends where a value is due. -/
  | endInValue
  /-- The document ends inside a list. -/
  | endInList
  /-- The document ends inside an object. -/
  | endInObject
  /-- The document ends inside a string. -/
  | endInString
  /-- No value starts here. -/
  | expectedValue
  /-- A literal name is misspelt. -/
  | expectedName
  /-- A colon is missing. -/
  | expectedColon
  /-- A list goes on without a comma. -/
  | expectedListEnd
  /-- An object goes on without a comma. -/
  | expectedObjectEnd
  /-- A key is not a string. -/
  | keyNotString
  /-- A number is malformed. -/
  | badNumber
  /-- A number is too large for a double. -/
  | numberRange
  /-- A backslash starts no escape. -/
  | badEscape
  /-- The second half of a surrogate pair stands alone. -/
  | loneSurrogate
  /-- The second half of a surrogate pair is missing. -/
  | missingSurrogate
  /-- A string holds a bare control character. -/
  | controlCharacter
  /-- A string is not UTF-8. -/
  | badUnicode
  /-- A comma stands before the end of a list or object. -/
  | trailingComma
  /-- Something follows the value. -/
  | trailingCharacters
  /-- Lists and objects are nested too deeply. -/
  | tooDeep
  /-- The value has not the expected form. -/
  | mismatch (text : String)
  deriving DecidableEq, Repr

/-- The text of a cause. -/
def Cause.message : Cause → String
  | .endInValue => "EOF while parsing a value"
  | .endInList => "EOF while parsing a list"
  | .endInObject => "EOF while parsing an object"
  | .endInString => "EOF while parsing a string"
  | .expectedValue => "expected value"
  | .expectedName => "expected ident"
  | .expectedColon => "expected `:`"
  | .expectedListEnd => "expected `,` or `]`"
  | .expectedObjectEnd => "expected `,` or `\x7d`"
  | .keyNotString => "key must be a string"
  | .badNumber => "invalid number"
  | .numberRange => "number out of range"
  | .badEscape => "invalid escape"
  | .loneSurrogate => "lone leading surrogate in hex escape"
  | .missingSurrogate => "unexpected end of hex escape"
  | .controlCharacter => "control character (\\u0000-\\u001F) found while parsing a string"
  | .badUnicode => "invalid unicode code point"
  | .trailingComma => "trailing comma"
  | .trailingCharacters => "trailing characters"
  | .tooDeep => "recursion limit exceeded"
  | .mismatch text => text

/-- A line and a column; lines count from one, columns from the bytes already read. -/
structure Place where
  line : Nat
  column : Nat
  deriving DecidableEq, Repr

/-- A cause and the place where it was noticed. -/
structure Fault where
  cause : Cause
  place? : Option Place
  deriving DecidableEq, Repr

/-- The text of a fault with its place. -/
def Fault.message (f : Fault) : String :=
  match f.place? with
  | none => f.cause.message
  | some p => f.cause.message ++ " at line " ++ toString p.line ++ " column " ++ toString p.column

end BlobVault.Json
