/-
  Why a text is refused as plain data.

  A refusal has a cause and the place where it was found, a line and a column
  in bytes.  `ReadError.category` sorts the causes into three: the text ends too
  early, it is not well formed, or it is well formed and holds the wrong data.
-/

namespace DataBinding.Json

/-- What is wrong with a text. -/
inductive Cause where
  /-- The text ends inside a sequence. -/
  | endInList
  /-- The text ends inside a mapping. -/
  | endInObject
  /-- The text ends inside a string. -/
  | endInString
  /-- The text ends where a value should be. -/
  | endInValue
  /-- A key is not followed by a colon. -/
  | expectedColon
  /-- An item is followed by neither a comma nor the end of the sequence. -/
  | expectedListEnd
  /-- A member is followed by neither a comma nor the end of the mapping. -/
  | expectedObjectEnd
  /-- A word other than the three constants. -/
  | expectedIdent
  /-- A character that begins no value. -/
  | expectedValue
  /-- An unknown escape. -/
  | invalidEscape
  /-- A malformed number. -/
  | invalidNumber
  /-- A number too large for a double. -/
  | numberOutOfRange
  /-- A control character in a string. -/
  | controlCharacter
  /-- A key that is not a string. -/
  | keyNotString
  /-- A surrogate without its partner. -/
  | loneSurrogate
  /-- A comma before the end of a sequence or mapping. -/
  | trailingComma
  /-- Text after the value. -/
  | trailingCharacters
  /-- A leading surrogate that no escape follows. -/
  | endOfHexEscape
  /-- Values nested too deeply. -/
  | tooDeep
  /-- Well-formed data of the wrong shape, described in words. -/
  | wrongData (text : String)
  deriving DecidableEq, Repr

/-- The three sorts of causes. -/
inductive Category where
  /-- Malformed text. -/
  | malformed
  /-- A text that ends too early. -/
  | truncated
  /-- Well-formed data of the wrong shape. -/
  | wrongData
  deriving DecidableEq, Repr

namespace Cause

/-- The sort of a cause. -/
def category : Cause → Category
  | endInList | endInObject | endInString | endInValue => .truncated
  | wrongData _ => .wrongData
  | _ => .malformed

/-- A cause in words. -/
def text : Cause → String
  | endInList => "EOF while parsing a list"
  | endInObject => "EOF while parsing an object"
  | endInString => "EOF while parsing a string"
  | endInValue => "EOF while parsing a value"
  | expectedColon => "expected `:`"
  | expectedListEnd => "expected `,` or `]`"
  | expectedObjectEnd => "expected `,` or `\x7d`"
  | expectedIdent => "expected ident"
  | expectedValue => "expected value"
  | invalidEscape => "invalid escape"
  | invalidNumber => "invalid number"
  | numberOutOfRange => "number out of range"
  | controlCharacter => "control character (\\u0000-\\u001F) found while parsing a string"
  | keyNotString => "key must be a string"
  | loneSurrogate => "lone leading surrogate in hex escape"
  | trailingComma => "trailing comma"
  | trailingCharacters => "trailing characters"
  | endOfHexEscape => "unexpected end of hex escape"
  | tooDeep => "recursion limit exceeded"
  | wrongData text => text

end Cause

/-- A refusal: its cause and, when a text was read, the line and column. -/
structure ReadError where
  /-- What is wrong. -/
  cause : Cause
  /-- Line from 1, and column as a number of bytes. -/
  place : Option (Nat × Nat)
  deriving DecidableEq, Repr

namespace ReadError

/-- The sort of the cause. -/
def category (e : ReadError) : Category :=
  e.cause.category

/-- The refusal in words. -/
def message (e : ReadError) : String :=
  match e.place with
  | some (line, column) => s!"{e.cause.text} at line {line} column {column}"
  | none => e.cause.text

end ReadError

end DataBinding.Json
