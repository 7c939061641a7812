/-!
# Faults of JSON texts

A `Fault` is a reason why a text, up to the place reached, is not JSON that can
be read. A text that merely ends too early is told apart from one that could
not be completed either.
-/

set_option autoImplicit false

namespace SqlSelect.Json

/-- A reason why a text cannot be read on. -/
inductive Fault where
  | endInValue
  | endInArray
  | endInObject
  | endInText
  | expectedColon
  | expectedArrayEnd
  | expectedObjectEnd
  | expectedWord
  | expectedValue
  | invalidEscape
  | invalidNumber
  | numberOutOfRange
  | controlCharacter
  | nameNotText
  | unpairedSurrogate
  | unfinishedSurrogate
  | trailingComma
  | trailingCharacters
  | tooDeep
deriving DecidableEq

namespace Fault

/-- The text ended before the value did. -/
def isEnd : Fault → Bool
  | .endInValue | .endInArray | .endInObject | .endInText => true
  | _ => false

def message : Fault → String
  | .endInValue => "EOF while parsing a value"
  | .endInArray => "EOF while parsing a list"
  | .endInObject => "EOF while parsing an object"
  | .endInText => "EOF while parsing a string"
  | .expectedColon => "expected \x60:\x60"
  | .expectedArrayEnd => "expected \x60,\x60 or \x60]\x60"
  | .expectedObjectEnd => "expected \x60,\x60 or \x60\x7d\x60"
  | .expectedWord => "expected ident"
  | .expectedValue => "expected value"
  | .invalidEscape => "invalid escape"
  | .invalidNumber => "invalid number"
  | .numberOutOfRange => "number out of range"
  | .controlCharacter =>
    "control character (\\u0000-\\u001F) found while parsing a string"
  | .nameNotText => "key must be a string"
  | .unpairedSurrogate => "lone leading surrogate in hex escape"
  | .unfinishedSurrogate => "unexpected end of hex escape"
  | .trailingComma => "trailing comma"
  | .trailingCharacters => "trailing characters"
  | .tooDeep => "recursion limit exceeded"

end Fault

end SqlSelect.Json
