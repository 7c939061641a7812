import SqlSelect.Json.Fault
import SqlSelect.Json.Number
import SqlSelect.Text.Quoted

/-!
# Errors of descriptors

A text fails as a descriptor because it is not JSON that can be read, or
because the value that it holds does not fit. `DecodeError.message` says which,
in words.
-/

set_option autoImplicit false

namespace SqlSelect.Descriptor

open SqlSelect.Json (Fault Number)

/-- What was found where something else was expected. -/
inductive Found where
  | null
  | boolean (value : Bool)
  | integer (value : Int)
  | float (value : Binary64)
  | text (value : String)
  | array
  | object
  | bareVariant
deriving DecidableEq

def Found.message : Found → String
  | .null => "null"
  | .boolean b => "boolean \x60" ++ (if b then "true" else "false") ++ "\x60"
  | .integer n => "integer \x60" ++ (Numeral.ofInt n).text ++ "\x60"
  | .float x => "floating point \x60" ++ (Number.floatNumeral x).text ++ "\x60"
  | .text s => "string " ++ Text.quoted s
  | .array => "sequence"
  | .object => "map"
  | .bareVariant => "unit variant"

/-- Why a text does not describe what it should. -/
inductive DecodeError where
  /-- The text is not JSON, or is nested too deeply. -/
  | unreadable (fault : Fault)
  /-- A value is of another kind than expected. -/
  | wrongKind (found : Found) (expected : String)
  /-- A value is of the right kind but out of range. -/
  | wrongValue (found : Found) (expected : String)
  /-- An array ends before all that is expected was found. -/
  | wrongLength (length : Nat) (expected : String)
  | unknownVariant (name : String) (known : List String)
  | unknownMember (name : String) (known : List String)
  | missingMember (name : String)
  | repeatedMember (name : String)
  /-- A string stands for a float but names none. -/
  | notFloatWord (word : String)
  /-- A float is neither a number nor a string. -/
  | notFloat
deriving DecidableEq

def oneOf : List String → String
  | [a] => "\x60" ++ a ++ "\x60"
  | [a, b] => "\x60" ++ a ++ "\x60 or \x60" ++ b ++ "\x60"
  | names => "one of " ++ String.intercalate ", " (names.map fun a => "\x60" ++ a ++ "\x60")

namespace DecodeError

def message : DecodeError → String
  | .unreadable fault => fault.message
  | .wrongKind found expected => "invalid type: " ++ found.message ++ ", expected " ++ expected
  | .wrongValue found expected => "invalid value: " ++ found.message ++ ", expected " ++ expected
  | .wrongLength length expected =>
    "invalid length " ++ (Numeral.ofInt length).text ++ ", expected " ++ expected
  | .unknownVariant name known => "unknown variant \x60" ++ name ++ "\x60, expected " ++ oneOf known
  | .unknownMember name known => "unknown field \x60" ++ name ++ "\x60, expected " ++ oneOf known
  | .missingMember name => "missing field \x60" ++ name ++ "\x60"
  | .repeatedMember name => "duplicate field \x60" ++ name ++ "\x60"
  | .notFloatWord word =>
    "expected a number, \"nan\", \"inf\" or \"-inf\", got " ++ Text.quoted word
  | .notFloat => "data did not match any variant of untagged enum Repr"

end DecodeError

end SqlSelect.Descriptor
