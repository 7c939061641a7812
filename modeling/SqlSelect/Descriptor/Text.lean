import SqlSelect.Descriptor.Query
import SqlSelect.Json.Printer
import SqlSelect.Json.Reader

/-!
# Descriptors as texts

The texts of descriptors: what `decode` accepts and `encode` writes. Arrays and
objects may be nested `maxDepth` deep.
-/

set_option autoImplicit false

namespace SqlSelect.Descriptor

open SqlSelect.Json (Document FloatReader Value)

/-- How many arrays and objects may be open at once. -/
def maxDepth : Nat := 127

/-- Decodes a text, all of it. -/
def decodeText {α : Type} (decode : (room : Nat) → Decoder α) (text : String) :
    Except DecodeError α := do
  let document := Document.read text
  let x ← decode maxDepth document.value
  if document.trailing then .error (.unreadable .trailingCharacters) else .ok x

/-- The types that have descriptors. -/
class Described (α : Type) where
  encodeValue : α → Value
  decodeValue : (room : Nat) → Decoder α

section

variable [FloatReader]

instance : Described Expr := ⟨encodeExpr, decodeExpr⟩
instance : Described Literal := ⟨encodeLiteral, decodeLiteral⟩
instance : Described Query := ⟨encodeQuery, decodeQuery⟩
instance : Described OrderBy := ⟨encodeOrderBy, decodeOrderBy⟩
instance : Described Direction := ⟨encodeName, decodeName⟩
instance : Described AggregateFunction := ⟨encodeName, decodeName⟩
instance : Described BinaryOperator := ⟨encodeName, decodeName⟩

end

/-- The descriptor of a value. -/
def encode {α : Type} [Described α] (x : α) : String :=
  (Described.encodeValue x).compact

/-- The value that a text describes. -/
def decode (α : Type) [Described α] (text : String) : Except DecodeError α :=
  decodeText Described.decodeValue text

/-- Where nothing is said about the reader of floats, it is the one that rounds
correctly. -/
instance : FloatReader := .nearest

end SqlSelect.Descriptor
