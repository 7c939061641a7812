import SqlSelect.Binary.Shortest

/-!
# Literals

The values that stand in a statement as themselves. A string stands between
single quotes, and five of its characters are escaped by a backslash; a number
with a fraction has a point and never an exponent.
-/

set_option autoImplicit false

namespace SqlSelect

/-- A value that is written into the statement. -/
inductive Literal where
  | integer (value : Int64)
  | float (value : Binary64)
  | string (value : String)
  | boolean (value : Bool)
  | null
deriving DecidableEq

namespace Literal

def escapeChar (c : Char) : List Char :=
  if c = '\x5c' then ['\x5c', '\x5c']
  else if c = '\x27' then ['\x5c', '\x27']
  else if c = '\n' then ['\x5c', 'n']
  else if c = '\r' then ['\x5c', 'r']
  else if c = '\t' then ['\x5c', 't']
  else [c]

/-- The characters of a string literal between its quotes. -/
def escape (s : String) : String :=
  String.ofList (s.toList.flatMap escapeChar)

def quote (s : String) : String :=
  "'" ++ escape s ++ "'"

/-- The words for a number that is not finite. -/
def nonFinite (x : Binary64) : String :=
  if x.isNaN then "nan" else if x.negative then "-inf" else "inf"

/-- A finite number with all its places written out. -/
def positional (x : Binary64) : Numeral :=
  (x.shortest .away).positional x.negative

/-- A number in its shortest form, with a point in it. -/
def floatSql (x : Binary64) : String :=
  if x.isFinite then (positional x).text else nonFinite x

/-- The literal as a statement shows it. -/
def sql : Literal → String
  | .integer n => (Numeral.ofInt n.toInt).text
  | .float x => floatSql x
  | .string s => quote s
  | .boolean b => if b then "true" else "false"
  | .null => "NULL"

/-- Equality of values. It differs from equality on floats alone. -/
def sameValue : Literal → Literal → Bool
  | .integer m, .integer n => m == n
  | .float x, .float y => x.sameValue y
  | .string s, .string t => s == t
  | .boolean a, .boolean b => a == b
  | .null, .null => true
  | _, _ => false

end Literal

/-- A 64-bit number with the shortest decimal of a 32-bit one. -/
def Binary32.widen (x : Binary32) : Binary64 :=
  if x.isNaN then .nan .binary64
  else if x.isInfinite then .infinity .binary64 x.negative
  else .ofDecimal .binary64 x.negative (x.shortest .away)

/-- Values of other types that stand for literals. -/
class ToLiteral (α : Type) where
  toLiteral : α → Literal

export ToLiteral (toLiteral)

instance : ToLiteral Literal := ⟨id⟩
instance : ToLiteral Int8 := ⟨fun n => .integer n.toInt64⟩
instance : ToLiteral Int16 := ⟨fun n => .integer n.toInt64⟩
instance : ToLiteral Int32 := ⟨fun n => .integer n.toInt64⟩
instance : ToLiteral Int64 := ⟨.integer⟩
instance : ToLiteral UInt8 := ⟨fun n => .integer (.ofNat n.toNat)⟩
instance : ToLiteral UInt16 := ⟨fun n => .integer (.ofNat n.toNat)⟩
instance : ToLiteral UInt32 := ⟨fun n => .integer (.ofNat n.toNat)⟩
instance : ToLiteral Binary32 := ⟨fun x => .float (Binary32.widen x)⟩
instance : ToLiteral Binary64 := ⟨.float⟩
instance : ToLiteral Bool := ⟨.boolean⟩
instance : ToLiteral String := ⟨.string⟩

end SqlSelect
