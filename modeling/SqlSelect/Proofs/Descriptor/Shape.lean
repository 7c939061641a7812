import SqlSelect.Descriptor.Query
import SqlSelect.Proofs.Json.Nesting

/-!
# The shapes of descriptors

A `Shape` is what a part of a descriptor describes: a query, an expression, the
body of a variant, a list of something. It settles how the part is decoded
(`Shape.decode`), and of what shapes the members and items in it are, so that what
is true of every part of a descriptor can be said once. A member that a record
does not know is of no shape: it is ignored, and `Value.heeded` counts how deep a
value is nested outside such members.
-/

set_option autoImplicit false

namespace SqlSelect.Descriptor

open SqlSelect.Json (FloatReader Name Value)

/-- What a part of a descriptor describes. -/
inductive Shape where
  /-- Nothing that is known. -/
  | any
  | unit | boolean | string | integer | float | count
  | operator | function | direction
  | literal
  | expr
  /-- What a variant of an expression holds that is a record. -/
  | body (tag : RecordTag)
  | order
  | query
  /-- Something, or `null`. -/
  | option (s : Shape)
  /-- An array of any length. -/
  | list (s : Shape)
  /-- An array of two. -/
  | pair (s : Shape)

/-! ## Shapes of parts -/

/-- What a variant of a literal holds. -/
abbrev LiteralTag.shape : LiteralTag → Shape
  | .integer => .integer
  | .float => .float
  | .string => .string
  | .boolean => .boolean
  | .null => .unit

/-- What a variant of an expression holds. -/
abbrev ExprTag.shape : ExprTag → Shape
  | .plain .literal => .literal
  | .plain .field => .string
  | .plain .not => .expr
  | .plain .count => .option .expr
  | .plain .array | .plain .tuple => .list .expr
  | .record tag => .body tag

/-- What a member of a record in an expression holds. -/
abbrev ExprMember.shape : ExprMember → Shape
  | .left | .right | .arg | .expr | .low | .high => .expr
  | .op => .operator
  | .func => .function
  | .name | .dataType => .string
  | .args | .list => .list .expr
  | .negated => .boolean
  | .subject | .default => .option .expr
  | .branches => .list (.pair .expr)

abbrev OrderMember.shape : OrderMember → Shape
  | .expr => .expr
  | .direction => .direction

abbrev QueryMember.shape : QueryMember → Shape
  | .table => .option .string
  | .selects | .wheres | .groupBys | .havings => .list .expr
  | .orderBys => .list .order
  | .limit | .offset => .option .count
  | .distinct => .boolean

namespace Shape

/-- The shape of a member of an object, `none` if the member is ignored. -/
def member? : Shape → String → Option Shape
  | .literal, name => some ((Named.findIn? Named.all name).elim .any LiteralTag.shape)
  | .expr, name => some ((Named.findIn? Named.all name).elim .any ExprTag.shape)
  | .operator, _ | .function, _ | .direction, _ => some .unit
  | .body tag, name => (Named.findIn? tag.members name).map ExprMember.shape
  | .order, name => (Named.findIn? Named.all name).map OrderMember.shape
  | .query, name => some ((Named.findIn? Named.all name).elim .any QueryMember.shape)
  | .option s, name => s.member? name
  | _, _ => some .any

/-- The shape of an item of an array, by its place. -/
def item : Shape → Nat → Shape
  | .body tag, k => tag.members[k]?.elim .any ExprMember.shape
  | .order, k => (Named.all : List OrderMember)[k]?.elim .any OrderMember.shape
  | .query, k => (Named.all : List QueryMember)[k]?.elim .any QueryMember.shape
  | .option s, k => s.item k
  | .list s, _ | .pair s, _ => s
  | _, _ => .any

/-! ## Decoding by shape -/

/-- What is described. -/
abbrev Content : Shape → Type
  | .any | .unit => Unit
  | .boolean => Bool
  | .string => String
  | .integer => Int64
  | .float => Binary64
  | .count => UInt64
  | .operator => BinaryOperator
  | .function => AggregateFunction
  | .direction => Direction
  | .literal => Literal
  | .expr | .body _ => Expr
  | .order => OrderBy
  | .query => Query
  | .option s => Option s.Content
  | .list s => List s.Content
  | .pair s => s.Content × s.Content

variable [FloatReader]

/-- The decoder of the members of a record in an expression. -/
abbrev exprMember (room : Nat) (i : ExprMember) : Decoder i.Content :=
  decodeExprMember room (fun m _ => decodeExpr m) i

/-- The decoder of a shape. Of what is not known nothing is decoded. -/
def decode : (s : Shape) → (room : Nat) → Decoder s.Content
  | .any => fun _ _ => .ok ()
  | .unit => fun _ => decodeUnit
  | .boolean => fun _ => decodeBool
  | .string => fun _ => decodeString
  | .integer => fun _ => decodeInt64
  | .float => decodeFloat
  | .count => fun _ => decodeUInt64
  | .operator => decodeName
  | .function => decodeName
  | .direction => decodeName
  | .literal => decodeLiteral
  | .expr => decodeExpr
  | .body tag => fun room v => tag.record.decode room (fun m _ => exprMember m) v >>= tag.assemble
  | .order => decodeOrderBy
  | .query => decodeQuery
  | .option s => fun room => decodeOption (s.decode room)
  | .list s => fun room => decodeList room fun m _ => s.decode m
  | .pair s => fun room => decodePair room (fun m _ => s.decode m) fun m _ => s.decode m

end Shape

end SqlSelect.Descriptor

/-! ## Nesting outside ignored members -/

namespace SqlSelect.Json.Value

open SqlSelect.Descriptor (Shape)

mutual

/-- How many arrays and objects are open at once in a value of a shape, outside
members that are ignored. -/
def heeded (s : Shape) : Value → Nat
  | .array items => heededItems s 0 items + 1
  | .object members => heededMembers s members + 1
  | _ => 0

/-- How many are open at once in the items, from a place on. -/
def heededItems (s : Shape) (k : Nat) : List Value → Nat
  | [] => 0
  | item :: rest => max (heeded (s.item k) item) (heededItems s (k + 1) rest)

def heededMembers (s : Shape) : List (Name × Value) → Nat
  | [] => 0
  | (.ok name, content) :: rest =>
    max (match s.member? name with
      | some part => heeded part content
      | none => 0) (heededMembers s rest)
  | (.error _, content) :: rest => max (heeded .any content) (heededMembers s rest)

end

/-- An entry does not know the member `note`, and what is nested in it does not count. -/
example : heeded .order (.record [("note", .array [.array []]), ("expr", .single "field" .null)]) = 2 :=
  rfl

end SqlSelect.Json.Value
