import SqlSelect.Descriptor.Expr

/-!
# Queries as descriptors

A query is a record whose members may all be missing: a slot that is not
mentioned holds nothing. It refuses members that it does not know.
-/

set_option autoImplicit false

namespace SqlSelect.Descriptor

open SqlSelect.Json (FloatReader Value)

/-! ## Encoding -/

def encodeOrderBy (entry : OrderBy) : Value :=
  .record (((Named.all : List OrderMember).map Named.name).zip
    [encodeExpr entry.expr, encodeName entry.direction])

def encodeCount : Option UInt64 → Value
  | none => .null
  | some n => .number (.ofInt n.toNat)

def encodeTable : Option String → Value
  | none => .null
  | some name => .text name

def encodeQuery (q : Query) : Value :=
  .record (((Named.all : List QueryMember).map Named.name).zip
    [encodeTable q.table, .array (encodeList q.selects), .array (encodeList q.wheres),
      .array (encodeList q.groupBys), .array (encodeList q.havings),
      .array (q.orderBys.map encodeOrderBy), encodeCount q.limit, encodeCount q.offset,
      .boolean q.distinct])

/-! ## Decoding -/

variable [FloatReader]

/-- What each member of an `ORDER BY` entry holds. -/
abbrev OrderMember.Content : OrderMember → Type
  | .expr => Expr
  | .direction => Direction

def orderRecord : Record OrderMember where
  title := "struct OrderBy"
  members := Named.all
  arrayTitle := arrayTitle "struct OrderBy" 2
  mayLack i := i = .direction

def decodeOrderMember (room : Nat) : (i : OrderMember) → Decoder i.Content
  | .expr => decodeExpr room
  | .direction => decodeName room

/-- An `ORDER BY` entry, ascending unless it says otherwise. -/
def decodeOrderBy (room : Nat) : Decoder OrderBy := fun v => do
  let d ← orderRecord.decode room (fun m _ => decodeOrderMember m) v
  return { expr := ← d.need .expr, direction := (d .direction).getD .asc }

/-- What each member of a query holds. -/
abbrev QueryMember.Content : QueryMember → Type
  | .table => Option String
  | .selects | .wheres | .groupBys | .havings => List Expr
  | .orderBys => List OrderBy
  | .limit | .offset => Option UInt64
  | .distinct => Bool

def queryRecord : Record QueryMember where
  title := "struct Query"
  members := Named.all
  strict := true
  mayLack _ := true

def decodeQueryMember (room : Nat) : (i : QueryMember) → Decoder i.Content
  | .table => decodeOption decodeString
  | .selects | .wheres | .groupBys | .havings => decodeList room fun m _ => decodeExpr m
  | .orderBys => decodeList room fun m _ => decodeOrderBy m
  | .limit | .offset => decodeOption decodeUInt64
  | .distinct => decodeBool

def assembleQuery (d : Draft QueryMember.Content) : Query where
  table := (d .table).getD none
  selects := (d .selects).getD []
  wheres := (d .wheres).getD []
  groupBys := (d .groupBys).getD []
  havings := (d .havings).getD []
  orderBys := (d .orderBys).getD []
  limit := (d .limit).getD none
  offset := (d .offset).getD none
  distinct := (d .distinct).getD false

def decodeQuery (room : Nat) : Decoder Query := fun v =>
  assembleQuery <$> queryRecord.decode room (fun m _ => decodeQueryMember m) v

end SqlSelect.Descriptor
