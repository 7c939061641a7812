import SqlSelect.Descriptor.Record

/-!
# Expressions as descriptors

`encodeExpr` gives the JSON value of an expression, with every member of every
record; `decodeExpr` accepts that value and its other spellings. Its recursion
ends because each part of an expression stands inside an array or object, and
so has less room than the whole.
-/

set_option autoImplicit false

namespace SqlSelect.Descriptor

open SqlSelect.Json (FloatReader Name Number Value)

/-! ## Encoding -/

def encodeName {ι : Type} [Named ι] (i : ι) : Value := .text (Named.name i)

/-- A variant and what it holds. -/
def encodeVariant {ι : Type} [Named ι] (i : ι) (content : Value) : Value :=
  .single (Named.name i) content

/-- A float is a number if it is finite and a word otherwise. -/
def encodeFloat (x : Binary64) : Value :=
  if x.isFinite then .number (Number.floatNumeral x) else .text (Literal.nonFinite x)

def encodeLiteral : Literal → Value
  | .integer n => encodeVariant LiteralTag.integer (.number (.ofInt n.toInt))
  | .float x => encodeVariant LiteralTag.float (encodeFloat x)
  | .string s => encodeVariant LiteralTag.string (.text s)
  | .boolean b => encodeVariant LiteralTag.boolean (.boolean b)
  | .null => encodeName LiteralTag.null

/-- A variant that holds one value. -/
def encodePlain (tag : PlainTag) (content : Value) : Value :=
  encodeVariant (ExprTag.plain tag) content

/-- A variant that holds a record, with the contents of its members in order. -/
def encodeRecord (tag : RecordTag) (contents : List Value) : Value :=
  encodeVariant (ExprTag.record tag) (.record ((tag.members.map Named.name).zip contents))

mutual

def encodeExpr : Expr → Value
  | .literal value => encodePlain .literal (encodeLiteral value)
  | .field name => encodePlain .field (.text name)
  | .binary left op right => encodeRecord .binary [encodeExpr left, encodeName op, encodeExpr right]
  | .not operand => encodePlain .not (encodeExpr operand)
  | .count operand => encodePlain .count (encodeOption operand)
  | .aggregate function operand => encodeRecord .aggregate [encodeName function, encodeExpr operand]
  | .call name arguments => encodeRecord .function [.text name, .array (encodeList arguments)]
  | .array items => encodePlain .array (.array (encodeList items))
  | .tuple items => encodePlain .tuple (.array (encodeList items))
  | .isIn operand candidates =>
    encodeRecord .isIn [encodeExpr operand, .array (encodeList candidates)]
  | .between operand low high =>
    encodeRecord .between [encodeExpr operand, encodeExpr low, encodeExpr high]
  | .isNull operand negated => encodeRecord .isNull [encodeExpr operand, .boolean negated]
  | .case subject branches otherwise =>
    encodeRecord .case
      [encodeOption subject, .array (encodeBranches branches), encodeOption otherwise]
  | .cast operand type => encodeRecord .cast [encodeExpr operand, .text type]
  | .aliased operand name => encodeRecord .aliased [encodeExpr operand, .text name]

def encodeList : List Expr → List Value
  | [] => []
  | e :: rest => encodeExpr e :: encodeList rest

def encodeOption : Option Expr → Value
  | none => .null
  | some e => encodeExpr e

/-- The values of branches, each an array of two. -/
def encodeBranches : List (Expr × Expr) → List Value
  | [] => []
  | (condition, result) :: rest =>
    .array [encodeExpr condition, encodeExpr result] :: encodeBranches rest

end

/-! ## Decoding -/

variable [FloatReader]

mutual

/-- Reads a value whole, whatever it is, and finds every fault in it. -/
def readWhole (room : Nat) : Value → Except DecodeError Unit
  | .null | .boolean _ | .text _ => .ok ()
  | .number n => do let _ ← readNumeral n
  | .array items =>
    match room with
    | 0 => .error (.unreadable .tooDeep)
    | room + 1 => readWholeItems room items
  | .object members =>
    match room with
    | 0 => .error (.unreadable .tooDeep)
    | room + 1 => readWholeMembers room members
  | .flawed flaw => .error (.unreadable flaw.asValue)

def readWholeItems (room : Nat) : List Value → Except DecodeError Unit
  | [] => .ok ()
  | item :: rest => do readWhole room item; readWholeItems room rest

def readWholeMembers (room : Nat) : List (Name × Value) → Except DecodeError Unit
  | [] => .ok ()
  | (name, content) :: rest => do
    let _ ← readName name
    readWhole room content
    readWholeMembers room rest

end

/-- A float: a number, or one of the words for those that are not finite. The
value is read whole before it is looked at. -/
def decodeFloat (room : Nat) : Decoder Binary64 := fun v => do
  readWhole room v
  match v with
  | .number n => return (← readNumeral n).toFloat
  | .text "nan" => return .nan .binary64
  | .text "inf" => return .infinity .binary64 false
  | .text "-inf" => return .infinity .binary64 true
  | .text word => .error (.notFloatWord word)
  | _ => .error .notFloat

def decodeLiteral (room : Nat) : Decoder Literal :=
  decodeVariant LiteralTag room
    (fun
      | .null => .ok .null
      | _ => .error (.wrongKind .bareVariant "newtype variant"))
    fun m _ tag content =>
      match tag with
      | .integer => .integer <$> decodeInt64 content
      | .float => .float <$> decodeFloat m content
      | .string => .string <$> decodeString content
      | .boolean => .boolean <$> decodeBool content
      | .null => do decodeUnit content; return .null

/-- What each member of a record in an expression holds. -/
abbrev ExprMember.Content : ExprMember → Type
  | .left | .right | .arg | .expr | .low | .high => Expr
  | .op => BinaryOperator
  | .func => AggregateFunction
  | .name | .dataType => String
  | .args | .list => List Expr
  | .negated => Bool
  | .subject | .default => Option Expr
  | .branches => List (Expr × Expr)

/-- The decoder of each member, given that of expressions in no more room. -/
def decodeExprMember (room : Nat) (expr : (m : Nat) → m ≤ room → Decoder Expr) :
    (i : ExprMember) → Decoder i.Content
  | .left | .right | .arg | .expr | .low | .high => expr room (Nat.le_refl _)
  | .op => decodeName room
  | .func => decodeName room
  | .name | .dataType => decodeString
  | .args | .list => decodeList room fun m h => expr m (Nat.le_of_lt h)
  | .negated => decodeBool
  | .subject | .default => decodeOption (expr room (Nat.le_refl _))
  | .branches => decodeList room fun m h =>
    decodePair m (fun k hk => expr k (Nat.le_of_lt (Nat.lt_trans hk h)))
      fun k hk => expr k (Nat.le_of_lt (Nat.lt_trans hk h))

/-- What messages call the record of a variant. -/
def RecordTag.title : RecordTag → String
  | .binary => "struct variant Expr::Binary"
  | .aggregate => "struct variant Expr::Aggregate"
  | .function => "struct variant Expr::Function"
  | .isIn => "struct variant Expr::In"
  | .between => "struct variant Expr::Between"
  | .isNull => "struct variant Expr::IsNull"
  | .case => "struct variant Expr::Case"
  | .cast => "struct variant Expr::Cast"
  | .aliased => "struct variant Expr::Alias"

/-- What messages call an array of some length. -/
def arrayTitle (title : String) (length : Nat) : String :=
  title ++ " with " ++ (Numeral.ofInt length).text ++
    (if length = 1 then " element" else " elements")

def RecordTag.record (tag : RecordTag) : Record ExprMember where
  title := tag.title
  members := tag.members
  arrayTitle := arrayTitle tag.title tag.members.length

/-- The expression with the given members. Only the subject and the default of
a choice may be missing. -/
def RecordTag.assemble (tag : RecordTag) (d : Draft ExprMember.Content) :
    Except DecodeError Expr :=
  match tag with
  | .binary => return .binary (← d.need .left) (← d.need .op) (← d.need .right)
  | .aggregate => return .aggregate (← d.need .func) (← d.need .arg)
  | .function => return .call (← d.need .name) (← d.need .args)
  | .isIn => return .isIn (← d.need .expr) (← d.need .list)
  | .between => return .between (← d.need .expr) (← d.need .low) (← d.need .high)
  | .isNull => return .isNull (← d.need .expr) (← d.need .negated)
  | .case => return .case ((d .subject).getD none) (← d.need .branches) ((d .default).getD none)
  | .cast => return .cast (← d.need .expr) (← d.need .dataType)
  | .aliased => return .aliased (← d.need .expr) (← d.need .name)

/-- An expression, given the decoder of its parts. -/
def decodeExprWith (room : Nat) (expr : (m : Nat) → m < room → Decoder Expr) : Decoder Expr :=
  decodeVariant ExprTag room
    (fun
      | .plain _ => .error (.wrongKind .bareVariant "newtype variant")
      | .record _ => .error (.wrongKind .bareVariant "struct variant"))
    fun m h tag content =>
      match tag with
      | .plain .literal => .literal <$> decodeLiteral m content
      | .plain .field => .field <$> decodeString content
      | .plain .not => .not <$> expr m h content
      | .plain .count => .count <$> decodeOption (expr m h) content
      | .plain .array => .array <$> decodeList m (fun k hk => expr k (Nat.lt_trans hk h)) content
      | .plain .tuple => .tuple <$> decodeList m (fun k hk => expr k (Nat.lt_trans hk h)) content
      | .record tag => do
        let member k (hk : k < m) := decodeExprMember k fun j hj =>
          expr j (Nat.lt_of_le_of_lt hj (Nat.lt_trans hk h))
        tag.assemble (← tag.record.decode m member content)

/-- An expression, in the room that is left for it. -/
def decodeExpr (room : Nat) : Decoder Expr :=
  decodeExprWith room fun m _ => decodeExpr m
termination_by room

end SqlSelect.Descriptor
