import SqlSelect.Query.Basic

/-!
# Names in descriptors

A descriptor is a JSON document for an expression or a query. Its objects name
variants and members; the types here enumerate those names, each type in the
order in which its names are listed and its members are written.
-/

set_option autoImplicit false

namespace SqlSelect.Descriptor

/-- A type whose values have names. -/
class Named (ι : Type) where
  /-- All values, in order. -/
  all : List ι
  name : ι → String

namespace Named

variable {ι : Type} [Named ι]

/-- The names of all values. -/
def names (ι : Type) [Named ι] : List String := (all : List ι).map name

/-- The value of the given name among some values. -/
def findIn? (among : List ι) (s : String) : Option ι :=
  among.find? fun i => name i == s

end Named

instance : Named BinaryOperator where
  all := [.eq, .notEq, .lt, .ltEq, .gt, .gtEq, .and, .or, .add, .sub, .mul, .div]
  name
    | .eq => "eq"
    | .notEq => "not_eq"
    | .lt => "lt"
    | .ltEq => "lt_eq"
    | .gt => "gt"
    | .gtEq => "gt_eq"
    | .and => "and"
    | .or => "or"
    | .add => "add"
    | .sub => "sub"
    | .mul => "mul"
    | .div => "div"

instance : Named AggregateFunction where
  all := [.sum, .avg, .min, .max]
  name
    | .sum => "sum"
    | .avg => "avg"
    | .min => "min"
    | .max => "max"

instance : Named Direction where
  all := [.asc, .desc]
  name
    | .asc => "asc"
    | .desc => "desc"

inductive LiteralTag where
  | integer | float | string | boolean | null
deriving DecidableEq

instance : Named LiteralTag where
  all := [.integer, .float, .string, .boolean, .null]
  name
    | .integer => "integer"
    | .float => "float"
    | .string => "string"
    | .boolean => "boolean"
    | .null => "null"

/-- The variants of an expression that hold one value. -/
inductive PlainTag where
  | literal | field | not | count | array | tuple
deriving DecidableEq

/-- The variants of an expression that hold a record. -/
inductive RecordTag where
  | binary | aggregate | function | isIn | between | isNull | case | cast | aliased
deriving DecidableEq

/-- The variants of an expression. -/
inductive ExprTag where
  | plain (tag : PlainTag)
  | record (tag : RecordTag)
deriving DecidableEq

def PlainTag.name : PlainTag → String
  | .literal => "literal"
  | .field => "field"
  | .not => "not"
  | .count => "count"
  | .array => "array"
  | .tuple => "tuple"

def RecordTag.name : RecordTag → String
  | .binary => "binary"
  | .aggregate => "aggregate"
  | .function => "function"
  | .isIn => "in"
  | .between => "between"
  | .isNull => "is_null"
  | .case => "case"
  | .cast => "cast"
  | .aliased => "alias"

instance : Named ExprTag where
  all := [.plain .literal, .plain .field, .record .binary, .plain .not, .plain .count,
    .record .aggregate, .record .function, .plain .array, .plain .tuple, .record .isIn,
    .record .between, .record .isNull, .record .case, .record .cast, .record .aliased]
  name
    | .plain tag => tag.name
    | .record tag => tag.name

/-- The members of the records in an expression. -/
inductive ExprMember where
  | left | op | right | func | arg | name | args | expr | list | low | high | negated
  | subject | branches | default | dataType
deriving DecidableEq

instance : Named ExprMember where
  all := [.left, .op, .right, .func, .arg, .name, .args, .expr, .list, .low, .high, .negated,
    .subject, .branches, .default, .dataType]
  name
    | .left => "left"
    | .op => "op"
    | .right => "right"
    | .func => "func"
    | .arg => "arg"
    | .name => "name"
    | .args => "args"
    | .expr => "expr"
    | .list => "list"
    | .low => "low"
    | .high => "high"
    | .negated => "negated"
    | .subject => "subject"
    | .branches => "branches"
    | .default => "default"
    | .dataType => "data_type"

inductive OrderMember where
  | expr | direction
deriving DecidableEq

instance : Named OrderMember where
  all := [.expr, .direction]
  name
    | .expr => "expr"
    | .direction => "direction"

inductive QueryMember where
  | table | selects | wheres | groupBys | havings | orderBys | limit | offset | distinct
deriving DecidableEq

instance : Named QueryMember where
  all := [.table, .selects, .wheres, .groupBys, .havings, .orderBys, .limit, .offset, .distinct]
  name
    | .table => "table"
    | .selects => "select"
    | .wheres => "where"
    | .groupBys => "group_by"
    | .havings => "having"
    | .orderBys => "order_by"
    | .limit => "limit"
    | .offset => "offset"
    | .distinct => "distinct"

/-- The members of each record in an expression, in order. -/
def RecordTag.members : RecordTag → List ExprMember
  | .binary => [.left, .op, .right]
  | .aggregate => [.func, .arg]
  | .function => [.name, .args]
  | .isIn => [.expr, .list]
  | .between => [.expr, .low, .high]
  | .isNull => [.expr, .negated]
  | .case => [.subject, .branches, .default]
  | .cast => [.expr, .dataType]
  | .aliased => [.expr, .name]

end SqlSelect.Descriptor
