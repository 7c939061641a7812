import SqlSelect.Literal
import SqlSelect.Operator

/-!
# Expressions

The expressions that may stand in a `SELECT` statement, and the functions that
build them. A value of another type stands for the expression that the class
`ToExpr` gives it: a scalar for its literal, an absent value for `NULL`.
-/

set_option autoImplicit false

namespace SqlSelect

/-- An expression. Names of functions and types are taken as they are; names of
fields and aliases are quoted where needed. -/
inductive Expr where
  /-- A value. -/
  | literal (value : Literal)
  /-- A column, or whatever else a name refers to. -/
  | field (name : String)
  /-- A comparison, or a logical or arithmetic operation. -/
  | binary (left : Expr) (op : BinaryOperator) (right : Expr)
  /-- Logical negation. -/
  | not (operand : Expr)
  /-- The number of rows, or of the rows where the operand is not `NULL`. -/
  | count (operand : Option Expr)
  /-- An aggregate of one operand. -/
  | aggregate (function : AggregateFunction) (operand : Expr)
  /-- A call of a function by name. -/
  | call (name : String) (arguments : List Expr)
  /-- An array of its items. -/
  | array (items : List Expr)
  /-- A tuple of its items. -/
  | tuple (items : List Expr)
  /-- Membership in a list of candidates. -/
  | isIn (operand : Expr) (candidates : List Expr)
  /-- Membership in a closed range. -/
  | between (operand low high : Expr)
  /-- The test for `NULL`, or its negation. -/
  | isNull (operand : Expr) (negated : Bool)
  /-- A choice among branches, each a condition and a result. With a subject
  the conditions are values to compare it with. -/
  | case (subject : Option Expr) (branches : List (Expr × Expr)) (otherwise : Option Expr)
  /-- A conversion to a type. -/
  | cast (operand : Expr) (type : String)
  /-- An expression with a name for its result. -/
  | aliased (operand : Expr) (name : String)

/-- Values that stand for expressions. -/
class ToExpr (α : Type) where
  toExpr : α → Expr

export ToExpr (toExpr)

instance : ToExpr Expr := ⟨id⟩

instance {α : Type} [ToLiteral α] : ToExpr α := ⟨fun x => .literal (toLiteral x)⟩

instance {α : Type} [ToExpr α] : ToExpr (Option α) :=
  ⟨fun x => (x.map toExpr).getD (.literal .null)⟩

namespace Expr

/-- The literal of a scalar. -/
def lit {α : Type} [ToLiteral α] (value : α) : Expr := .literal (toLiteral value)

/-- The literal `NULL`. -/
def null : Expr := .literal .null

/-- The number of rows. -/
def countAll : Expr := .count none

def sum (operand : Expr) : Expr := .aggregate .sum operand

def avg (operand : Expr) : Expr := .aggregate .avg operand

def min (operand : Expr) : Expr := .aggregate .min operand

def max (operand : Expr) : Expr := .aggregate .max operand

def eq (left right : Expr) : Expr := .binary left .eq right

def notEq (left right : Expr) : Expr := .binary left .notEq right

def lt (left right : Expr) : Expr := .binary left .lt right

def ltEq (left right : Expr) : Expr := .binary left .ltEq right

def gt (left right : Expr) : Expr := .binary left .gt right

def gtEq (left right : Expr) : Expr := .binary left .gtEq right

def and (left right : Expr) : Expr := .binary left .and right

def or (left right : Expr) : Expr := .binary left .or right

instance : Add Expr := ⟨fun left right => .binary left .add right⟩
instance : Sub Expr := ⟨fun left right => .binary left .sub right⟩
instance : Mul Expr := ⟨fun left right => .binary left .mul right⟩
instance : Div Expr := ⟨fun left right => .binary left .div right⟩

/-- All conditions at once: `((c₁ AND c₂) AND c₃)`. One condition stands alone,
and of none there is nothing to say. -/
def conjunction : List Expr → Option Expr
  | [] => none
  | first :: rest => some (rest.foldl and first)

end Expr

/-- A `CASE` expression that still takes branches. -/
structure OpenCase where
  subject : Option Expr := none
  branches : List (Expr × Expr) := []

namespace OpenCase

/-- One more branch, after the others. -/
def branch (c : OpenCase) (condition result : Expr) : OpenCase :=
  { c with branches := c.branches ++ [(condition, result)] }

/-- The expression, with a result for when no branch applies. -/
def otherwise (c : OpenCase) (result : Expr) : Expr :=
  .case c.subject c.branches (some result)

/-- The expression as it is. -/
def close (c : OpenCase) : Expr :=
  .case c.subject c.branches none

end OpenCase

end SqlSelect
