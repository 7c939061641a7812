import SqlSelect.Expr.Basic
import SqlSelect.Identifier

/-!
# The text of expressions

`Expr.sql` is the text of an expression in a statement. Every expression has
one text, and it does not depend on where the expression stands: parentheses
belong to the expressions that bring them along.
-/

set_option autoImplicit false

namespace SqlSelect

mutual

/-- The expression as a statement shows it. -/
def Expr.sql : Expr → String
  | .literal value => value.sql
  | .field name => Identifier.sql name
  | .binary left op right =>
    if op.wraps then "(" ++ left.sql ++ " " ++ op.sql ++ " " ++ right.sql ++ ")"
    else left.sql ++ " " ++ op.sql ++ " " ++ right.sql
  | .not operand => "NOT (" ++ operand.sql ++ ")"
  | .count none => "COUNT(*)"
  | .count (some operand) => "COUNT(" ++ operand.sql ++ ")"
  | .aggregate function operand => function.sql ++ "(" ++ operand.sql ++ ")"
  | .call name arguments => name ++ "(" ++ listSql arguments ++ ")"
  | .array items => "[" ++ listSql items ++ "]"
  | .tuple items => "(" ++ listSql items ++ ")"
  | .isIn operand candidates => operand.sql ++ " IN (" ++ listSql candidates ++ ")"
  | .between operand low high => operand.sql ++ " BETWEEN " ++ low.sql ++ " AND " ++ high.sql
  | .isNull operand negated => operand.sql ++ (if negated then " IS NOT NULL" else " IS NULL")
  | .case subject branches otherwise =>
    "CASE" ++ afterSql " " subject ++ branchesSql branches ++ afterSql " ELSE " otherwise ++ " END"
  | .cast operand type => "CAST(" ++ operand.sql ++ " AS " ++ type ++ ")"
  | .aliased operand name => operand.sql ++ " AS " ++ Identifier.sql name

/-- Expressions one after the other, with commas between them. -/
def listSql : List Expr → String
  | [] => ""
  | e :: rest => e.sql ++ tailSql rest

/-- Each expression with a comma before it. -/
def tailSql : List Expr → String
  | [] => ""
  | e :: rest => ", " ++ e.sql ++ tailSql rest

/-- An expression after a word, or nothing. -/
def afterSql (word : String) : Option Expr → String
  | none => ""
  | some e => word ++ e.sql

def branchesSql : List (Expr × Expr) → String
  | [] => ""
  | (condition, result) :: rest =>
    " WHEN " ++ condition.sql ++ " THEN " ++ result.sql ++ branchesSql rest

end

end SqlSelect
