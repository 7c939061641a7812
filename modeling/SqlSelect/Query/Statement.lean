import SqlSelect.Query.Basic
import SqlSelect.Expr.Render

/-!
# Statements

`Query.statement` writes the statement that a query describes, its clauses in
their fixed order. A query without a table, or without anything to select, has
none.
-/

set_option autoImplicit false

namespace SqlSelect

/-- Why a query has no statement. -/
inductive StatementError where
  | missingTable
  | missingSelect
deriving DecidableEq

def StatementError.message : StatementError → String
  | .missingTable => "query has no FROM table"
  | .missingSelect => "query has no SELECT expressions"

def OrderBy.sql (entry : OrderBy) : String :=
  entry.expr.sql ++ " " ++ entry.direction.sql

namespace Query

/-- A list of conditions as a clause: all of them have to hold. -/
def conditionClause (keyword : String) (conditions : List Expr) : String :=
  match Expr.conjunction conditions with
  | none => ""
  | some condition => keyword ++ condition.sql

/-- A list as a clause, unless it is empty. -/
def listClause (keyword : String) (entries : List String) : String :=
  if entries.isEmpty then "" else keyword ++ String.intercalate ", " entries

/-- A count as a clause, unless it is absent. -/
def countClause (keyword : String) : Option UInt64 → String
  | none => ""
  | some n => keyword ++ (Numeral.ofInt n.toNat).text

/-- The statement over a table. -/
def statementOver (q : Query) (table : String) : String :=
  "SELECT " ++ (if q.distinct then "DISTINCT " else "") ++
    String.intercalate ", " (q.selects.map Expr.sql) ++
    " FROM " ++ Identifier.sql table ++
    conditionClause " WHERE " q.wheres ++
    listClause " GROUP BY " (q.groupBys.map Expr.sql) ++
    conditionClause " HAVING " q.havings ++
    listClause " ORDER BY " (q.orderBys.map OrderBy.sql) ++
    countClause " LIMIT " q.limit ++
    countClause " OFFSET " q.offset

/-- The table that the query names; the empty name is none. -/
def namedTable (q : Query) : Option String :=
  q.table.filter (· ≠ "")

/-- The statement that the query describes. The table is looked for first. -/
def statement (q : Query) : Except StatementError String :=
  match q.namedTable with
  | none => .error .missingTable
  | some table =>
    if q.selects.isEmpty then .error .missingSelect else .ok (q.statementOver table)

end Query

end SqlSelect
