import SqlSelect.Expr.SameValue

/-!
# Queries

A `Query` holds what each clause of a `SELECT` statement is to say. A
`Query.Edit` is one change to it: a setter replaces what its slot held, the
others add at the end of theirs. Nothing is checked before the statement is
written.
-/

set_option autoImplicit false

namespace SqlSelect

/-- An entry of an `ORDER BY` clause. -/
structure OrderBy where
  expr : Expr
  direction : Direction := .asc

/-- What the clauses of a statement are to say. -/
structure Query where
  table : Option String := none
  selects : List Expr := []
  wheres : List Expr := []
  groupBys : List Expr := []
  havings : List Expr := []
  orderBys : List OrderBy := []
  limit : Option UInt64 := none
  offset : Option UInt64 := none
  distinct : Bool := false

/-- Two entries order by the same expression in the same direction. -/
def OrderBy.sameValue (a b : OrderBy) : Bool :=
  a.expr.sameValue b.expr && a.direction == b.direction

namespace Query

/-- A change to a query. -/
inductive Edit where
  | setTable (name : String)
  | addSelect (expr : Expr)
  | addSelects (exprs : List Expr)
  | addWhere (condition : Expr)
  | addGroupBy (expr : Expr)
  | addGroupBys (exprs : List Expr)
  | addHaving (condition : Expr)
  | addOrderBy (expr : Expr) (direction : Direction)
  | setLimit (n : UInt64)
  | setOffset (n : UInt64)
  | setDistinct (distinct : Bool)

/-- The query after a change. -/
def edit (q : Query) : Edit → Query
  | .setTable name => { q with table := some name }
  | .addSelect expr => { q with selects := q.selects ++ [expr] }
  | .addSelects exprs => { q with selects := q.selects ++ exprs }
  | .addWhere condition => { q with wheres := q.wheres ++ [condition] }
  | .addGroupBy expr => { q with groupBys := q.groupBys ++ [expr] }
  | .addGroupBys exprs => { q with groupBys := q.groupBys ++ exprs }
  | .addHaving condition => { q with havings := q.havings ++ [condition] }
  | .addOrderBy expr direction => { q with orderBys := q.orderBys ++ [⟨expr, direction⟩] }
  | .setLimit n => { q with limit := some n }
  | .setOffset n => { q with offset := some n }
  | .setDistinct distinct => { q with distinct }

/-- The query after changes, one after the other. -/
def edits (q : Query) (changes : List Edit) : Query :=
  changes.foldl edit q

/-- Two queries say the same in every clause. -/
def sameValue (a b : Query) : Bool :=
  a.table == b.table && sameList a.selects b.selects && sameList a.wheres b.wheres &&
    sameList a.groupBys b.groupBys && sameList a.havings b.havings &&
    (a.orderBys.length == b.orderBys.length &&
      (a.orderBys.zip b.orderBys).all fun (x, y) => x.sameValue y) &&
    a.limit == b.limit && a.offset == b.offset && a.distinct == b.distinct

end Query

end SqlSelect
