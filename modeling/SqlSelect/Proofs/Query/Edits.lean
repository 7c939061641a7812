import SqlSelect.Query.Statement

/-!
# Queries after changes

What a sequence of changes makes of a query is decided slot by slot: a slot that
is set holds what it was last set to, and one that is added to holds what was
added to it, in order. `Query.Calls` collects the changes to each slot;
`Query.edits_eq` says that nothing else counts, so that changes to different
slots may come in any order.
-/

set_option autoImplicit false

namespace SqlSelect.Query

/-! ## Changes to one slot -/

namespace Edit

/-- The name that a change sets the table to. -/
def table? : Edit → Option String
  | .setTable name => some name
  | _ => none

def limit? : Edit → Option UInt64
  | .setLimit n => some n
  | _ => none

def offset? : Edit → Option UInt64
  | .setOffset n => some n
  | _ => none

def distinct? : Edit → Option Bool
  | .setDistinct distinct => some distinct
  | _ => none

/-- What a change adds to the selected expressions. -/
def selects : Edit → List Expr
  | .addSelect expr => [expr]
  | .addSelects exprs => exprs
  | _ => []

def wheres : Edit → List Expr
  | .addWhere condition => [condition]
  | _ => []

def groupBys : Edit → List Expr
  | .addGroupBy expr => [expr]
  | .addGroupBys exprs => exprs
  | _ => []

def havings : Edit → List Expr
  | .addHaving condition => [condition]
  | _ => []

/-- What a change adds to the entries to order by. -/
def orderBys : Edit → List OrderBy
  | .addOrderBy expr direction => [⟨expr, direction⟩]
  | _ => []

end Edit

/-- The changes to each slot, in order. A change that adds several parts counts
as as many changes. -/
structure Calls where
  tables : List String
  selects : List Expr
  wheres : List Expr
  groupBys : List Expr
  havings : List Expr
  orderBys : List OrderBy
  limits : List UInt64
  offsets : List UInt64
  distincts : List Bool

/-- The changes of a sequence to each slot. -/
def calls (changes : List Edit) : Calls where
  tables := changes.filterMap Edit.table?
  selects := changes.flatMap Edit.selects
  wheres := changes.flatMap Edit.wheres
  groupBys := changes.flatMap Edit.groupBys
  havings := changes.flatMap Edit.havings
  orderBys := changes.flatMap Edit.orderBys
  limits := changes.filterMap Edit.limit?
  offsets := changes.filterMap Edit.offset?
  distincts := changes.filterMap Edit.distinct?

/-- The query with each slot changed: the last value set, or what was there
before and then all that was added. -/
def amended (q : Query) (c : Calls) : Query where
  table := c.tables.getLast?.or q.table
  selects := q.selects ++ c.selects
  wheres := q.wheres ++ c.wheres
  groupBys := q.groupBys ++ c.groupBys
  havings := q.havings ++ c.havings
  orderBys := q.orderBys ++ c.orderBys
  limit := c.limits.getLast?.or q.limit
  offset := c.offsets.getLast?.or q.offset
  distinct := c.distincts.getLastD q.distinct

/-! ## Steps and runs -/

/-- A value that is set takes the place of the one before. -/
theorem getLast?_cons_or {α : Type} (x : α) (later : List α) (before : Option α) :
    (x :: later).getLast?.or before = later.getLast?.or (some x) := by
  rw [List.getLast?_cons, Option.some_or]
  cases later.getLast? <;> rfl

/-- **One change** and then others, each slot by itself. -/
theorem amended_cons (q : Query) (change : Edit) (changes : List Edit) :
    q.amended (calls (change :: changes)) = (q.edit change).amended (calls changes) := by
  cases change <;>
    simp only [amended, calls, edit, List.filterMap_cons, List.flatMap_cons, getLast?_cons_or,
      List.getLastD_cons, List.append_assoc, List.nil_append, Edit.table?, Edit.limit?,
      Edit.offset?, Edit.distinct?, Edit.selects, Edit.wheres, Edit.groupBys, Edit.havings,
      Edit.orderBys]

/-- **A run of changes** amounts to the changes to each slot by itself. -/
theorem edits_eq (q : Query) (changes : List Edit) : q.edits changes = q.amended (calls changes) := by
  induction changes generalizing q with
  | nil => simp [edits, calls, amended]
  | cons change changes ih => rw [amended_cons, ← ih]; rfl

/-! ## Statements -/

/-- A query without a table, or with a nameless one, has no statement. -/
theorem statement_of_missingTable {q : Query} (h : q.table = none ∨ q.table = some "") :
    q.statement = .error .missingTable := by
  have unnamed : q.namedTable = none := by
    rcases h with h | h <;> simp [namedTable, h]
  rw [statement, unnamed]

/-- With a table, only the lack of something to select is an error. -/
theorem statement_of_table {q : Query} {name : String} (h : q.table = some name) (named : name ≠ "") :
    q.statement = if q.selects.isEmpty then .error .missingSelect else .ok (q.statementOver name) := by
  have table : q.namedTable = some name := by simp [namedTable, h, named]
  rw [statement, table]

/-- A query has a table, or its table is missing. -/
theorem table_cases (q : Query) :
    (q.table = none ∨ q.table = some "") ∨ ∃ name, q.table = some name ∧ name ≠ "" := by
  cases h : q.table with
  | none => exact .inl (.inl rfl)
  | some name =>
    by_cases named : name = ""
    · exact .inl (.inr (by rw [named]))
    · exact .inr ⟨name, rfl, named⟩

/-- What a query has for a statement, by what it has for a table and selects. -/
theorem statement_iff (q : Query) :
    (q.statement = .error .missingTable ↔ q.table = none ∨ q.table = some "") ∧
      (q.statement = .error .missingSelect ↔
        (∃ name, q.table = some name ∧ name ≠ "") ∧ q.selects = []) ∧
      ((∃ sql, q.statement = .ok sql) ↔
        (∃ name, q.table = some name ∧ name ≠ "") ∧ q.selects ≠ []) := by
  rcases q.table_cases with missing | ⟨name, table, named⟩
  · have none : ¬ ∃ name, q.table = some name ∧ name ≠ "" := by
      rintro ⟨name, table, named⟩
      rcases missing with missing | missing <;> simp_all
    simp [statement_of_missingTable missing, missing, none]
  · have there : ¬ (q.table = none ∨ q.table = some "") := by simp [table, named]
    rw [statement_of_table table named]
    cases selects : q.selects with
    | nil => simp [table, named]
    | cons e rest => simp [table, named]

/-- **A run of changes is decided slot by slot.** A slot that is set holds what
it was last set to; one that is added to holds what was there and then all that
was added, in order. So changes to different slots may come in any order; and
from the empty query on, the statement depends on the last table and on whether
anything was ever selected. -/
theorem edits_slotwise :
    (∀ (q : Query) (changes : List Edit), q.edits changes =
      { table := (changes.filterMap Edit.table?).getLast?.or q.table
        selects := q.selects ++ changes.flatMap Edit.selects
        wheres := q.wheres ++ changes.flatMap Edit.wheres
        groupBys := q.groupBys ++ changes.flatMap Edit.groupBys
        havings := q.havings ++ changes.flatMap Edit.havings
        orderBys := q.orderBys ++ changes.flatMap Edit.orderBys
        limit := (changes.filterMap Edit.limit?).getLast?.or q.limit
        offset := (changes.filterMap Edit.offset?).getLast?.or q.offset
        distinct := (changes.filterMap Edit.distinct?).getLastD q.distinct }) ∧
    (∀ (q : Query) (changes changes' : List Edit), calls changes = calls changes' →
      q.edits changes = q.edits changes' ∧
        (q.edits changes).statement = (q.edits changes').statement) ∧
    ∀ changes : List Edit,
      ((edits {} changes).statement = .error .missingTable ↔
        changes.filterMap Edit.table? = [] ∨
          (changes.filterMap Edit.table?).getLast? = some "") ∧
      ((edits {} changes).statement = .error .missingSelect ↔
        (∃ name, (changes.filterMap Edit.table?).getLast? = some name ∧ name ≠ "") ∧
          ∀ change ∈ changes, change.selects = []) ∧
      ((∃ sql, (edits {} changes).statement = .ok sql) ↔
        (∃ name, (changes.filterMap Edit.table?).getLast? = some name ∧ name ≠ "") ∧
          ∃ change ∈ changes, change.selects ≠ []) := by
  refine ⟨edits_eq, fun q changes changes' same => ?_, fun changes => ?_⟩
  · have equal : q.edits changes = q.edits changes' := by rw [edits_eq, edits_eq, same]
    exact ⟨equal, by rw [equal]⟩
  · have table : (edits {} changes).table = (changes.filterMap Edit.table?).getLast? := by
      rw [edits_eq]
      exact Option.or_none
    have selects : (edits {} changes).selects = changes.flatMap Edit.selects := by
      rw [edits_eq]
      exact List.nil_append _
    obtain ⟨noTable, noSelect, ok⟩ := statement_iff (edits {} changes)
    rw [table, List.getLast?_eq_none_iff] at noTable
    rw [table, selects] at noSelect ok
    rw [List.flatMap_eq_nil_iff] at noSelect
    rw [ne_eq, List.flatMap_eq_nil_iff, Classical.not_forall] at ok
    simp only [Classical.not_imp] at ok
    exact ⟨noTable, noSelect, ok⟩

/-- Two interleavings of the same changes to each slot. In one of them two
expressions are selected at once, in the other one after the other. -/
theorem edits_slotwise_interleaved :
    calls [.setLimit 5, .setTable "a", .addSelects [.field "x", .field "y"], .setTable "b"] =
      calls [.setTable "a", .addSelect (.field "x"), .setTable "b", .addSelect (.field "y"),
        .setLimit 5] ∧
    edits {} [.setLimit 5, .setTable "a", .addSelects [.field "x", .field "y"], .setTable "b"] =
      edits {} [.setTable "a", .addSelect (.field "x"), .setTable "b", .addSelect (.field "y"),
        .setLimit 5] ∧
    (edits {} [.setLimit 5, .setTable "a", .addSelects [.field "x", .field "y"],
        .setTable "b"]).statement =
      (edits {} [.setTable "a", .addSelect (.field "x"), .setTable "b", .addSelect (.field "y"),
        .setLimit 5]).statement :=
  ⟨rfl, edits_slotwise.2.1 {} _ _ rfl⟩

end SqlSelect.Query
