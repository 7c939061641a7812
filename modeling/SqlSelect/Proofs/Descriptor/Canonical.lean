import Mathlib
import SqlSelect.Query.Statement

/-!
# One not-a-number for all

A descriptor has one word for everything that is not a number. `canonical` puts
the one not-a-number in place of every other and changes nothing else: where all
floats are numbers it changes nothing (`Query.canonical_of_numbers`), and a statement
never shows the difference (`Query.statement_canonical`).
-/

set_option autoImplicit false

namespace SqlSelect

/-- The number, or the one not-a-number. -/
def Binary.canonical {f : Format} (x : Binary f) : Binary f :=
  if x.isNaN then .nan f else x

/-- The literal with the one not-a-number. -/
def Literal.canonical : Literal → Literal
  | .float x => .float x.canonical
  | value => value

mutual

/-- The expression with the one not-a-number throughout. -/
def Expr.canonical : Expr → Expr
  | .literal value => .literal value.canonical
  | .field name => .field name
  | .binary left op right => .binary left.canonical op right.canonical
  | .not operand => .not operand.canonical
  | .count operand => .count (optionCanonical operand)
  | .aggregate function operand => .aggregate function operand.canonical
  | .call name arguments => .call name (listCanonical arguments)
  | .array items => .array (listCanonical items)
  | .tuple items => .tuple (listCanonical items)
  | .isIn operand candidates => .isIn operand.canonical (listCanonical candidates)
  | .between operand low high => .between operand.canonical low.canonical high.canonical
  | .isNull operand negated => .isNull operand.canonical negated
  | .case subject branches otherwise =>
    .case (optionCanonical subject) (branchesCanonical branches) (optionCanonical otherwise)
  | .cast operand type => .cast operand.canonical type
  | .aliased operand name => .aliased operand.canonical name

def listCanonical : List Expr → List Expr
  | [] => []
  | e :: rest => e.canonical :: listCanonical rest

def optionCanonical : Option Expr → Option Expr
  | none => none
  | some e => some e.canonical

def branchesCanonical : List (Expr × Expr) → List (Expr × Expr)
  | [] => []
  | (condition, result) :: rest =>
    (condition.canonical, result.canonical) :: branchesCanonical rest

end

def OrderBy.canonical (entry : OrderBy) : OrderBy :=
  { entry with expr := entry.expr.canonical }

def Query.canonical (q : Query) : Query :=
  { q with
    selects := listCanonical q.selects
    wheres := listCanonical q.wheres
    groupBys := listCanonical q.groupBys
    havings := listCanonical q.havings
    orderBys := q.orderBys.map OrderBy.canonical }

/-! ## Without what is not a number -/

def Literal.floats : Literal → List Binary64
  | .float x => [x]
  | _ => []

mutual

/-- The floats in an expression. -/
def Expr.floats : Expr → List Binary64
  | .literal value => value.floats
  | .field _ => []
  | .binary left _ right => left.floats ++ right.floats
  | .not operand => operand.floats
  | .count operand => optionFloats operand
  | .aggregate _ operand => operand.floats
  | .call _ arguments => listFloats arguments
  | .array items => listFloats items
  | .tuple items => listFloats items
  | .isIn operand candidates => operand.floats ++ listFloats candidates
  | .between operand low high => operand.floats ++ low.floats ++ high.floats
  | .isNull operand _ => operand.floats
  | .case subject branches otherwise =>
    optionFloats subject ++ branchesFloats branches ++ optionFloats otherwise
  | .cast operand _ => operand.floats
  | .aliased operand _ => operand.floats

def listFloats : List Expr → List Binary64
  | [] => []
  | e :: rest => e.floats ++ listFloats rest

def optionFloats : Option Expr → List Binary64
  | none => []
  | some e => e.floats

def branchesFloats : List (Expr × Expr) → List Binary64
  | [] => []
  | (condition, result) :: rest => condition.floats ++ result.floats ++ branchesFloats rest

end

def Query.floats (q : Query) : List Binary64 :=
  listFloats q.selects ++ listFloats q.wheres ++ listFloats q.groupBys ++ listFloats q.havings ++
    q.orderBys.flatMap fun entry => entry.expr.floats

/-- All of the floats are numbers. -/
def Numbers (xs : List Binary64) : Prop := ∀ x ∈ xs, x.isNaN = false

theorem numbers_append {xs ys : List Binary64} : Numbers (xs ++ ys) ↔ Numbers xs ∧ Numbers ys :=
  List.forall_mem_append

/-- A literal without a not-a-number is its own canonical form. -/
theorem Literal.canonical_of_numbers {value : Literal} (h : Numbers value.floats) :
    value.canonical = value := by
  cases value with
  | float x =>
    have number : x.isNaN = false := h x List.mem_cons_self
    rw [Literal.canonical, Binary.canonical, number]
    rfl
  | _ => rfl

mutual

/-- **An expression** without a not-a-number is its own canonical form. -/
theorem Expr.canonical_of_numbers : (e : Expr) → Numbers e.floats → e.canonical = e
  | .literal value, h => by
    rw [Expr.floats] at h
    rw [Expr.canonical, Literal.canonical_of_numbers h]
  | .field name, _ => by rw [Expr.canonical]
  | .binary left op right, h => by
    rw [Expr.floats, numbers_append] at h
    rw [Expr.canonical, left.canonical_of_numbers h.1, right.canonical_of_numbers h.2]
  | .not operand, h => by
    rw [Expr.floats] at h
    rw [Expr.canonical, operand.canonical_of_numbers h]
  | .count operand, h => by
    rw [Expr.floats] at h
    rw [Expr.canonical, optionCanonical_of_numbers operand h]
  | .aggregate function operand, h => by
    rw [Expr.floats] at h
    rw [Expr.canonical, operand.canonical_of_numbers h]
  | .call name arguments, h => by
    rw [Expr.floats] at h
    rw [Expr.canonical, listCanonical_of_numbers arguments h]
  | .array items, h => by
    rw [Expr.floats] at h
    rw [Expr.canonical, listCanonical_of_numbers items h]
  | .tuple items, h => by
    rw [Expr.floats] at h
    rw [Expr.canonical, listCanonical_of_numbers items h]
  | .isIn operand candidates, h => by
    rw [Expr.floats, numbers_append] at h
    rw [Expr.canonical, operand.canonical_of_numbers h.1, listCanonical_of_numbers candidates h.2]
  | .between operand low high, h => by
    rw [Expr.floats, numbers_append, numbers_append] at h
    rw [Expr.canonical, operand.canonical_of_numbers h.1.1, low.canonical_of_numbers h.1.2,
      high.canonical_of_numbers h.2]
  | .isNull operand negated, h => by
    rw [Expr.floats] at h
    rw [Expr.canonical, operand.canonical_of_numbers h]
  | .case subject branches otherwise, h => by
    rw [Expr.floats, numbers_append, numbers_append] at h
    rw [Expr.canonical, optionCanonical_of_numbers subject h.1.1,
      branchesCanonical_of_numbers branches h.1.2, optionCanonical_of_numbers otherwise h.2]
  | .cast operand type, h => by
    rw [Expr.floats] at h
    rw [Expr.canonical, operand.canonical_of_numbers h]
  | .aliased operand name, h => by
    rw [Expr.floats] at h
    rw [Expr.canonical, operand.canonical_of_numbers h]

theorem listCanonical_of_numbers : (es : List Expr) → Numbers (listFloats es) →
    listCanonical es = es
  | [], _ => by rw [listCanonical]
  | e :: rest, h => by
    rw [listFloats, numbers_append] at h
    rw [listCanonical, e.canonical_of_numbers h.1, listCanonical_of_numbers rest h.2]

theorem optionCanonical_of_numbers : (e : Option Expr) → Numbers (optionFloats e) →
    optionCanonical e = e
  | none, _ => by rw [optionCanonical]
  | some e, h => by
    rw [optionFloats] at h
    rw [optionCanonical, e.canonical_of_numbers h]

theorem branchesCanonical_of_numbers : (bs : List (Expr × Expr)) → Numbers (branchesFloats bs) →
    branchesCanonical bs = bs
  | [], _ => by rw [branchesCanonical]
  | (condition, result) :: rest, h => by
    rw [branchesFloats, numbers_append, numbers_append] at h
    rw [branchesCanonical, condition.canonical_of_numbers h.1.1, result.canonical_of_numbers h.1.2,
      branchesCanonical_of_numbers rest h.2]

end

theorem map_eq_self {α : Type} {f : α → α} {xs : List α} (h : ∀ x ∈ xs, f x = x) : xs.map f = xs :=
  (List.map_congr_left h).trans (List.map_id xs)

/-- **A query** without a not-a-number is its own canonical form. -/
theorem Query.canonical_of_numbers {q : Query} (h : Numbers q.floats) : q.canonical = q := by
  rw [Query.floats, numbers_append, numbers_append, numbers_append, numbers_append] at h
  obtain ⟨⟨⟨⟨selects, wheres⟩, groupBys⟩, havings⟩, orderBys⟩ := h
  have entries : q.orderBys.map OrderBy.canonical = q.orderBys := by
    apply map_eq_self
    intro entry he
    have number : Numbers entry.expr.floats :=
      fun x hx => orderBys x (List.mem_flatMap.2 ⟨entry, he, hx⟩)
    rw [OrderBy.canonical, entry.expr.canonical_of_numbers number]
  rw [Query.canonical, listCanonical_of_numbers _ selects, listCanonical_of_numbers _ wheres,
    listCanonical_of_numbers _ groupBys, listCanonical_of_numbers _ havings, entries]

/-! ## The text shows no difference -/

/-- Every not-a-number is shown by the same word. -/
theorem Literal.floatSql_canonical (x : Binary64) : floatSql x.canonical = floatSql x := by
  unfold Binary.canonical
  split
  · next h =>
    have infinite : x.isFinite = false := by
      have above : Format.binary64.infinity < x.magnitude := of_decide_eq_true h
      exact decide_eq_false (by omega)
    have word : floatSql (.nan .binary64) = "nan" := by decide
    rw [word, floatSql, infinite, nonFinite, h]
    rfl
  · rfl

theorem Literal.sql_canonical (value : Literal) : value.canonical.sql = value.sql := by
  cases value with
  | float x => exact floatSql_canonical x
  | _ => rfl

mutual

/-- **The text** of an expression does not show which not-a-number is in it. -/
theorem Expr.sql_canonical : (e : Expr) → e.canonical.sql = e.sql
  | .literal value => by
    rw [Expr.canonical, Expr.sql, Expr.sql, value.sql_canonical]
  | .field name => by rw [Expr.canonical]
  | .binary left op right => by
    rw [Expr.canonical, Expr.sql, Expr.sql, left.sql_canonical, right.sql_canonical]
  | .not operand => by rw [Expr.canonical, Expr.sql, Expr.sql, operand.sql_canonical]
  | .count none => by rw [Expr.canonical, optionCanonical]
  | .count (some operand) => by
    rw [Expr.canonical, optionCanonical, Expr.sql, Expr.sql, operand.sql_canonical]
  | .aggregate function operand => by
    rw [Expr.canonical, Expr.sql, Expr.sql, operand.sql_canonical]
  | .call name arguments => by
    rw [Expr.canonical, Expr.sql, Expr.sql, listSql_canonical arguments]
  | .array items => by rw [Expr.canonical, Expr.sql, Expr.sql, listSql_canonical items]
  | .tuple items => by rw [Expr.canonical, Expr.sql, Expr.sql, listSql_canonical items]
  | .isIn operand candidates => by
    rw [Expr.canonical, Expr.sql, Expr.sql, operand.sql_canonical, listSql_canonical candidates]
  | .between operand low high => by
    rw [Expr.canonical, Expr.sql, Expr.sql, operand.sql_canonical, low.sql_canonical,
      high.sql_canonical]
  | .isNull operand negated => by
    rw [Expr.canonical, Expr.sql, Expr.sql, operand.sql_canonical]
  | .case subject branches otherwise => by
    rw [Expr.canonical, Expr.sql, Expr.sql, afterSql_canonical " " subject,
      branchesSql_canonical branches, afterSql_canonical " ELSE " otherwise]
  | .cast operand type => by rw [Expr.canonical, Expr.sql, Expr.sql, operand.sql_canonical]
  | .aliased operand name => by
    rw [Expr.canonical, Expr.sql, Expr.sql, operand.sql_canonical]

theorem listSql_canonical : (es : List Expr) → listSql (listCanonical es) = listSql es
  | [] => by rw [listCanonical]
  | e :: rest => by
    rw [listCanonical, listSql, listSql, e.sql_canonical, tailSql_canonical rest]

theorem tailSql_canonical : (es : List Expr) → tailSql (listCanonical es) = tailSql es
  | [] => by rw [listCanonical]
  | e :: rest => by
    rw [listCanonical, tailSql, tailSql, e.sql_canonical, tailSql_canonical rest]

theorem afterSql_canonical (word : String) :
    (e : Option Expr) → afterSql word (optionCanonical e) = afterSql word e
  | none => by rw [optionCanonical]
  | some e => by rw [optionCanonical, afterSql, afterSql, e.sql_canonical]

theorem branchesSql_canonical :
    (bs : List (Expr × Expr)) → branchesSql (branchesCanonical bs) = branchesSql bs
  | [] => by rw [branchesCanonical]
  | (condition, result) :: rest => by
    rw [branchesCanonical, branchesSql, branchesSql, condition.sql_canonical, result.sql_canonical,
      branchesSql_canonical rest]

end

theorem listCanonical_eq_map (es : List Expr) : listCanonical es = es.map Expr.canonical := by
  induction es with
  | nil => rw [listCanonical, List.map_nil]
  | cons e rest ih => rw [listCanonical, ih, List.map_cons]

theorem map_sql_canonical (es : List Expr) : (listCanonical es).map Expr.sql = es.map Expr.sql := by
  rw [listCanonical_eq_map, List.map_map]
  exact List.map_congr_left fun e _ => e.sql_canonical

theorem OrderBy.sql_canonical (entry : OrderBy) : entry.canonical.sql = entry.sql := by
  rw [OrderBy.sql, OrderBy.canonical, entry.expr.sql_canonical]
  rfl

namespace Query

/-- Conditions are made canonical before or after they are joined. -/
theorem canonical_foldl_and (rest : List Expr) (first : Expr) :
    (listCanonical rest).foldl Expr.and first.canonical = (rest.foldl Expr.and first).canonical := by
  induction rest generalizing first with
  | nil => rw [listCanonical]; rfl
  | cons e rest ih =>
    have conjunction : first.canonical.and e.canonical = (first.and e).canonical := by
      rw [Expr.and, Expr.and, Expr.canonical]
    rw [listCanonical, List.foldl_cons, conjunction, ih, List.foldl_cons]

theorem conditionClause_canonical (keyword : String) (conditions : List Expr) :
    conditionClause keyword (listCanonical conditions) = conditionClause keyword conditions := by
  cases conditions with
  | nil => rw [listCanonical]
  | cons first rest =>
    rw [listCanonical, conditionClause, conditionClause]
    simp only [Expr.conjunction, canonical_foldl_and, Expr.sql_canonical]

/-- **The statement** of a query does not show which not-a-number is in it. -/
theorem statement_canonical (q : Query) : q.canonical.statement = q.statement := by
  have text (table : String) : q.canonical.statementOver table = q.statementOver table := by
    have distinct : q.canonical.distinct = q.distinct := rfl
    have limit : q.canonical.limit = q.limit := rfl
    have offset : q.canonical.offset = q.offset := rfl
    have selects : q.canonical.selects.map Expr.sql = q.selects.map Expr.sql :=
      map_sql_canonical q.selects
    have groupBys : q.canonical.groupBys.map Expr.sql = q.groupBys.map Expr.sql :=
      map_sql_canonical q.groupBys
    have wheres : conditionClause " WHERE " q.canonical.wheres = conditionClause " WHERE " q.wheres :=
      conditionClause_canonical " WHERE " q.wheres
    have havings :
        conditionClause " HAVING " q.canonical.havings = conditionClause " HAVING " q.havings :=
      conditionClause_canonical " HAVING " q.havings
    have orderBys : q.canonical.orderBys.map OrderBy.sql = q.orderBys.map OrderBy.sql := by
      show (q.orderBys.map OrderBy.canonical).map OrderBy.sql = q.orderBys.map OrderBy.sql
      rw [List.map_map]
      exact List.map_congr_left fun entry _ => entry.sql_canonical
    -- The equation of `statementOver` is slow to derive, and not needed.
    delta statementOver
    rw [distinct, limit, offset, selects, groupBys, wheres, havings, orderBys]
  have named : q.canonical.namedTable = q.namedTable := rfl
  have listed : q.canonical.selects.isEmpty = q.selects.isEmpty := by
    rw [canonical, listCanonical_eq_map, List.isEmpty_map]
  simp only [statement, named, listed, text]

end Query

end SqlSelect
