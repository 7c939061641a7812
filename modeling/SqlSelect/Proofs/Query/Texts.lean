import SqlSelect.Proofs.Decimal.Digits
import SqlSelect.Proofs.Query.Edits

/-!
# Statements from the texts of their parts

A statement shows nothing of an expression but its text. `Query.Texts` is what it
takes from a query, the expressions replaced by their texts, and
`Query.Texts.statement` is put together from that alone: the parts of a list with
commas between them (`listSql_eq`), conditions with all parentheses in front
(`Expr.sql_foldl_and`), and a clause for each slot that has something in it. So
queries that differ only in expressions with the same texts have the same
statement (**`Query.statement_texts`**).
-/

set_option autoImplicit false

namespace SqlSelect

/-! ## Lists and conditions -/

/-- Expressions after the first one, as parts with commas between them. -/
theorem sql_append_tailSql (e : Expr) (rest : List Expr) :
    e.sql ++ tailSql rest = String.intercalate ", " ((e :: rest).map Expr.sql) := by
  induction rest generalizing e with
  | nil => rw [tailSql, String.append_empty, List.map_singleton, String.intercalate_singleton]
  | cons e' rest ih =>
    rw [tailSql, String.append_assoc, ih e']
    simp only [List.map_cons, String.intercalate_cons_cons, String.append_assoc]

/-- **A list of expressions** has their texts with commas between them. -/
theorem listSql_eq (es : List Expr) : listSql es = String.intercalate ", " (es.map Expr.sql) := by
  cases es with
  | nil => rfl
  | cons e rest => exact sql_append_tailSql e rest

namespace Query

/-- Conditions that all have to hold: the parentheses open in front, and close one
after each condition but the first. -/
def allOf : List String → String
  | [] => ""
  | first :: rest =>
    String.ofList (List.replicate rest.length '(') ++ first ++
      String.join (rest.map fun text => " AND " ++ text ++ ")")

/-- Two conditions that are joined stand for one, with a pair of parentheses. -/
theorem allOf_pair (first next : String) (rest : List String) :
    allOf (("(" ++ first ++ " AND " ++ next ++ ")") :: rest) = allOf (first :: next :: rest) := by
  have front : String.ofList (List.replicate (next :: rest).length '(') =
      String.ofList (List.replicate rest.length '(') ++ "(" := by
    rw [List.length_cons, List.replicate_succ', String.ofList_append]
  rw [allOf, allOf, front]
  simp only [List.map_cons, String.join_cons, String.append_assoc]

end Query

/-- **Conditions that are joined** one after the other. -/
theorem Expr.sql_foldl_and (rest : List Expr) (first : Expr) :
    (rest.foldl Expr.and first).sql = Query.allOf (first.sql :: rest.map Expr.sql) := by
  induction rest generalizing first with
  | nil => simp [Query.allOf]
  | cons next rest ih =>
    have pair : (first.and next).sql = "(" ++ first.sql ++ " AND " ++ next.sql ++ ")" := by
      have wraps : BinaryOperator.and.wraps = true := rfl
      have word : " " ++ BinaryOperator.and.sql ++ " " = " AND " := by decide
      rw [Expr.and, Expr.sql, if_pos wraps]
      simp only [← word, String.append_assoc]
    rw [List.foldl_cons, ih, pair, Query.allOf_pair, List.map_cons]

namespace Query

/-! ## Texts of a query -/

/-- What a statement takes from a query: the texts of its expressions, and the rest as it is. -/
structure Texts where
  table : Option String
  distinct : Bool
  selects : List String
  wheres : List String
  groupBys : List String
  havings : List String
  orderBys : List (String × Direction)
  limit : Option UInt64
  offset : Option UInt64
deriving DecidableEq

/-- The query with the text of each expression in its place. -/
def texts (q : Query) : Texts where
  table := q.table
  distinct := q.distinct
  selects := q.selects.map Expr.sql
  wheres := q.wheres.map Expr.sql
  groupBys := q.groupBys.map Expr.sql
  havings := q.havings.map Expr.sql
  orderBys := q.orderBys.map fun entry => (entry.expr.sql, entry.direction)
  limit := q.limit
  offset := q.offset

namespace Texts

def clause {α : Type} (keyword : String) (text : List α → String) : List α → List (String × String)
  | [] => []
  | parts => [(keyword, text parts)]

/-- Clauses as they stand in a statement. -/
def shown (clauses : List (String × String)) : String :=
  String.join (clauses.map fun (keyword, text) => " " ++ keyword ++ " " ++ text)

/-- The clauses after the table, each with its keyword and its text. -/
def clauses (t : Texts) : List (String × String) :=
  clause "WHERE" allOf t.wheres ++
    clause "GROUP BY" (String.intercalate ", ") t.groupBys ++
    clause "HAVING" allOf t.havings ++
    clause "ORDER BY" (fun entries => String.intercalate ", "
      (entries.map fun (text, direction) => text ++ " " ++ direction.sql)) t.orderBys ++
    t.limit.toList.map (fun n => ("LIMIT", Nat.repr n.toNat)) ++
    t.offset.toList.map (fun n => ("OFFSET", Nat.repr n.toNat))

def statementOver (t : Texts) (table : String) : String :=
  "SELECT " ++ (if t.distinct then "DISTINCT " else "") ++ String.intercalate ", " t.selects ++
    " FROM " ++ Identifier.sql table ++
    shown t.clauses

/-- The statement, or what is missing for one. -/
def statement (t : Texts) : Except StatementError String :=
  match t.table.filter (· ≠ "") with
  | none => .error .missingTable
  | some table => if t.selects.isEmpty then .error .missingSelect else .ok (t.statementOver table)

end Texts

/-! ## Clauses -/

open Texts (clause shown)

theorem shown_append (before after : List (String × String)) :
    shown (before ++ after) = shown before ++ shown after := by
  rw [shown, List.map_append, String.join_append, shown, shown]

/-- A clause that has entries is shown after a blank. -/
theorem shown_clause {α : Type} (keyword : String) (text : List α → String) (first : α) (rest : List α) :
    shown (clause keyword text (first :: rest)) = " " ++ keyword ++ " " ++ text (first :: rest) := by
  simp [shown, clause]

/-- A clause of conditions is shown from their texts alone. -/
theorem conditionClause_eq (keyword : String) (conditions : List Expr) :
    conditionClause (" " ++ keyword ++ " ") conditions =
      shown (clause keyword allOf (conditions.map Expr.sql)) := by
  cases conditions with
  | nil => rfl
  | cons first rest =>
    rw [List.map_cons, shown_clause, ← Expr.sql_foldl_and]
    rfl

/-- A clause that lists entries is shown from their texts alone. -/
theorem listClause_eq {α : Type} (keyword : String) (text : α → String) (parts : List α) :
    listClause (" " ++ keyword ++ " ") (parts.map text) =
      shown (clause keyword (fun parts => String.intercalate ", " (parts.map text)) parts) := by
  cases parts with
  | nil => rfl
  | cons first rest =>
    rw [shown_clause]
    rfl

/-- A clause with a count is shown with its digits. -/
theorem countClause_eq (keyword : String) (count : Option UInt64) :
    countClause (" " ++ keyword ++ " ") count =
      shown (count.toList.map fun n => (keyword, Nat.repr n.toNat)) := by
  cases count with
  | none => rfl
  | some n =>
    have digits : (Numeral.ofInt n.toNat).text = Nat.repr n.toNat := by
      rw [Numeral.text_ofInt, if_neg (by omega), String.empty_append, Int.natAbs_natCast, Nat.repr]
    rw [countClause, digits]
    simp [shown]

/-- **The statement** is what is shown of the texts of the slots. -/
theorem statementOver_eq (q : Query) (table : String) :
    q.statementOver table = q.texts.statementOver table := by
  have wheres := conditionClause_eq "WHERE" q.wheres
  have groupBys := listClause_eq "GROUP BY" id (q.groupBys.map Expr.sql)
  have havings := conditionClause_eq "HAVING" q.havings
  have orderBys := listClause_eq "ORDER BY" (fun (text, direction) => text ++ " " ++ Direction.sql direction)
    (q.orderBys.map fun entry => (entry.expr.sql, entry.direction))
  have limit := countClause_eq "LIMIT" q.limit
  have offset := countClause_eq "OFFSET" q.offset
  simp only [List.map_id_fun, id_eq, List.map_map] at groupBys orderBys
  rw [Texts.statementOver, Texts.clauses]
  simp only [shown_append, texts]
  rw [← wheres, ← groupBys, ← havings, ← orderBys, ← limit, ← offset]
  simp only [← String.append_assoc]
  rfl

/-- The statement of a query is that of its texts. -/
theorem statement_eq (q : Query) : q.statement = q.texts.statement := by
  have named : q.texts.table.filter (· ≠ "") = q.namedTable := rfl
  have selects : q.texts.selects.isEmpty = q.selects.isEmpty := List.isEmpty_map
  rw [statement, Texts.statement, named, selects]
  cases q.namedTable with
  | none => rfl
  | some table => simp only [statementOver_eq]

/-- **A statement is a function of the texts of its parts.** A query with a table and
something to select has the statement that its texts make up; lists are written in it
as in a tuple; and queries with the same texts have the same statement, or lack the
same for one. -/
theorem statement_texts :
    (∀ (q : Query) (table : String), q.table = some table → table ≠ "" → q.selects ≠ [] →
      q.statement = .ok (q.texts.statementOver table)) ∧
    (∀ es : List Expr,
      (Expr.tuple es).sql = "(" ++ String.intercalate ", " (es.map Expr.sql) ++ ")") ∧
    ∀ q r : Query, q.texts = r.texts → q.statement = r.statement := by
  refine ⟨fun q table named filled some => ?_, fun es => ?_, fun q r same => ?_⟩
  · have selects : q.selects.isEmpty = false := List.isEmpty_eq_false_iff.2 some
    rw [statement_of_table named filled, selects, statementOver_eq]
    rfl
  · rw [Expr.sql, listSql_eq]
  · rw [statement_eq, statement_eq, same]

/-- Two queries that differ and have the same texts: a column against not-a-number, and
an aggregate against the call of a function. -/
theorem statement_texts_alike :
    let q : Query :=
      { table := some "t", selects := [.field "nan"], limit := some 10
        wheres := [.field "a", .field "b", .field "c"]
        orderBys := [⟨.count (some (.field "x")), .desc⟩] }
    let r : Query :=
      { q with
        selects := [.literal (.float (.nan .binary64))]
        orderBys := [⟨.call "COUNT" [.field "x"], .desc⟩] }
    q.sameValue r = false ∧ q.texts = r.texts ∧ q.statement = r.statement ∧
      q.statement = .ok "SELECT nan FROM t WHERE ((a AND b) AND c) ORDER BY COUNT(x) DESC LIMIT 10" := by
  intro q r
  obtain ⟨stated, -, congruent⟩ := statement_texts
  have column : (Expr.field "nan").sql = (Expr.literal (.float (.nan .binary64))).sql := by decide +kernel
  have call : (Expr.count (some (.field "x"))).sql = (Expr.call "COUNT" [.field "x"]).sql := by decide +kernel
  have same : q.texts = r.texts := by
    simp only [q, r, texts, List.map_cons, List.map_nil, column, call]
  have shown : q.texts.statementOver "t" =
      "SELECT nan FROM t WHERE ((a AND b) AND c) ORDER BY COUNT(x) DESC LIMIT 10" := by
    decide +kernel
  refine ⟨by decide +kernel, same, congruent q r same, ?_⟩
  rw [stated q "t" rfl (by decide) (List.cons_ne_nil _ _), shown]

end Query

end SqlSelect
