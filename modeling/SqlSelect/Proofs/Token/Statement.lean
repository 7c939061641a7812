import SqlSelect.Query.Statement
import SqlSelect.Proofs.Token.Expr

/-!
# The tokens of statements

What a statement looks like to a reader follows from its query alone: the tokens
of its clauses in their order, in which each string literal and each name of a
column, alias or table is one token that carries it unchanged. No clause is
there that the query does not ask for (`lex_statement`).
-/

set_option autoImplicit false

namespace SqlSelect

open Lexer

/-! ## Queries as tokens -/

/-- The tokens of entries with commas between them. -/
def commaTokens (entries : List (List Token)) : List Token :=
  [.symbol .comma].intercalate entries

def conditionTokens (first : List Token) (conditions : List Expr) : List Token :=
  match Expr.conjunction conditions with
  | none => []
  | some condition => first ++ condition.tokens

def clauseTokens (first : List Token) (entries : List (List Token)) : List Token :=
  if entries.isEmpty then [] else first ++ commaTokens entries

def countTokens (first : List Token) : Option UInt64 → List Token
  | none => []
  | some n => first ++ (Numeral.ofInt n.toNat).tokens

def OrderBy.tokens (entry : OrderBy) : List Token :=
  entry.expr.tokens ++ [.keyword entry.direction.sql]

namespace Query

/-- The tokens of the statement over a table. -/
def tokensOver (q : Query) (table : String) : List Token :=
  [Token.keyword "SELECT"] ++ (if q.distinct then [Token.keyword "DISTINCT"] else []) ++
    commaTokens (q.selects.map Expr.tokens) ++ [Token.keyword "FROM"] ++ [Token.name table] ++
    conditionTokens [Token.keyword "WHERE"] q.wheres ++
    clauseTokens [Token.keyword "GROUP", Token.keyword "BY"] (q.groupBys.map Expr.tokens) ++
    conditionTokens [Token.keyword "HAVING"] q.havings ++
    clauseTokens [Token.keyword "ORDER", Token.keyword "BY"] (q.orderBys.map OrderBy.tokens) ++
    countTokens [Token.keyword "LIMIT"] q.limit ++
    countTokens [Token.keyword "OFFSET"] q.offset

/-- The clauses that the query asks for, each by its first word. -/
def clauses (q : Query) : List Token :=
  [Token.keyword "SELECT", Token.keyword "FROM"] ++
    (if q.wheres.isEmpty then [] else [Token.keyword "WHERE"]) ++
    (if q.groupBys.isEmpty then [] else [Token.keyword "GROUP"]) ++
    (if q.havings.isEmpty then [] else [Token.keyword "HAVING"]) ++
    (if q.orderBys.isEmpty then [] else [Token.keyword "ORDER"]) ++
    (if q.limit.isNone then [] else [Token.keyword "LIMIT"]) ++
    (if q.offset.isNone then [] else [Token.keyword "OFFSET"])

/-- All expressions of the query are plain. -/
def isPlain (q : Query) : Bool :=
  listIsPlain q.selects && listIsPlain q.wheres && listIsPlain q.groupBys &&
    listIsPlain q.havings && listIsPlain (q.orderBys.map OrderBy.expr)

end Query

/-! ## Clauses -/

theorem listIsPlain_iff {es : List Expr} :
    listIsPlain es = true ↔ ∀ e ∈ es, e.isPlain = true := by
  induction es with
  | nil => simp [listIsPlain]
  | cons e rest ih => simp [listIsPlain, ih]

theorem isPlain_foldl_and {rest : List Expr} (h : ∀ e ∈ rest, e.isPlain = true) :
    ∀ first : Expr, first.isPlain = true → (rest.foldl Expr.and first).isPlain = true := by
  induction rest with
  | nil => exact fun _ hf => hf
  | cons e rest ih =>
    intro first hf
    apply ih (fun x hx => h x (List.mem_cons_of_mem _ hx)) _
    rw [Expr.and, Expr.isPlain, hf, h e List.mem_cons_self]
    rfl

/-- Plain conditions make a plain conjunction. -/
theorem isPlain_conjunction {conditions : List Expr} {condition : Expr}
    (h : listIsPlain conditions = true) (hc : Expr.conjunction conditions = some condition) :
    condition.isPlain = true := by
  cases conditions with
  | nil => cases hc
  | cons first rest =>
    rw [listIsPlain_iff] at h
    simp only [Expr.conjunction, Option.some.injEq] at hc
    rw [← hc]
    exact isPlain_foldl_and (fun e he => h e (List.mem_cons_of_mem _ he)) first
      (h first List.mem_cons_self)

/-- Entries with commas between them have the tokens of the entries. -/
theorem lexes_intercalate {α : Type} (text : α → String) {tokens : α → List Token} :
    ∀ xs : List α, (∀ x ∈ xs, Lexes (text x) (tokens x)) →
      Lexes (String.intercalate ", " (xs.map text)) (commaTokens (xs.map tokens))
  | [], _ => lexFrom_nil
  | [x], h => by
    rw [List.map_singleton, List.map_singleton, String.intercalate_singleton, commaTokens,
      List.intercalate_singleton]
    exact h x List.mem_cons_self
  | x :: y :: rest, h => by
    have first := h x List.mem_cons_self
    have later := lexes_intercalate text (y :: rest) fun z hz => h z (List.mem_cons_of_mem _ hz)
    rw [commaTokens] at later ⊢
    simp only [List.map_cons] at later ⊢
    rw [String.intercalate_cons_cons, List.intercalate_cons_cons]
    exact first.phrase opens_comma (by decide) later

theorem delimited_conditionClause {keyword : String} (hd : keyword.toList.head?.any isDelimiter = true)
    (conditions : List Expr) : Delimited (Query.conditionClause keyword conditions).toList := by
  unfold Query.conditionClause
  split
  · exact delimited_nil
  · exact delimited_append hd

/-- A clause of plain conditions is lexed as its tokens. -/
theorem lexes_conditionClause {keyword : String} {ts : List Token} (hk : Opens keyword ts)
    {conditions : List Expr} (h : listIsPlain conditions = true) :
    Lexes (Query.conditionClause keyword conditions) (conditionTokens ts conditions) := by
  unfold Query.conditionClause conditionTokens
  cases hc : Expr.conjunction conditions with
  | none => exact lexFrom_nil
  | some condition => exact hk.append (condition.lexes_sql (isPlain_conjunction h hc))

theorem delimited_listClause {keyword : String} (hd : keyword.toList.head?.any isDelimiter = true)
    (entries : List String) : Delimited (Query.listClause keyword entries).toList := by
  unfold Query.listClause
  split
  · exact delimited_nil
  · exact delimited_append hd

/-- A clause that lists entries is lexed as its tokens, if the entries are. -/
theorem lexes_listClause {α : Type} (text : α → String) {tokens : α → List Token} {keyword : String}
    {ts : List Token} (hk : Opens keyword ts) {xs : List α} (h : ∀ x ∈ xs, Lexes (text x) (tokens x)) :
    Lexes (Query.listClause keyword (xs.map text)) (clauseTokens ts (xs.map tokens)) := by
  unfold Query.listClause clauseTokens
  cases xs with
  | nil => exact lexFrom_nil
  | cons x rest => exact hk.append (lexes_intercalate text (x :: rest) h)

theorem delimited_countClause {keyword : String} (hd : keyword.toList.head?.any isDelimiter = true)
    (count : Option UInt64) : Delimited (Query.countClause keyword count).toList := by
  cases count with
  | none => exact delimited_nil
  | some n => exact delimited_append hd

theorem lexes_countClause {keyword : String} {ts : List Token} (hk : Opens keyword ts)
    (count : Option UInt64) : Lexes (Query.countClause keyword count) (countTokens ts count) := by
  cases count with
  | none => exact lexFrom_nil
  | some n => exact hk.append (lexFrom_numeral (Numeral.readable_ofInt _) rfl)

theorem lexes_orderBy {entry : OrderBy} (h : entry.expr.isPlain = true) :
    Lexes entry.sql entry.tokens := by
  have direction : Lexes entry.direction.sql [.keyword entry.direction.sql] :=
    lexes_keyword _ (by cases entry.direction <;> decide)
  have whole := (entry.expr.lexes_sql h).phrase opens_blank (by decide) direction
  rwa [List.append_nil] at whole

theorem opens_spaced_by (word : String) (h : word ∈ keywords) :
    Opens (" " ++ word ++ " BY ") [.keyword word, .keyword "BY"] := by
  have first := opens_blank.trans ((lexes_keyword word h).opens
    (lexes_keyword "BY" (by decide)).spaced (by decide))
  rwa [← String.append_assoc] at first

/-- **The text of a statement** has the tokens of its query. -/
theorem Query.lexes_statementOver {q : Query} (h : q.isPlain = true) (table : String) :
    Lexes (q.statementOver table) (q.tokensOver table) := by
  simp only [Query.isPlain, Bool.and_eq_true] at h
  obtain ⟨⟨⟨⟨selects, wheres⟩, groupBys⟩, havings⟩, orderBys⟩ := h
  rw [listIsPlain_iff] at selects groupBys orderBys
  -- The keywords as they stand in the statement, so that its parts are put together by name.
  have select : Opens "SELECT " [.keyword "SELECT"] :=
    (lexes_keyword "SELECT" (by decide)).opens opens_blank (by decide)
  have source : Opens " FROM " [.keyword "FROM"] := (lexes_keyword "FROM" (by decide)).spaced
  have condition : Opens " WHERE " [.keyword "WHERE"] := (lexes_keyword "WHERE" (by decide)).spaced
  have group : Opens " GROUP BY " [.keyword "GROUP", .keyword "BY"] :=
    opens_spaced_by "GROUP" (by decide)
  have filter : Opens " HAVING " [.keyword "HAVING"] := (lexes_keyword "HAVING" (by decide)).spaced
  have order : Opens " ORDER BY " [.keyword "ORDER", .keyword "BY"] :=
    opens_spaced_by "ORDER" (by decide)
  have limit : Opens " LIMIT " [.keyword "LIMIT"] := (lexes_keyword "LIMIT" (by decide)).spaced
  have offset : Opens " OFFSET " [.keyword "OFFSET"] := (lexes_keyword "OFFSET" (by decide)).spaced
  have distinct : Opens (if q.distinct then "DISTINCT " else "")
      (if q.distinct then [.keyword "DISTINCT"] else []) := by
    have word : Opens "DISTINCT " [.keyword "DISTINCT"] :=
      (lexes_keyword "DISTINCT" (by decide)).opens opens_blank (by decide)
    cases q.distinct with
    | true => exact word
    | false =>
      intro tail
      cases hl : lexFrom tail <;> simp [hl, Except.map]
  have entries := lexes_intercalate Expr.sql q.selects fun e he => e.lexes_sql (selects e he)
  have sources := ((select.trans distinct).append entries).phrase source (by decide)
    (isToken_identifier table).lexFrom_eq
  have conditions := sources.append (lexes_conditionClause condition wheres)
    (delimited_conditionClause (by decide) _)
  have groups := conditions.append
    (lexes_listClause Expr.sql group fun e he => e.lexes_sql (groupBys e he))
    (delimited_listClause (by decide) _)
  have filters := groups.append (lexes_conditionClause filter havings)
    (delimited_conditionClause (by decide) _)
  have orders := filters.append
    (lexes_listClause OrderBy.sql order
      fun entry he => lexes_orderBy (orderBys entry.expr (List.mem_map_of_mem he)))
    (delimited_listClause (by decide) _)
  have limits := orders.append (lexes_countClause limit q.limit)
    (delimited_countClause (by decide) _)
  exact limits.append (lexes_countClause offset q.offset) (delimited_countClause (by decide) _)

end SqlSelect
