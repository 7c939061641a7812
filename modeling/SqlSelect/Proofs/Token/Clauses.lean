import SqlSelect.Proofs.Token.Statement

/-!
# The clauses of statements

No part of an expression begins a clause (`Expr.filter_tokens`): the words that
do so are reserved, a name that is one of them stands between backticks, and a
string stands between quotes. So the clauses of a statement are those that its
query asks for, whatever literals and names are in it (`Query.lex_statement`).
-/

set_option autoImplicit false

namespace SqlSelect

open Lexer

/-! ## Expressions begin no clause -/

/-- No operator is the keyword of a clause. -/
theorem isClause_token (op : BinaryOperator) : op.token.isClause = false := by
  cases op <;> decide

theorem Numeral.filter_tokens (n : Numeral) : n.tokens.filter Token.isClause = [] := by
  cases h : n.negative <;> simp [Numeral.tokens, h, Token.isClause]

/-- A literal has no keyword of a clause in it. -/
theorem Literal.filter_tokens (value : Literal) : value.tokens.filter Token.isClause = [] := by
  cases value with
  | integer n => exact Numeral.filter_tokens _
  | float x => exact Numeral.filter_tokens _
  | string s => rfl
  | boolean b => cases b <;> decide
  | null => decide

theorem filter_typeTokens {type : String} (h : isPlainType type = true) :
    (typeTokens type).filter Token.isClause = [] := by
  unfold isPlainType at h
  unfold typeTokens
  split at h
  · rw [List.filter_eq_nil_iff]
    rw [List.all_eq_true] at h
    intro t ht hc
    have part := h t ht
    cases t with
    | keyword word =>
      have outside : (!clauseWords.contains word) = true := part
      have inside : clauseWords.contains word = true := hc
      rw [inside] at outside
      cases outside
    | _ => cases hc
  · simp at h

theorem filter_parens (ts : List Token) :
    (parens ts).filter Token.isClause = ts.filter Token.isClause := by
  rw [parens, List.filter_append, List.filter_append]
  exact List.append_nil _

mutual

/-- **No part of an expression** begins a clause. -/
theorem Expr.filter_tokens : (e : Expr) → e.isPlain = true → e.tokens.filter Token.isClause = []
  | .literal value, _ => by
    rw [Expr.tokens]
    exact value.filter_tokens
  | .field name, _ => by
    rw [Expr.tokens]
    rfl
  | .binary left op right, h => by
    simp only [Expr.isPlain, Bool.and_eq_true] at h
    have operands : (left.tokens ++ [op.token] ++ right.tokens).filter Token.isClause = [] := by
      simp [left.filter_tokens h.1, right.filter_tokens h.2, isClause_token]
    rw [Expr.tokens]
    split
    · rw [filter_parens, operands]
    · exact operands
  | .not operand, h => by
    have inner := operand.filter_tokens (by simpa only [Expr.isPlain] using h)
    rw [Expr.tokens, List.filter_append, filter_parens, inner]
    decide
  | .count none, _ => by
    rw [Expr.tokens]
    decide
  | .count (some operand), h => by
    have inner := operand.filter_tokens (by simpa only [Expr.isPlain] using h)
    rw [Expr.tokens, List.filter_append, filter_parens, inner]
    decide
  | .aggregate function operand, h => by
    have inner := operand.filter_tokens (by simpa only [Expr.isPlain] using h)
    rw [Expr.tokens, List.filter_append, filter_parens, inner]
    rfl
  | .call name arguments, h => by
    simp only [Expr.isPlain, Bool.and_eq_true] at h
    rw [Expr.tokens, List.filter_append, filter_parens, filter_listTokens arguments h.2]
    rfl
  | .array items, h => by
    have inner := filter_listTokens items (by simpa only [Expr.isPlain] using h)
    rw [Expr.tokens, List.filter_append, List.filter_append, inner]
    rfl
  | .tuple items, h => by
    rw [Expr.tokens, filter_parens, filter_listTokens items (by simpa only [Expr.isPlain] using h)]
  | .isIn operand candidates, h => by
    simp only [Expr.isPlain, Bool.and_eq_true] at h
    rw [Expr.tokens, List.filter_append, List.filter_append, filter_parens,
      operand.filter_tokens h.1, filter_listTokens candidates h.2]
    decide
  | .between operand low high, h => by
    simp only [Expr.isPlain, Bool.and_eq_true] at h
    simp only [Expr.tokens, List.filter_append, operand.filter_tokens h.1.1,
      low.filter_tokens h.1.2, high.filter_tokens h.2]
    decide
  | .isNull operand negated, h => by
    have inner := operand.filter_tokens (by simpa only [Expr.isPlain] using h)
    simp only [Expr.tokens, List.filter_append, inner]
    cases negated <;> decide
  | .case subject branches otherwise, h => by
    simp only [Expr.isPlain, Bool.and_eq_true] at h
    simp only [Expr.tokens, List.filter_append, filter_afterTokens [] rfl subject h.1.1,
      filter_branchesTokens branches h.1.2,
      filter_afterTokens [.keyword "ELSE"] (by decide) otherwise h.2]
    decide
  | .cast operand type, h => by
    simp only [Expr.isPlain, Bool.and_eq_true] at h
    simp only [Expr.tokens, List.filter_append, filter_parens, operand.filter_tokens h.1,
      filter_typeTokens h.2]
    decide
  | .aliased operand name, h => by
    have inner := operand.filter_tokens (by simpa only [Expr.isPlain] using h)
    simp only [Expr.tokens, List.filter_append, inner]
    rfl

/-- A list of plain expressions has no keyword of a clause in it. -/
theorem filter_listTokens : (es : List Expr) → listIsPlain es = true →
    (listTokens es).filter Token.isClause = []
  | [], _ => by
    rw [listTokens]
    rfl
  | e :: rest, h => by
    simp only [listIsPlain, Bool.and_eq_true] at h
    rw [listTokens, List.filter_append, e.filter_tokens h.1, filter_tailTokens rest h.2]
    rfl

theorem filter_tailTokens : (es : List Expr) → listIsPlain es = true →
    (tailTokens es).filter Token.isClause = []
  | [], _ => by
    rw [tailTokens]
    rfl
  | e :: rest, h => by
    simp only [listIsPlain, Bool.and_eq_true] at h
    rw [tailTokens, List.filter_append, List.filter_append, e.filter_tokens h.1,
      filter_tailTokens rest h.2]
    rfl

theorem filter_afterTokens (first : List Token) (hf : first.filter Token.isClause = []) :
    (e : Option Expr) → optionIsPlain e = true → (afterTokens first e).filter Token.isClause = []
  | none, _ => by
    rw [afterTokens]
    rfl
  | some e, h => by
    rw [afterTokens, List.filter_append, hf, e.filter_tokens h]
    rfl

theorem filter_branchesTokens : (bs : List (Expr × Expr)) → branchesArePlain bs = true →
    (branchesTokens bs).filter Token.isClause = []
  | [], _ => by
    rw [branchesTokens]
    rfl
  | (condition, result) :: rest, h => by
    simp only [branchesArePlain, Bool.and_eq_true] at h
    simp only [branchesTokens, List.filter_append, condition.filter_tokens h.1.1,
      result.filter_tokens h.1.2, filter_branchesTokens rest h.2]
    decide

end

/-! ## Clauses -/

theorem filter_commaTokens : ∀ entries : List (List Token),
    (∀ ts ∈ entries, ts.filter Token.isClause = []) →
      (commaTokens entries).filter Token.isClause = []
  | [], _ => rfl
  | [ts], h => by
    rw [commaTokens, List.intercalate_singleton]
    exact h ts List.mem_cons_self
  | ts :: us :: rest, h => by
    have later := filter_commaTokens (us :: rest) fun vs hvs => h vs (List.mem_cons_of_mem _ hvs)
    rw [commaTokens] at later ⊢
    rw [List.intercalate_cons_cons, List.filter_append, List.filter_append, h ts List.mem_cons_self,
      later]
    rfl

/-- A clause of conditions has one such keyword, its own. -/
theorem filter_conditionTokens (first : List Token) {conditions : List Expr}
    (h : listIsPlain conditions = true) :
    (conditionTokens first conditions).filter Token.isClause =
      if conditions.isEmpty then [] else first.filter Token.isClause := by
  cases conditions with
  | nil => rfl
  | cons e rest =>
    have plain := isPlain_conjunction h rfl
    simp only [conditionTokens, Expr.conjunction, List.filter_append, Expr.filter_tokens _ plain,
      List.append_nil, List.isEmpty_cons, Bool.false_eq_true, ↓reduceIte]

/-- A clause that lists entries has one such keyword, its own. -/
theorem filter_clauseTokens (first : List Token) {entries : List (List Token)}
    (h : ∀ ts ∈ entries, ts.filter Token.isClause = []) :
    (clauseTokens first entries).filter Token.isClause =
      if entries.isEmpty then [] else first.filter Token.isClause := by
  unfold clauseTokens
  split
  · rfl
  · rw [List.filter_append, filter_commaTokens entries h, List.append_nil]

/-- A clause with a count has one such keyword, its own. -/
theorem filter_countTokens (first : List Token) (count : Option UInt64) :
    (countTokens first count).filter Token.isClause =
      if count.isNone then [] else first.filter Token.isClause := by
  cases count with
  | none => rfl
  | some n => rw [countTokens, List.filter_append, Numeral.filter_tokens, List.append_nil]; rfl

namespace Query

/-- The clauses of the tokens are those of the query. -/
theorem filter_tokensOver {q : Query} (h : q.isPlain = true) (table : String) :
    (q.tokensOver table).filter Token.isClause = q.clauses := by
  simp only [isPlain, Bool.and_eq_true] at h
  obtain ⟨⟨⟨⟨selects, wheres⟩, groupBys⟩, havings⟩, orderBys⟩ := h
  rw [listIsPlain_iff] at selects groupBys orderBys
  have list : (commaTokens (q.selects.map Expr.tokens)).filter Token.isClause = [] := by
    apply filter_commaTokens _
    simp only [List.forall_mem_map]
    exact fun e he => e.filter_tokens (selects e he)
  have groups : ∀ ts ∈ q.groupBys.map Expr.tokens, ts.filter Token.isClause = [] := by
    simp only [List.forall_mem_map]
    exact fun e he => e.filter_tokens (groupBys e he)
  have orders : ∀ ts ∈ q.orderBys.map OrderBy.tokens, ts.filter Token.isClause = [] := by
    simp only [List.forall_mem_map]
    intro entry he
    rw [OrderBy.tokens, List.filter_append,
      entry.expr.filter_tokens (orderBys _ (List.mem_map_of_mem he))]
    cases entry.direction <;> decide
  have distinct : (if q.distinct then [Token.keyword "DISTINCT"] else []).filter Token.isClause = [] := by
    cases q.distinct <;> decide
  simp only [tokensOver, List.filter_append, list, filter_conditionTokens _ wheres,
    filter_clauseTokens _ groups, filter_conditionTokens _ havings, filter_clauseTokens _ orders,
    filter_countTokens, distinct, List.isEmpty_map]
  rfl

/-- **What a reader makes of a statement** follows from the query, part by part,
and no literal or name in it adds a clause or takes one away. -/
theorem lex_statement {q : Query} {table : String} (named : q.table = some table)
    (ne : table ≠ "") (selects : q.selects ≠ []) (plain : q.isPlain = true) :
    ∃ text, q.statement = .ok text ∧ lex text = .ok (q.tokensOver table) ∧
      (q.tokensOver table).filter Token.isClause = q.clauses := by
  refine ⟨q.statementOver table, ?_, lexes_statementOver plain table, filter_tokensOver plain table⟩
  have table : q.namedTable = some table := by simp [namedTable, named, ne]
  have listed : q.selects.isEmpty = false := by simpa using selects
  rw [statement, table]
  simp only [listed, Bool.false_eq_true, ↓reduceIte]

/-- A query of which every text would say more if it could. -/
def crafted : Query where
  table := some "t\x60; DROP"
  selects := [
    .literal (.string "\x27 FROM x -- \\"),
    .aliased (.cast (.field "from") "Decimal(10, 2)") "a\x60 WHERE /*",
    .call "coalesce" [.literal (.integer (-1)), .literal (.float ⟨true, 4611686018427387904, by decide⟩)]]
  wheres := [.between (.field "n") (.count none) (.literal .null)]
  limit := some 1

theorem lex_statement_crafted : ∃ text, crafted.statement = .ok text ∧
    lex text = .ok (crafted.tokensOver "t\x60; DROP") ∧
    (crafted.tokensOver "t\x60; DROP").filter Token.isClause =
      [.keyword "SELECT", .keyword "FROM", .keyword "WHERE", .keyword "LIMIT"] :=
  lex_statement (q := crafted) rfl (by decide) (List.cons_ne_nil _ _) (by decide +kernel)

end Query

end SqlSelect
