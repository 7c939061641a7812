import SqlSelect.Expr.Render
import SqlSelect.Proofs.Token.Leaf

/-!
# The tokens of expressions

`Expr.tokens` says what an expression looks like to a reader, part by part and
without a character of text. `Expr.lexes_sql` is that the text of an expression
has just these tokens. It is asked only of what the text shows as it is: floats
are finite, functions have bare names, and the text of a type has tokens by
itself (`Expr.isPlain`).
-/

set_option autoImplicit false

namespace SqlSelect

open Lexer

/-! ## Texts put together -/

/-- The text has these tokens. -/
def Lexes (text : String) (ts : List Token) : Prop :=
  lexFrom text.toList = .ok ts

instance (text : String) (ts : List Token) : Decidable (Lexes text ts) :=
  inferInstanceAs (Decidable (lexFrom text.toList = .ok ts))

/-- The text has these tokens, whatever follows it. -/
def Opens (text : String) (ts : List Token) : Prop :=
  ∀ tail, lexFrom (text.toList ++ tail) = (lexFrom tail).map (ts ++ ·)

theorem map_append {ts us : List Token} (r : Except LexError (List Token)) :
    (r.map (us ++ ·)).map (ts ++ ·) = r.map (ts ++ us ++ ·) := by
  cases r with
  | error e => rfl
  | ok vs => simp [Except.map]

/-- What follows a delimiter does not change what it stands for. -/
theorem lexFrom_delimiter {c : Char} (h : isDelimiter c = true) :
    ∃ us, ∀ tail, lexFrom (c :: tail) = (lexFrom tail).map (us ++ ·) := by
  cases hb : isBlank c with
  | true =>
    refine ⟨[], fun tail => ?_⟩
    rw [lexFrom_blank hb]
    cases lexFrom tail <;> rfl
  | false =>
    obtain ⟨s, -, read⟩ := scan_delimiter h hb
    refine ⟨[.symbol s], fun tail => ?_⟩
    rw [lexFrom_scan hb (read tail)]
    cases lexFrom tail <;> rfl

/-- What opens a text is lexed first, whatever text it opens. -/
theorem Opens.append {a b : String} {ts us : List Token} (ha : Opens a ts) (hb : Lexes b us) :
    Lexes (a ++ b) (ts ++ us) := by
  rw [Lexes, String.toList_append, ha, hb]
  rfl

/-- Two texts are lexed one after the other, if the second begins with a delimiter. -/
theorem Lexes.append {a b : String} {ts us : List Token} (ha : Lexes a ts) (hb : Lexes b us)
    (hd : Delimited b.toList) : Lexes (a ++ b) (ts ++ us) := by
  rw [Lexes, String.toList_append, lexFrom_append hd ha, hb]
  rfl

theorem Lexes.opens {a b : String} {ts us : List Token} (ha : Lexes a ts) (hb : Opens b us)
    (hd : b.toList.head?.any isDelimiter = true) : Opens (a ++ b) (ts ++ us) := by
  intro tail
  have delimited : Delimited (b.toList ++ tail) := by
    cases hl : b.toList with
    | nil => simp [hl] at hd
    | cons c cs => exact delimited_cons.2 (by simpa [hl] using hd)
  rw [String.toList_append, List.append_assoc, lexFrom_append delimited ha, hb, map_append]

/-- Two openings make one. -/
theorem Opens.trans {a b : String} {ts us : List Token} (ha : Opens a ts) (hb : Opens b us) :
    Opens (a ++ b) (ts ++ us) := by
  intro tail
  rw [String.toList_append, List.append_assoc, ha, hb, map_append]

theorem opens_delimiter {c : Char} {ts : List Token} (hc : isDelimiter c = true)
    (h : lexFrom [c] = .ok ts) : Opens (String.ofList [c]) ts := by
  intro tail
  obtain ⟨us, hus⟩ := lexFrom_delimiter hc
  have same : ts = us := by
    rw [hus, lexFrom_nil] at h
    simpa [Except.map] using h.symm
  rw [String.toList_ofList, List.singleton_append, hus, same]

theorem opens_blank : Opens " " [] := opens_delimiter (c := ' ') (by decide) (by decide +kernel)

theorem opens_paren : Opens "(" [.symbol .openParen] :=
  opens_delimiter (c := '(') (by decide) (by decide +kernel)

theorem opens_bracket : Opens "[" [.symbol .openBracket] :=
  opens_delimiter (c := '[') (by decide) (by decide +kernel)

theorem opens_comma : Opens ", " [.symbol .comma] := by
  have comma : Opens "," [.symbol .comma] := opens_delimiter (c := ',') (by decide) (by decide +kernel)
  exact comma.trans opens_blank

/-- A token between blanks. -/
theorem Lexes.spaced {word : String} {ts : List Token} (h : Lexes word ts) :
    Opens (" " ++ word ++ " ") ts := by
  have opens := opens_blank.trans (h.opens opens_blank (by decide))
  rwa [← String.append_assoc, List.nil_append, List.append_nil] at opens

/-- A phrase between two texts. -/
theorem Lexes.phrase {a b c : String} {ts us vs : List Token} (ha : Lexes a ts) (hb : Opens b us)
    (hd : b.toList.head?.any isDelimiter = true) (hc : Lexes c vs) :
    Lexes (a ++ b ++ c) (ts ++ us ++ vs) :=
  (ha.opens hb hd).append hc

/-! ## Keywords -/

/-- The keywords that statements are written with. -/
def keywords : List String :=
  ["SELECT", "DISTINCT", "FROM", "WHERE", "GROUP", "BY", "HAVING", "ORDER", "ASC", "DESC", "LIMIT",
    "OFFSET", "AND", "OR", "NOT", "IN", "BETWEEN", "IS", "NULL", "CASE", "WHEN", "THEN", "ELSE",
    "END", "CAST", "AS"]

theorem isKeyword_keywords : ∀ word ∈ keywords, isKeyword word = true := by
  decide +kernel

/-- Each word of the table is lexed as a keyword. -/
theorem lexes_keyword (word : String) (h : word ∈ keywords) : Lexes word [.keyword word] :=
  (isToken_keyword (isKeyword_keywords word h)).lexFrom_eq

theorem opens_in : Opens " IN (" [.keyword "IN", .symbol .openParen] := by
  have word := lexes_keyword "IN" (by decide)
  have opens := word.spaced.trans opens_paren
  exact opens

theorem opens_not : Opens "NOT (" [.keyword "NOT", .symbol .openParen] := by
  have word := lexes_keyword "NOT" (by decide)
  have opens := word.opens (opens_blank.trans opens_paren) (by decide)
  exact opens

theorem opens_cast : Opens "CAST(" [.keyword "CAST", .symbol .openParen] := by
  have word := lexes_keyword "CAST" (by decide)
  have opens := word.opens opens_paren (by decide)
  exact opens

/-! ## Expressions as tokens -/

def Literal.tokens : Literal → List Token
  | .integer n => (Numeral.ofInt n.toInt).tokens
  | .float x => (Literal.positional x).tokens
  | .string s => [.string s]
  | .boolean b => [.keyword (if b then "TRUE" else "FALSE")]
  | .null => [.keyword "NULL"]

def BinaryOperator.token : BinaryOperator → Token
  | .eq => .symbol .eq
  | .notEq => .symbol .notEq
  | .lt => .symbol .lt
  | .ltEq => .symbol .ltEq
  | .gt => .symbol .gt
  | .gtEq => .symbol .gtEq
  | .and => .keyword "AND"
  | .or => .keyword "OR"
  | .add => .symbol .plus
  | .sub => .symbol .minus
  | .mul => .symbol .star
  | .div => .symbol .slash

/-- The tokens of the text of a type. -/
def typeTokens (type : String) : List Token :=
  match lex type with
  | .ok ts => ts
  | .error _ => []

def parens (ts : List Token) : List Token :=
  [.symbol .openParen] ++ ts ++ [.symbol .closeParen]

mutual

/-- The tokens of an expression. -/
def Expr.tokens : Expr → List Token
  | .literal value => value.tokens
  | .field name => [.name name]
  | .binary left op right =>
    if op.wraps then parens (left.tokens ++ [op.token] ++ right.tokens)
    else left.tokens ++ [op.token] ++ right.tokens
  | .not operand => [.keyword "NOT"] ++ parens operand.tokens
  | .count none => [.name "COUNT"] ++ parens [.symbol .star]
  | .count (some operand) => [.name "COUNT"] ++ parens operand.tokens
  | .aggregate function operand => [.name function.sql] ++ parens operand.tokens
  | .call name arguments => [.name name] ++ parens (listTokens arguments)
  | .array items => [.symbol .openBracket] ++ listTokens items ++ [.symbol .closeBracket]
  | .tuple items => parens (listTokens items)
  | .isIn operand candidates => operand.tokens ++ [.keyword "IN"] ++ parens (listTokens candidates)
  | .between operand low high =>
    operand.tokens ++ [.keyword "BETWEEN"] ++ low.tokens ++ [.keyword "AND"] ++ high.tokens
  | .isNull operand negated =>
    operand.tokens ++ [.keyword "IS"] ++ (if negated then [.keyword "NOT"] else []) ++
      [.keyword "NULL"]
  | .case subject branches otherwise =>
    [.keyword "CASE"] ++ afterTokens [] subject ++ branchesTokens branches ++
      afterTokens [.keyword "ELSE"] otherwise ++ [.keyword "END"]
  | .cast operand type =>
    [.keyword "CAST"] ++ parens (operand.tokens ++ [.keyword "AS"] ++ typeTokens type)
  | .aliased operand name => operand.tokens ++ [.keyword "AS"] ++ [.name name]

def listTokens : List Expr → List Token
  | [] => []
  | e :: rest => e.tokens ++ tailTokens rest

/-- The tokens of expressions with a comma before each. -/
def tailTokens : List Expr → List Token
  | [] => []
  | e :: rest => [.symbol .comma] ++ e.tokens ++ tailTokens rest

/-- The tokens of an expression after others, or nothing. -/
def afterTokens (first : List Token) : Option Expr → List Token
  | none => []
  | some e => first ++ e.tokens

def branchesTokens : List (Expr × Expr) → List Token
  | [] => []
  | (condition, result) :: rest =>
    [.keyword "WHEN"] ++ condition.tokens ++ [.keyword "THEN"] ++ result.tokens ++
      branchesTokens rest

end

/-! ## What the text shows as it is -/

/-- The words that the clauses of a statement begin with. -/
def clauseWords : List String :=
  ["SELECT", "FROM", "WHERE", "GROUP", "HAVING", "ORDER", "LIMIT", "OFFSET"]

/-- The token begins a clause. -/
def Token.isClause : Token → Bool
  | .keyword word => clauseWords.contains word
  | _ => false

/-- The token may stand in the text of a type: a word that begins no clause, a
number, a comma or a parenthesis. -/
def Token.isTypePart : Token → Bool
  | .name _ | .number _ => true
  | .keyword word => !clauseWords.contains word
  | .symbol .comma | .symbol .openParen | .symbol .closeParen => true
  | _ => false

/-- The text of a type has tokens by itself, and only such as belong there. -/
def isPlainType (type : String) : Bool :=
  match lex type with
  | .ok ts => ts.all Token.isTypePart
  | .error _ => false

/-- The name of a function is a bare word, and not a reserved one. -/
def isPlainName (name : String) : Bool :=
  Identifier.isSafe name && !Keyword.isReserved name

mutual

/-- Floats are finite, functions have bare names, and types are plain. -/
def Expr.isPlain : Expr → Bool
  | .literal (.float x) => x.isFinite
  | .literal _ | .field _ | .count none => true
  | .binary left _ right => left.isPlain && right.isPlain
  | .not operand | .count (some operand) | .aggregate _ operand | .isNull operand _
  | .aliased operand _ => operand.isPlain
  | .call name arguments => isPlainName name && listIsPlain arguments
  | .array items | .tuple items => listIsPlain items
  | .isIn operand candidates => operand.isPlain && listIsPlain candidates
  | .between operand low high => operand.isPlain && low.isPlain && high.isPlain
  | .case subject branches otherwise =>
    optionIsPlain subject && branchesArePlain branches && optionIsPlain otherwise
  | .cast operand type => operand.isPlain && isPlainType type

def listIsPlain : List Expr → Bool
  | [] => true
  | e :: rest => e.isPlain && listIsPlain rest

/-- An expression is plain or absent. -/
def optionIsPlain : Option Expr → Bool
  | none => true
  | some e => e.isPlain

def branchesArePlain : List (Expr × Expr) → Bool
  | [] => true
  | (condition, result) :: rest =>
    condition.isPlain && result.isPlain && branchesArePlain rest

end

/-! ## The tokens of the text -/

/-- An operator between blanks is one token in front of anything. -/
theorem opens_operator (op : BinaryOperator) : Opens (" " ++ op.sql ++ " ") [op.token] := by
  cases op with
  | and => exact (lexes_keyword "AND" (by decide)).spaced
  | or => exact (lexes_keyword "OR" (by decide)).spaced
  | _ => exact Lexes.spaced (by decide +kernel)

theorem delimited_append {a b : String} (h : a.toList.head?.any isDelimiter = true) :
    Delimited (a ++ b).toList := by
  rw [String.toList_append]
  cases hl : a.toList with
  | nil => simp [hl] at h
  | cons c cs => exact delimited_cons.2 (by simpa [hl] using h)

theorem delimited_closeParen : Delimited ")".toList :=
  delimited_cons.2 (by decide)

/-- A text between parentheses, of which the first ends what stands before them. -/
theorem Opens.parens {a b : String} {u ts : List Token} (ha : Opens a (u ++ [.symbol .openParen]))
    (hb : Lexes b ts) : Lexes (a ++ b ++ ")") (u ++ parens ts) := by
  have close : Lexes ")" [.symbol .closeParen] := by decide +kernel
  simpa only [SqlSelect.parens, List.append_assoc] using (ha.append hb).append close delimited_closeParen

theorem lexes_name {name : String} (h : isPlainName name = true) : Lexes name [.name name] := by
  simp only [isPlainName, Bool.and_eq_true, Bool.not_eq_true'] at h
  rw [Lexes, (isToken_word h.1).lexFrom_eq, ofWord_of_not_isReserved h.2]

theorem lexes_literal {value : Literal} (h : (Expr.literal value).isPlain = true) :
    Lexes value.sql value.tokens := by
  cases value with
  | integer n => exact lexFrom_numeral (Numeral.readable_ofInt _) rfl
  | float x =>
    have finite : x.isFinite = true := h
    rw [Lexes, Literal.sql, Literal.floatSql, if_pos finite]
    exact lexFrom_numeral (Decimal.readable_positional _ _) (Decimal.exponent_positional _ _)
  | string s => exact (isToken_quote s).lexFrom_eq
  | boolean b => cases b <;> decide +kernel
  | null => exact lexes_keyword _ (by decide)

theorem lexes_type {type : String} (h : isPlainType type = true) :
    Lexes type (typeTokens type) := by
  unfold isPlainType at h
  split at h
  · next ts hts => rw [typeTokens, hts]; exact hts
  · simp at h

/-- The texts of later list entries begin with a comma, if there are any. -/
theorem delimited_tailSql (es : List Expr) : Delimited (tailSql es).toList := by
  cases es with
  | nil => exact delimited_nil
  | cons e rest =>
    rw [tailSql, String.append_assoc, String.toList_append]
    exact delimited_cons.2 (by decide)

theorem delimited_afterSql {word : String} (h : word.toList.head?.any isDelimiter = true)
    (e : Option Expr) : Delimited (afterSql word e).toList := by
  cases e with
  | none => exact delimited_nil
  | some e => exact delimited_append h

/-- Branches begin with a blank, if there are any. -/
theorem delimited_branchesSql (bs : List (Expr × Expr)) : Delimited (branchesSql bs).toList := by
  cases bs with
  | nil => exact delimited_nil
  | cons b rest =>
    obtain ⟨condition, result⟩ := b
    simp only [branchesSql, String.append_assoc]
    exact delimited_append (by decide)

mutual

/-- **The text of an expression** has the tokens of the expression. -/
theorem Expr.lexes_sql : (e : Expr) → e.isPlain = true → Lexes e.sql e.tokens
  | .literal value, h => by
    rw [Expr.sql, Expr.tokens]
    exact lexes_literal h
  | .field name, _ => by
    rw [Expr.sql, Expr.tokens]
    exact (isToken_identifier name).lexFrom_eq
  | .binary left op right, h => by
    simp only [Expr.isPlain, Bool.and_eq_true] at h
    have whole := (left.lexes_sql h.1).phrase (opens_operator op) (by cases op <;> decide)
      (right.lexes_sql h.2)
    rw [Expr.sql, Expr.tokens]
    split
    · simpa only [String.append_assoc, List.nil_append] using Opens.parens (u := []) opens_paren whole
    · simpa only [String.append_assoc] using whole
  | .not operand, h => by
    have inner := operand.lexes_sql (by simpa only [Expr.isPlain] using h)
    rw [Expr.sql, Expr.tokens]
    exact opens_not.parens inner
  | .count none, _ => by
    have word : Lexes "COUNT" [.name "COUNT"] := lexes_name (by decide +kernel)
    have star : Lexes "*" [.symbol .star] := by decide +kernel
    rw [Expr.sql, Expr.tokens]
    exact (word.opens opens_paren (by decide)).parens star
  | .count (some operand), h => by
    have inner := operand.lexes_sql (by simpa only [Expr.isPlain] using h)
    have word : Lexes "COUNT" [.name "COUNT"] := lexes_name (by decide +kernel)
    have opens := word.opens opens_paren (by decide)
    rw [Expr.sql, Expr.tokens]
    exact opens.parens inner
  | .aggregate function operand, h => by
    have inner := operand.lexes_sql (by simpa only [Expr.isPlain] using h)
    have word : Lexes function.sql [.name function.sql] := lexes_name (by cases function <;> decide +kernel)
    rw [Expr.sql, Expr.tokens]
    exact (word.opens opens_paren (by decide)).parens inner
  | .call name arguments, h => by
    simp only [Expr.isPlain, Bool.and_eq_true] at h
    rw [Expr.sql, Expr.tokens]
    exact ((lexes_name h.1).opens opens_paren (by decide)).parens (lexes_listSql arguments h.2)
  | .array items, h => by
    have inner := lexes_listSql items (by simpa only [Expr.isPlain] using h)
    rw [Expr.sql, Expr.tokens]
    exact (opens_bracket.append inner).append (by decide +kernel) (delimited_cons.2 (by decide))
  | .tuple items, h => by
    rw [Expr.sql, Expr.tokens]
    exact Opens.parens (u := []) opens_paren (lexes_listSql items (by simpa only [Expr.isPlain] using h))
  | .isIn operand candidates, h => by
    simp only [Expr.isPlain, Bool.and_eq_true] at h
    have inner := (operand.lexes_sql h.1).opens opens_in (by decide)
    rw [Expr.sql, Expr.tokens]
    exact Opens.parens (u := operand.tokens ++ [.keyword "IN"]) (by simpa using inner)
      (lexes_listSql candidates h.2)
  | .between operand low high, h => by
    simp only [Expr.isPlain, Bool.and_eq_true] at h
    have between : Opens " BETWEEN " [.keyword "BETWEEN"] :=
      (lexes_keyword "BETWEEN" (by decide)).spaced
    have bounds : Opens " AND " [.keyword "AND"] := (lexes_keyword "AND" (by decide)).spaced
    have lower := (operand.lexes_sql h.1.1).phrase between (by decide) (low.lexes_sql h.1.2)
    rw [Expr.sql, Expr.tokens]
    exact lower.phrase bounds (by decide) (high.lexes_sql h.2)
  | .isNull operand negated, h => by
    have inner := operand.lexes_sql (by simpa only [Expr.isPlain] using h)
    have test : Lexes (if negated then " IS NOT NULL" else " IS NULL")
        ([.keyword "IS"] ++ (if negated then [.keyword "NOT"] else []) ++ [.keyword "NULL"]) := by
      have is := (lexes_keyword "IS" (by decide)).spaced
      have word := lexes_keyword "NOT" (by decide)
      have not := word.opens opens_blank (by decide)
      have null := lexes_keyword "NULL" (by decide)
      cases negated with
      | true => exact (is.trans not).append null
      | false => exact is.append null
    have whole := inner.append test (by cases negated <;> exact delimited_cons.2 (by decide))
    rw [Expr.sql, Expr.tokens]
    simpa only [List.append_assoc] using whole
  | .case subject branches otherwise, h => by
    simp only [Expr.isPlain, Bool.and_eq_true] at h
    have first := (lexes_keyword "CASE" (by decide)).append
      (lexes_afterSql opens_blank subject h.1.1) (delimited_afterSql (by decide) subject)
    have second := first.append (lexes_branchesSql branches h.1.2) (delimited_branchesSql branches)
    have other : Opens " ELSE " [.keyword "ELSE"] := (lexes_keyword "ELSE" (by decide)).spaced
    have third := second.append (lexes_afterSql other otherwise h.2)
      (delimited_afterSql (by decide) otherwise)
    have last := opens_blank.append (lexes_keyword "END" (by decide))
    rw [Expr.sql, Expr.tokens]
    exact third.append last (delimited_cons.2 (by decide))
  | .cast operand type, h => by
    simp only [Expr.isPlain, Bool.and_eq_true] at h
    have target : Opens " AS " [.keyword "AS"] := (lexes_keyword "AS" (by decide)).spaced
    have inner := (operand.lexes_sql h.1).phrase target (by decide) (lexes_type h.2)
    rw [Expr.sql, Expr.tokens]
    simpa only [String.append_assoc] using opens_cast.parens inner
  | .aliased operand name, h => by
    have inner := operand.lexes_sql (by simpa only [Expr.isPlain] using h)
    have named : Opens " AS " [.keyword "AS"] := (lexes_keyword "AS" (by decide)).spaced
    rw [Expr.sql, Expr.tokens]
    exact inner.phrase named (by decide) (isToken_identifier name).lexFrom_eq

/-- A list of plain expressions is lexed as its tokens, with commas between them. -/
theorem lexes_listSql : (es : List Expr) → listIsPlain es = true → Lexes (listSql es) (listTokens es)
  | [], _ => by
    rw [listSql, listTokens]
    decide +kernel
  | e :: rest, h => by
    simp only [listIsPlain, Bool.and_eq_true] at h
    rw [listSql, listTokens]
    exact (e.lexes_sql h.1).append (lexes_tailSql rest h.2) (delimited_tailSql rest)

theorem lexes_tailSql : (es : List Expr) → listIsPlain es = true → Lexes (tailSql es) (tailTokens es)
  | [], _ => by
    rw [tailSql, tailTokens]
    decide +kernel
  | e :: rest, h => by
    simp only [listIsPlain, Bool.and_eq_true] at h
    rw [tailSql, tailTokens]
    exact (opens_comma.append (e.lexes_sql h.1)).append (lexes_tailSql rest h.2) (delimited_tailSql rest)

theorem lexes_afterSql {word : String} {ts : List Token} (hw : Opens word ts) :
    (e : Option Expr) → optionIsPlain e = true → Lexes (afterSql word e) (afterTokens ts e)
  | none, _ => by
    rw [afterSql, afterTokens]
    decide +kernel
  | some e, h => by
    rw [afterSql, afterTokens]
    exact hw.append (e.lexes_sql h)

/-- Branches of plain expressions are lexed as their tokens. -/
theorem lexes_branchesSql : (bs : List (Expr × Expr)) → branchesArePlain bs = true →
    Lexes (branchesSql bs) (branchesTokens bs)
  | [], _ => by
    rw [branchesSql, branchesTokens]
    decide +kernel
  | (condition, result) :: rest, h => by
    simp only [branchesArePlain, Bool.and_eq_true] at h
    have first : Opens " WHEN " [.keyword "WHEN"] := (lexes_keyword "WHEN" (by decide)).spaced
    have second : Opens " THEN " [.keyword "THEN"] := (lexes_keyword "THEN" (by decide)).spaced
    have branch := (first.append (condition.lexes_sql h.1.1)).phrase second (by decide)
      (result.lexes_sql h.1.2)
    rw [branchesSql, branchesTokens]
    exact branch.append (lexes_branchesSql rest h.2) (delimited_branchesSql rest)

end

end SqlSelect
