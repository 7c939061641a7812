import SqlSelect.Proofs.Token.Expr

/-!
# Columns and values

Two texts that are equal have the same tokens, and a column is a single name. The words
that literals are written with are keywords, which no name is taken for, except for
two: `nan` and `inf` are not reserved. So a column has the text of a value exactly if it
has one of these names (`sql_column_eq_iff`).
-/

set_option autoImplicit false

namespace SqlSelect

open Lexer

/-- A text has one list of tokens. -/
theorem Lexes.unique {text : String} {ts us : List Token} (h : Lexes text ts)
    (h' : Lexes text us) : ts = us :=
  Except.ok.inj (h.symm.trans h')

theorem Numeral.tokens_ne_name (n : Numeral) (name : String) : n.tokens ≠ [.name name] := by
  unfold Numeral.tokens
  cases n.negative <;> simp

namespace Literal

/-! ## Floats -/

/-- The tokens of a float, be it a number or not. -/
def floatTokens (x : Binary64) : List Token :=
  if x.isFinite then (positional x).tokens
  else if x.isNaN then [.name "nan"]
  else if x.negative then [.symbol .minus, .name "inf"]
  else [.name "inf"]

/-- A float is lexed as a numeral, or as the word for what is not finite. -/
theorem lexes_floatSql (x : Binary64) : Lexes (floatSql x) (floatTokens x) := by
  unfold floatTokens
  split_ifs with finite nan negative
  · have plain : (Expr.literal (.float x)).isPlain = true := finite
    exact lexes_literal plain
  · rw [floatSql, if_neg finite, nonFinite, if_pos nan]
    decide +kernel
  · rw [floatSql, if_neg finite, nonFinite, if_neg nan, if_pos negative]
    decide +kernel
  · rw [floatSql, if_neg finite, nonFinite, if_neg nan, if_neg negative]
    decide +kernel

theorem sql_of_isNaN {x : Binary64} (nan : x.isNaN = true) : (float x).sql = "nan" := by
  have infinite : ¬ x.isFinite = true := by
    simp only [Binary.isNaN, Binary.isFinite, decide_eq_true_eq] at nan ⊢
    omega
  rw [sql, floatSql, if_neg infinite, nonFinite, if_pos nan]

/-- What is neither finite nor a not-a-number nor negative is infinity. -/
theorem eq_infinity {x : Binary64} (infinite : ¬ x.isFinite = true) (number : ¬ x.isNaN = true)
    (positive : ¬ x.negative = true) : x = .infinity .binary64 false := by
  obtain ⟨negative, magnitude, lt⟩ := x
  simp only [Binary.isNaN, Binary.isFinite, decide_eq_true_eq, Bool.not_eq_true] at infinite number positive
  obtain rfl : magnitude = Format.infinity .binary64 := by omega
  rw [positive]
  rfl

/-! ## Words -/

/-- The value is written as a word that is not reserved. -/
inductive HasWord : Literal → String → Prop
  | nan {x : Binary64} (nan : x.isNaN = true) : HasWord (.float x) "nan"
  | infinity : HasWord (.float (.infinity .binary64 false)) "inf"

theorem HasWord.sql_eq {value : Literal} {word : String} (h : HasWord value word) :
    value.sql = word := by
  cases h with
  | nan nan => exact sql_of_isNaN nan
  | infinity => decide +kernel

/-- A word for a literal that a name may be mistaken for is not quoted. -/
theorem HasWord.needsQuotes {value : Literal} {word : String} (h : HasWord value word) :
    Identifier.needsQuotes word = false := by
  cases h <;> decide +kernel

/-- A literal of which the text is a single name is one of these. -/
theorem hasWord_of_lexes {value : Literal} {name : String} (h : Lexes value.sql [.name name]) :
    HasWord value name := by
  cases value with
  | float x =>
    have tokens := (lexes_floatSql x).unique h
    unfold floatTokens at tokens
    split_ifs at tokens with finite nan negative
    · exact absurd tokens (Numeral.tokens_ne_name _ _)
    · obtain rfl : "nan" = name := by simpa using tokens
      exact .nan nan
    · simp at tokens
    · obtain rfl : "inf" = name := by simpa using tokens
      rw [eq_infinity finite nan negative]
      exact .infinity
  | integer n => exact absurd ((lexes_literal rfl).unique h) (Numeral.tokens_ne_name _ _)
  | string s => cases (@lexes_literal (.string s) rfl).unique h
  | boolean b => cases (@lexes_literal (.boolean b) rfl).unique h
  | null => cases (@lexes_literal .null rfl).unique h

/-- **A name has the text of a literal** only if this text is a word that is not reserved. -/
theorem identifier_sql_eq_iff {name : String} {value : Literal} :
    Identifier.sql name = value.sql ↔ HasWord value name := by
  constructor
  · intro same
    have tokens : Lexes (Identifier.sql name) [.name name] := (isToken_identifier name).lexFrom_eq
    exact hasWord_of_lexes (same ▸ tokens)
  · intro h
    rw [h.sql_eq, Identifier.sql, h.needsQuotes, if_neg Bool.false_ne_true]

/-- The words are two, `nan` and `inf`. -/
theorem hasWord_iff {name : String} {value : Literal} :
    HasWord value name ↔ (name = "nan" ∧ ∃ x, value = .float x ∧ x.isNaN = true) ∨
      (name = "inf" ∧ value = .float (.infinity .binary64 false)) := by
  constructor
  · intro h
    cases h with
    | nan nan => exact .inl ⟨rfl, _, rfl, nan⟩
    | infinity => exact .inr ⟨rfl, rfl⟩
  · rintro (⟨rfl, x, rfl, nan⟩ | ⟨rfl, rfl⟩)
    · exact .nan nan
    · exact .infinity

/-- The text of a literal is a bare name exactly if it is one of these words. -/
theorem needsQuotes_sql_iff {value : Literal} :
    Identifier.needsQuotes value.sql = false ↔ value.sql = "nan" ∨ value.sql = "inf" := by
  constructor
  · intro bare
    have same : Identifier.sql value.sql = value.sql := by
      rw [Identifier.sql, bare, if_neg Bool.false_ne_true]
    rcases hasWord_iff.1 (identifier_sql_eq_iff.1 same) with ⟨word, -⟩ | ⟨word, -⟩
    · exact .inl word
    · exact .inr word
  · rintro (word | word)
    · rw [word]
      decide +kernel
    · rw [word]
      decide +kernel

end Literal

/-- **A column has the text of a value** exactly if it is named `nan` and the value is not a
number, or it is named `inf` and the value is the positive infinity. Of all the words that
values are written with, these two alone are not reserved. -/
theorem Expr.sql_column_eq_iff (name : String) (value : Literal) :
    ((Expr.field name).sql = (Expr.literal value).sql ↔
      (name = "nan" ∧ ∃ x, value = .float x ∧ x.isNaN = true) ∨
        (name = "inf" ∧ value = .float (.infinity .binary64 false))) ∧
      (Identifier.needsQuotes value.sql = false ↔ value.sql = "nan" ∨ value.sql = "inf") := by
  refine ⟨?_, Literal.needsQuotes_sql_iff⟩
  rw [Expr.sql, Expr.sql, Literal.identifier_sql_eq_iff, Literal.hasWord_iff]

/-- A column and a value with one text. -/
theorem Expr.sql_column_nan :
    (Expr.field "nan").sql = (Expr.literal (.float (.nan .binary64))).sql ∧
      (Expr.field "inf").sql = (Expr.literal (.float (.infinity .binary64 false))).sql := by
  decide +kernel

end SqlSelect
