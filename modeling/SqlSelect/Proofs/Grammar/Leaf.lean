import SqlSelect.Proofs.Binary.Shortest
import SqlSelect.Proofs.Grammar.Reader

/-!
# Reading literals, names and types

What the reader does with the parts of a text that hold no expressions: fixed
phrases, numbers, and the text of a type, of which only the parentheses count.
-/

set_option autoImplicit false

namespace SqlSelect.Grammar

open Lexer

/-! ## What may follow -/

/-- The characters that follow expressions. -/
def isEnd (c : Char) : Bool := c = ' ' || c = ')' || c = ']' || c = ','

/-- The text is empty or goes on with one of them. -/
def Follows (rest : List Char) : Prop := rest.head?.all isEnd = true

theorem delimited_of_follows {rest : List Char} (h : Follows rest) : Delimited rest := by
  cases rest with
  | nil => exact delimited_nil
  | cons c cs =>
    rw [delimited_cons]
    simp only [Follows, isEnd, List.head?_cons, Option.all_some, Bool.or_eq_true, decide_eq_true_eq] at h
    rcases h with ((rfl | rfl) | rfl) | rfl <;> decide

/-- No call begins where an expression ends. -/
theorem expect_paren_of_follows {rest : List Char} (h : Follows rest) : expect "(" rest = none := by
  cases rest with
  | nil => rfl
  | cons c cs =>
    simp only [Follows, isEnd, List.head?_cons, Option.all_some, Bool.or_eq_true, decide_eq_true_eq] at h
    rcases h with ((rfl | rfl) | rfl) | rfl <;> rfl

/-! ## Tokens and phrases -/

/-- The first token of a text, in front of what cannot continue it. -/
theorem token?_append {cs tail : List Char} {t : Token} (h : IsToken cs t) (ht : Delimited tail) :
    token? (cs ++ tail) = some (t, tail) := by
  obtain ⟨c, rest, rfl, -, read⟩ := h
  rw [List.cons_append, token?, scan_append ht read]
  rfl

theorem token?_keyword (word : String) {tail : List Char} (h : word ∈ keywords)
    (ht : Delimited tail) : token? (word.toList ++ tail) = some (.keyword word, tail) :=
  token?_append (isToken_keyword (isKeyword_keywords word h)) ht

theorem token?_name {name : String} {tail : List Char} (h : isPlainName name = true)
    (ht : Delimited tail) : token? (name.toList ++ tail) = some (.name name, tail) := by
  simp only [isPlainName, Bool.and_eq_true, Bool.not_eq_true'] at h
  have word := isToken_word h.1
  rw [ofWord_of_not_isReserved h.2] at word
  exact token?_append word ht

theorem token?_delimiter {c : Char} {s : Symbol} (hs : symbol? c = some s)
    (hd : isDelimiter c = true) (tail : List Char) :
    token? (c :: tail) = some (.symbol s, tail) := by
  have blank : isBlank c = false := by
    by_contra h
    simp only [isBlank, Bool.not_eq_false, Bool.or_eq_true, decide_eq_true_eq] at h
    rcases h with ((rfl | rfl) | rfl) | rfl <;> cases hs
  obtain ⟨s', hs', read⟩ := scan_delimiter hd blank
  rw [hs, Option.some.injEq] at hs'
  rw [token?, read, hs']

theorem token?_openParen (tail : List Char) :
    token? ("(".toList ++ tail) = some (.symbol .openParen, tail) :=
  token?_delimiter (c := '(') rfl (by decide) tail

theorem token?_closeParen (tail : List Char) :
    token? (")".toList ++ tail) = some (.symbol .closeParen, tail) :=
  token?_delimiter (c := ')') rfl (by decide) tail

theorem token?_openBracket (tail : List Char) :
    token? ("[".toList ++ tail) = some (.symbol .openBracket, tail) :=
  token?_delimiter (c := '[') rfl (by decide) tail

theorem token?_closeBracket (tail : List Char) :
    token? ("]".toList ++ tail) = some (.symbol .closeBracket, tail) :=
  token?_delimiter (c := ']') rfl (by decide) tail

theorem skip?_append (phrase rest : List Char) : skip? phrase (phrase ++ rest) = some rest := by
  induction phrase with
  | nil => rfl
  | cons c cs ih => rw [List.cons_append, skip?, if_pos rfl, ih]

theorem expect_append (phrase : String) (rest : List Char) :
    expect phrase (phrase.toList ++ rest) = some rest :=
  skip?_append _ _

/-! ## Numbers -/

/-- A numeral is had back from its sign and its digits. -/
theorem numeralOf_plainDigits {n : Numeral} (h : n.Readable) (he : n.exponent = none) :
    numeralOf n.negative (plainDigits n) = n := by
  obtain ⟨negative, whole, fraction, exponent⟩ := n
  have wholeDigits : ∀ c ∈ whole, c.isDigit = true := h.whole
  have noExponent : exponent = none := he
  subst noExponent
  cases fraction with
  | nil =>
    obtain ⟨taken, dropped⟩ := takeWhile_digits [] wholeDigits (by simp)
    simp only [numeralOf, plainDigits, List.isEmpty_nil, ↓reduceIte, taken, dropped, List.drop_nil]
  | cons d ds =>
    obtain ⟨taken, dropped⟩ := takeWhile_digits ('.' :: d :: ds) wholeDigits (by simp)
    simp only [numeralOf, plainDigits, List.isEmpty_cons, Bool.false_eq_true, ↓reduceIte, taken,
      dropped, List.drop_succ_cons, List.drop_zero]

theorem literalOf_ofInt (n : Int64) : literalOf (Numeral.ofInt n.toInt) = .integer n := by
  change Literal.integer (.ofInt (Numeral.ofInt n.toInt).integer) = _
  rw [Numeral.integer_ofInt, Int64.ofInt_toInt]

/-- A float is had back from its numeral, as that has a point. -/
theorem literalOf_positional {x : Binary64} (h : x.isFinite = true) :
    literalOf (Literal.positional x) = .float x := by
  have point : (Literal.positional x).fraction.isEmpty = false := by
    rw [List.isEmpty_eq_false_iff]
    exact Decimal.fraction_positional _ _
  rw [literalOf, point]
  exact congrArg Literal.float (Binary.ofNumeral_positional (by decide) .away h)

/-- A number reads back with its sign. -/
theorem readClosed_numeral (form : Reader Expr) (steps : Nat) {n : Numeral} (h : n.Readable)
    (he : n.exponent = none) {rest : List Char} (hr : Follows rest) :
    readClosed form steps (n.text.toList ++ rest) = some (.literal (literalOf n), rest) := by
  have digits := token?_append (isToken_plainDigits h) (delimited_of_follows hr)
  have numeral := numeralOf_plainDigits h he
  rw [toList_text he]
  cases hn : n.negative with
  | false =>
    rw [hn] at numeral
    simp only [Bool.false_eq_true, ↓reduceIte, List.nil_append]
    rw [readClosed, digits]
    simp only [Option.bind_eq_bind, Option.bind_some, String.toList_ofList, numeral]
  | true =>
    rw [hn] at numeral
    obtain ⟨c, cs, hw⟩ := List.exists_cons_of_ne_nil h.whole_ne_nil
    obtain ⟨ds, hds⟩ : ∃ ds, plainDigits n ++ rest = c :: ds := ⟨_, by rw [plainDigits, hw]; rfl⟩
    have minus : token? ('-' :: c :: ds) = some (.symbol .minus, c :: ds) := by
      rw [token?, scan_minus (h.whole c (by rw [hw]; simp))]
    simp only [↓reduceIte, List.cons_append, List.nil_append]
    rw [hds] at digits ⊢
    rw [readClosed, minus]
    simp only [Option.bind_eq_bind, Option.bind_some]
    rw [readNegative, digits]
    simp only [Option.bind_eq_bind, Option.bind_some, String.toList_ofList, numeral]

/-! ## Types -/

/-- Every parenthesis of the text has its partner, where `depth` are open before it. -/
def isBalanced : Nat → List Char → Bool
  | depth, [] => depth = 0
  | depth, c :: cs =>
    if c = '(' then isBalanced (depth + 1) cs
    else if c = ')' then
      match depth with
      | 0 => false
      | depth + 1 => isBalanced depth cs
    else isBalanced depth cs

/-- The text of a type reads back if its parentheses are in order. -/
theorem readType_append {type : List Char} {depth : Nat} (h : isBalanced depth type = true)
    (rest : List Char) : readType depth (type ++ ")".toList ++ rest) = some (type, rest) := by
  fun_induction isBalanced depth type with
  | case1 depth =>
    have zero : depth = 0 := of_decide_eq_true h
    subst zero
    rfl
  | case2 depth cs ih => simp only [List.cons_append, readType, ↓reduceIte, ih h, Option.map_some]
  | case3 => simp at h
  | case4 cs _ depth ih =>
    simp only [List.cons_append, readType, ↓reduceIte, ih h, Option.map_some]
    rfl
  | case5 depth c cs ho hc ih =>
    simp only [List.cons_append, readType, ho, hc, ↓reduceIte, ih h, Option.map_some]

end SqlSelect.Grammar
