import SqlSelect.Literal
import SqlSelect.Proofs.Decimal.Digits
import SqlSelect.Proofs.Keyword.Search
import SqlSelect.Proofs.Token.Lexer

/-!
# The tokens of literals and names

A string literal is one token and carries the string, whatever is in it
(`isToken_quote`); so is a name, bare or between backticks (`isToken_identifier`).
A number is one token after its sign (`lexFrom_numeral`).
-/

set_option autoImplicit false

namespace SqlSelect

open Lexer

/-! ## Between quotes -/

namespace Lexer

/-- **Escaped characters read back** up to the quote after them, if each of them does so by
itself. -/
theorem read_flatMap {read : List Char → Except LexError (List Char × List Char)}
    {escape : Char → List Char} {quote : Char} {rest s : List Char}
    (close : read (quote :: rest) = .ok ([], rest))
    (each : ∀ c ∈ s, ∀ cs, read (escape c ++ cs) = push c (read cs)) :
    read (s.flatMap escape ++ quote :: rest) = .ok (s, rest) := by
  induction s with
  | nil => exact close
  | cons c s ih =>
    rw [List.forall_mem_cons] at each
    rw [List.flatMap_cons, List.append_assoc, each.1, ih each.2]
    rfl

/-- Step: a character is read back from its escape in a string. -/
theorem readString_escapeChar (c : Char) (cs : List Char) :
    readString (Literal.escapeChar c ++ cs) = push c (readString cs) := by
  unfold Literal.escapeChar
  split
  · next h => subst h; rfl
  split
  · next h => subst h; rfl
  split
  · next h => subst h; rfl
  split
  · next h => subst h; rfl
  split
  · next h => subst h; rfl
  · next hb hq _ _ _ =>
    rw [List.singleton_append, readString.eq_def]
    simp only [hb, hq, ↓reduceIte]

/-- The escaped characters of a string end at the quote after them. -/
theorem readString_escape (s rest : List Char) :
    readString (s.flatMap Literal.escapeChar ++ '\x27' :: rest) = .ok (s, rest) := by
  have close : readString ('\x27' :: rest) = .ok ([], rest) := by
    rw [readString.eq_def]
    rfl
  exact read_flatMap close fun c _ => readString_escapeChar c

theorem readQuoted_cons {c : Char} (h : c ≠ '\x60') (cs : List Char) :
    readQuoted (c :: cs) = push c (readQuoted cs) := by
  cases cs with
  | nil => simp [readQuoted, h, push, Except.map]
  | cons d cs => simp [readQuoted, h]

/-- The escaped characters of a name end at the backtick after them. -/
theorem readQuoted_escape {rest : List Char} (hr : ∀ c ∈ rest.head?, c ≠ '\x60') (s : List Char) :
    readQuoted ((s.flatMap fun c => if c = '\x60' then [c, c] else [c]) ++ '\x60' :: rest) =
      .ok (s, rest) := by
  have close : readQuoted ('\x60' :: rest) = .ok ([], rest) := by
    cases rest with
    | nil => rfl
    | cons d rest =>
      have hd : d ≠ '\x60' := hr d (by simp)
      simp [readQuoted, hd]
  refine read_flatMap close fun c _ cs => ?_
  by_cases hc : c = '\x60'
  · subst hc
    rw [if_pos rfl, List.cons_append, List.singleton_append]
    simp only [readQuoted, ↓reduceIte]
  · rw [if_neg hc, List.singleton_append, readQuoted_cons hc]

theorem toList_quote (s : String) :
    (Literal.quote s).toList = '\x27' :: (s.toList.flatMap Literal.escapeChar ++ ['\x27']) := by
  simp [Literal.quote, Literal.escape]

/-- **A string literal** is one token, and carries the string. -/
theorem isToken_quote (s : String) : IsToken (Literal.quote s).toList (.string s) := by
  refine ⟨_, _, toList_quote s, by decide, ?_⟩
  rw [scan, if_pos rfl, readString_escape]
  simp [Except.map]

/-! ## Words -/

theorem not_of_isStart {c : Char} (h : Identifier.isStart c = true) :
    c ≠ '\x27' ∧ c ≠ '\x60' ∧ c.isDigit = false ∧ isBlank c = false := by
  refine ⟨?_, ?_, ?_, ?_⟩
  · rintro rfl
    exact absurd h (by decide)
  · rintro rfl
    exact absurd h (by decide)
  · by_contra hd
    simp only [Bool.not_eq_false, Char.isDigit, Bool.and_eq_true, decide_eq_true_eq] at hd
    simp only [Identifier.isStart, Char.isAlpha, Char.isUpper, Char.isLower, Bool.or_eq_true,
      Bool.and_eq_true, decide_eq_true_eq] at h
    obtain ⟨low, high⟩ := hd
    rcases h with rfl | ⟨h, -⟩ | ⟨h, -⟩
    · exact absurd high (by decide)
    · exact absurd (UInt32.le_trans h high) (by decide)
    · exact absurd (UInt32.le_trans h high) (by decide)
  · by_contra hb
    simp only [Bool.not_eq_false, isBlank, Bool.or_eq_true, decide_eq_true_eq] at hb
    rcases hb with ((rfl | rfl) | rfl) | rfl <;> exact absurd h (by decide)

/-- A word goes on as far as a name may. -/
theorem scan_start {c : Char} (h : Identifier.isStart c = true) (cs : List Char) :
    scan c cs = .ok (.ofWord (String.ofList (c :: cs.takeWhile Identifier.isPart)),
      cs.dropWhile Identifier.isPart) := by
  obtain ⟨hs, hq, hd, -⟩ := not_of_isStart h
  rw [scan, if_neg hs, if_neg hq, if_neg (by simp [hd]), if_pos h]

/-- A bare word is one token. -/
theorem isToken_word {word : String} (h : Identifier.isSafe word = true) :
    IsToken word.toList (.ofWord word) := by
  unfold Identifier.isSafe at h
  split at h
  · simp at h
  · next c cs hw =>
    simp only [Bool.and_eq_true, List.all_eq_true] at h
    have all : cs.takeWhile Identifier.isPart = cs := List.takeWhile_eq_self_iff.2 h.2
    have none : cs.dropWhile Identifier.isPart = [] := List.dropWhile_eq_nil_iff.2 h.2
    have read := scan_start h.1 cs
    rw [all, none, ← hw, String.ofList_toList] at read
    exact ⟨c, cs, hw, (not_of_isStart h.1).2.2.2, read⟩

/-- A word that is not reserved is a name. -/
theorem ofWord_of_not_isReserved {word : String} (h : Keyword.isReserved word = false) :
    Token.ofWord word = .name word := by
  have absent : Keyword.upper word ∉ Keyword.reserved := by
    rw [← Keyword.isReserved_iff_mem, h]
    simp
  rw [Token.ofWord, if_neg absent]

/-- The word is reserved and stands in upper case. -/
def isKeyword (word : String) : Bool :=
  Identifier.isSafe word && Keyword.isReserved word && Keyword.upper word == word

theorem ofWord_of_isKeyword {word : String} (h : isKeyword word = true) :
    Token.ofWord word = .keyword word := by
  simp only [isKeyword, Bool.and_eq_true, beq_iff_eq] at h
  rw [Token.ofWord, if_pos (Keyword.isReserved_iff_mem.1 h.1.2), h.2]

/-- A keyword is one token. -/
theorem isToken_keyword {word : String} (h : isKeyword word = true) :
    IsToken word.toList (.keyword word) := by
  have keyword := ofWord_of_isKeyword h
  simp only [isKeyword, Bool.and_eq_true] at h
  exact keyword ▸ isToken_word h.1.1

theorem toList_sql_of_needsQuotes {name : String} (h : Identifier.needsQuotes name = true) :
    (Identifier.sql name).toList =
      '\x60' :: ((name.toList.flatMap fun c => if c = '\x60' then [c, c] else [c]) ++ ['\x60']) := by
  simp [Identifier.sql, h, Identifier.escape]

/-- A name that stands bare is safe and not reserved. -/
theorem of_not_needsQuotes {name : String} (h : Identifier.needsQuotes name = false) :
    Identifier.isSafe name = true ∧ Keyword.isReserved name = false := by
  simpa [Identifier.needsQuotes] using h

/-- **A name** is one token, and carries the name, whether it stands bare or
between backticks. -/
theorem isToken_identifier (name : String) :
    IsToken (Identifier.sql name).toList (.name name) := by
  cases h : Identifier.needsQuotes name with
  | true =>
    refine ⟨_, _, toList_sql_of_needsQuotes h, by decide, ?_⟩
    rw [scan, if_neg (by decide), if_pos rfl, readQuoted_escape (by simp)]
    simp [Except.map]
  | false =>
    obtain ⟨safe, free⟩ := of_not_needsQuotes h
    rw [Identifier.sql, h, if_neg (by simp), ← ofWord_of_not_isReserved free]
    exact isToken_word safe

/-! ## Numbers -/

theorem not_of_isDigit {c : Char} (h : c.isDigit = true) :
    c ≠ '\x27' ∧ c ≠ '\x60' ∧ isBlank c = false ∧ c ≠ '-' ∧ c ≠ '=' := by
  refine ⟨?_, ?_, ?_, ?_, ?_⟩
  · rintro rfl
    exact absurd h (by decide)
  · rintro rfl
    exact absurd h (by decide)
  · by_contra hb
    simp only [Bool.not_eq_false, isBlank, Bool.or_eq_true, decide_eq_true_eq] at hb
    rcases hb with ((rfl | rfl) | rfl) | rfl <;> exact absurd h (by decide)
  · rintro rfl
    exact absurd h (by decide)
  · rintro rfl
    exact absurd h (by decide)

/-- The characters of a numeral without a sign or an exponent. -/
def plainDigits (n : Numeral) : List Char :=
  n.whole ++ if n.fraction.isEmpty then [] else '.' :: n.fraction

/-- The digits of a numeral are read back, with their point. -/
theorem readNumber_plainDigits {n : Numeral} (h : n.Readable) :
    readNumber (plainDigits n) = .ok (plainDigits n, []) := by
  unfold plainDigits
  cases hf : n.fraction with
  | nil =>
    obtain ⟨taken, dropped⟩ := takeWhile_digits [] h.whole (by simp)
    rw [List.append_nil] at taken dropped
    simp only [List.isEmpty_nil, ↓reduceIte, readNumber, taken, dropped, List.append_nil]
  | cons d ds =>
    obtain ⟨taken, dropped⟩ := takeWhile_digits ('.' :: d :: ds) h.whole (by simp)
    obtain ⟨taken', dropped'⟩ := takeWhile_digits [] h.fraction (by simp)
    rw [hf, List.append_nil] at taken' dropped'
    simp only [List.isEmpty_cons, Bool.false_eq_true, ↓reduceIte, readNumber, taken, dropped,
      taken', dropped']

/-- They are one token. -/
theorem isToken_plainDigits {n : Numeral} (h : n.Readable) :
    IsToken (plainDigits n) (.number (String.ofList (plainDigits n))) := by
  obtain ⟨c, cs, hw⟩ := List.exists_cons_of_ne_nil h.whole_ne_nil
  have hc : c.isDigit = true := h.whole c (by rw [hw]; simp)
  obtain ⟨hs, hq, hb, -, -⟩ := not_of_isDigit hc
  have read := readNumber_plainDigits h
  obtain ⟨rest, hrest⟩ : ∃ rest, plainDigits n = c :: rest := ⟨_, by rw [plainDigits, hw]; rfl⟩
  refine ⟨c, rest, hrest, hb, ?_⟩
  rw [scan, if_neg hs, if_neg hq, if_pos hc, ← hrest, read]
  rfl

/-- A sign before a digit is a token of its own. -/
theorem scan_minus {c : Char} (hc : c.isDigit = true) (cs : List Char) :
    scan '-' (c :: cs) = .ok (.symbol .minus, c :: cs) := by
  obtain ⟨-, -, -, hm, he⟩ := not_of_isDigit hc
  have comment : beginsComment '-' c = false := by simp [beginsComment, hm]
  have short : longSymbol? '-' c = none := by simp [longSymbol?, he]
  rw [scan, if_neg (by decide), if_neg (by decide), if_neg (by decide), if_neg (by decide),
    readSymbol, comment, short]
  rfl

end Lexer

/-- The tokens of a number: perhaps a sign, and its digits. -/
def Numeral.tokens (n : Numeral) : List Token :=
  (if n.negative then [.symbol .minus] else []) ++ [.number { n with negative := false }.text]

theorem toList_text {n : Numeral} (he : n.exponent = none) :
    n.text.toList = (if n.negative then ['-'] else []) ++ plainDigits n := by
  simp only [Numeral.text, he, Option.map_none, Option.getD_none, String.toList_append,
    String.toList_ofList, plainDigits, List.append_assoc, apply_ite String.toList]
  simp

/-- **A number** is one token after its sign. -/
theorem lexFrom_numeral {n : Numeral} (h : n.Readable) (he : n.exponent = none) :
    lexFrom n.text.toList = .ok n.tokens := by
  have digits : { n with negative := false }.text = String.ofList (plainDigits n) := by
    have := toList_text (n := { n with negative := false }) he
    rw [← String.ofList_toList (s := Numeral.text _), this]
    rfl
  rw [toList_text he, Numeral.tokens, digits]
  cases n.negative with
  | false => exact (isToken_plainDigits h).lexFrom_eq
  | true =>
    have plain := (isToken_plainDigits h).lexFrom_eq
    obtain ⟨c, cs, hw⟩ := List.exists_cons_of_ne_nil h.whole_ne_nil
    obtain ⟨rest, hrest⟩ : ∃ rest, plainDigits n = c :: rest := ⟨_, by rw [plainDigits, hw]; rfl⟩
    rw [hrest] at plain ⊢
    simp only [↓reduceIte, List.singleton_append]
    rw [lexFrom_scan (by decide) (scan_minus (h.whole c (by rw [hw]; simp)) rest), plain]
    rfl

end SqlSelect
