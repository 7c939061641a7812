import Mathlib
import SqlSelect.Identifier

/-!
# A lexer for the dialect

The reader's side of a statement. `lex` takes a text apart into tokens without
knowing who wrote it: blanks separate tokens, a string stands between single
quotes and a backslash escapes in it, a name may stand between backticks and a
backtick in it is written twice, and a bare word is as long as it can be. A text
with an open quote or a comment has no tokens.

`lexFrom_append` is what statements are put together by: two texts side by side have
the tokens of both if the second begins where a token must end.
-/

set_option autoImplicit false

namespace SqlSelect

/-! ## Tokens -/

inductive Symbol where
  | openParen | closeParen | openBracket | closeBracket | comma
  | eq | notEq | lt | ltEq | gt | gtEq
  | plus | minus | star | slash
deriving DecidableEq

/-- The least parts of a statement. -/
inductive Token where
  /-- A string literal: the string that it stands for. -/
  | string (value : String)
  /-- A name, bare or between backticks. -/
  | name (value : String)
  /-- A reserved word, in upper case. -/
  | keyword (word : String)
  /-- A number without a sign, as it is written. -/
  | number (digits : String)
  | symbol (symbol : Symbol)
deriving DecidableEq

/-- Why a text has no tokens. -/
inductive LexError where
  | openQuote
  | unknownEscape
  | fractionMissing
  | comment
  | strayCharacter
deriving DecidableEq

/-- The token of a bare word: a keyword if it is one of the reserved words,
whatever the case of its letters. -/
def Token.ofWord (word : String) : Token :=
  if Keyword.upper word ∈ Keyword.reserved then .keyword (Keyword.upper word) else .name word

namespace Lexer

/-- The characters that only separate tokens. -/
def isBlank (c : Char) : Bool :=
  c = ' ' || c = '\t' || c = '\n' || c = '\r'

/-- What a character after a backslash stands for. -/
def unescape? (c : Char) : Option Char :=
  if c = '\x5c' then some '\x5c'
  else if c = '\x27' then some '\x27'
  else if c = 'n' then some '\n'
  else if c = 'r' then some '\r'
  else if c = 't' then some '\t'
  else none

/-- One more character in front of those that were read. -/
def push (c : Char) : Except LexError (List Char × List Char) → Except LexError (List Char × List Char) :=
  Except.map fun (cs, rest) => (c :: cs, rest)

/-- The characters of a string after its opening quote, and the rest after its closing one. -/
def readString : List Char → Except LexError (List Char × List Char)
  | [] => .error .openQuote
  | c :: rest =>
    if c = '\x27' then .ok ([], rest)
    else if c = '\x5c' then
      match rest with
      | [] => .error .openQuote
      | e :: rest =>
        match unescape? e with
        | some d => push d (readString rest)
        | none => .error .unknownEscape
    else push c (readString rest)

/-- The characters of a name after its opening backtick, and the rest after its closing one. -/
def readQuoted : List Char → Except LexError (List Char × List Char)
  | [] => .error .openQuote
  | [c] => if c = '\x60' then .ok ([], []) else .error .openQuote
  | c :: d :: rest =>
    if c = '\x60' then
      if d = '\x60' then push c (readQuoted rest) else .ok ([], d :: rest)
    else push c (readQuoted (d :: rest))

/-- The digits of a number, perhaps with a point among them. -/
def readNumber (cs : List Char) : Except LexError (List Char × List Char) :=
  let whole := cs.takeWhile Char.isDigit
  match cs.dropWhile Char.isDigit with
  | '.' :: rest =>
    let fraction := rest.takeWhile Char.isDigit
    if fraction.isEmpty then .error .fractionMissing
    else .ok (whole ++ '.' :: fraction, rest.dropWhile Char.isDigit)
  | rest => .ok (whole, rest)

def symbol? (c : Char) : Option Symbol :=
  if c = '(' then some .openParen
  else if c = ')' then some .closeParen
  else if c = '[' then some .openBracket
  else if c = ']' then some .closeBracket
  else if c = ',' then some .comma
  else if c = '=' then some .eq
  else if c = '<' then some .lt
  else if c = '>' then some .gt
  else if c = '+' then some .plus
  else if c = '-' then some .minus
  else if c = '*' then some .star
  else if c = '/' then some .slash
  else none

/-- The symbols of two characters. -/
def longSymbol? (c d : Char) : Option Symbol :=
  if d = '=' then
    if c = '!' then some .notEq
    else if c = '<' then some .ltEq
    else if c = '>' then some .gtEq
    else none
  else none

/-- Two characters that begin a comment. -/
def beginsComment (c d : Char) : Bool :=
  c = '-' && d = '-' || c = '/' && d = '*'

/-- A symbol of one character and the rest after it. -/
def readShort (c : Char) (rest : List Char) : Except LexError (Symbol × List Char) :=
  match symbol? c with
  | some s => .ok (s, rest)
  | none => .error .strayCharacter

/-- A symbol and the rest after it. -/
def readSymbol (c : Char) : List Char → Except LexError (Symbol × List Char)
  | [] => readShort c []
  | d :: rest =>
    if beginsComment c d then .error .comment
    else
      match longSymbol? c d with
      | some s => .ok (s, rest)
      | none => readShort c (d :: rest)

/-- The token that begins with a character, and the rest after it. -/
def scan (c : Char) (rest : List Char) : Except LexError (Token × List Char) :=
  if c = '\x27' then
    (readString rest).map fun (s, rest) => (.string (String.ofList s), rest)
  else if c = '\x60' then
    (readQuoted rest).map fun (s, rest) => (.name (String.ofList s), rest)
  else if c.isDigit then
    (readNumber (c :: rest)).map fun (s, rest) => (.number (String.ofList s), rest)
  else if Identifier.isStart c then
    let word := String.ofList (c :: rest.takeWhile Identifier.isPart)
    .ok (.ofWord word, rest.dropWhile Identifier.isPart)
  else
    (readSymbol c rest).map fun (s, rest) => (.symbol s, rest)

/-! ## Every token takes a character -/

theorem push_eq_ok {c : Char} {r : Except LexError (List Char × List Char)} {s rest : List Char}
    (h : push c r = .ok (s, rest)) : ∃ t, r = .ok (t, rest) ∧ s = c :: t := by
  cases r with
  | error e => simp [push, Except.map] at h
  | ok p =>
    obtain ⟨t, rest'⟩ := p
    simp only [push, Except.map, Except.ok.injEq, Prod.mk.injEq] at h
    exact ⟨t, by rw [h.2], h.1.symm⟩

theorem map_eq_ok {α β : Type} {f : α → β} {r : Except LexError α} {b : β}
    (h : r.map f = .ok b) : ∃ a, r = .ok a ∧ f a = b := by
  cases r with
  | error e => simp [Except.map] at h
  | ok a => exact ⟨a, rfl, by simpa [Except.map] using h⟩

theorem length_readString {cs s rest : List Char} (h : readString cs = .ok (s, rest)) :
    rest.length ≤ cs.length := by
  fun_induction readString cs generalizing s with
  | case1 => simp at h
  | case2 r => simp at h; simp [h.2]
  | case3 => simp at h
  | case4 e r hq d hd ih =>
    obtain ⟨t, ht, -⟩ := push_eq_ok h
    have := ih ht
    simp only [List.length_cons]
    omega
  | case5 => simp at h
  | case6 c r hq hb ih =>
    obtain ⟨t, ht, -⟩ := push_eq_ok h
    have := ih ht
    simp only [List.length_cons]
    omega

theorem length_readQuoted {cs s rest : List Char} (h : readQuoted cs = .ok (s, rest)) :
    rest.length ≤ cs.length := by
  fun_induction readQuoted cs generalizing s with
  | case1 => simp at h
  | case2 => simp at h; simp [h.2]
  | case3 => simp at h
  | case4 r ih =>
    obtain ⟨t, ht, -⟩ := push_eq_ok h
    have := ih ht
    simp only [List.length_cons]
    omega
  | case5 d r hd => simp at h; simp [← h.2]
  | case6 c d r hc ih =>
    obtain ⟨t, ht, -⟩ := push_eq_ok h
    have := ih ht
    simp only [List.length_cons] at this ⊢
    omega

theorem length_readNumber {c : Char} {cs s rest : List Char} (hc : c.isDigit = true)
    (h : readNumber (c :: cs) = .ok (s, rest)) : rest.length ≤ cs.length := by
  have skipped := List.length_dropWhile_le Char.isDigit cs
  simp only [readNumber, List.dropWhile_cons_of_pos hc] at h
  split at h
  · next r hr =>
    split at h
    · simp at h
    · simp only [Except.ok.injEq, Prod.mk.injEq] at h
      have := List.length_dropWhile_le Char.isDigit r
      rw [hr, List.length_cons] at skipped
      rw [← h.2]
      omega
  · simp only [Except.ok.injEq, Prod.mk.injEq] at h
    rw [← h.2]
    exact skipped

theorem length_readShort {c : Char} {cs rest : List Char} {s : Symbol}
    (h : readShort c cs = .ok (s, rest)) : rest.length ≤ cs.length := by
  unfold readShort at h
  split at h
  · simp only [Except.ok.injEq, Prod.mk.injEq] at h
    exact Nat.le_of_eq (by rw [h.2])
  · simp at h

theorem length_readSymbol {c : Char} {cs rest : List Char} {s : Symbol}
    (h : readSymbol c cs = .ok (s, rest)) : rest.length ≤ cs.length := by
  unfold readSymbol at h
  split at h
  · exact length_readShort h
  · split at h
    · simp at h
    · split at h
      · simp only [Except.ok.injEq, Prod.mk.injEq] at h
        rw [← h.2, List.length_cons]
        omega
      · exact length_readShort h

/-- A token leaves no more than it was given, so the lexer ends. -/
theorem length_scan {c : Char} {cs rest : List Char} {t : Token}
    (h : scan c cs = .ok (t, rest)) : rest.length ≤ cs.length := by
  unfold scan at h
  split at h
  · obtain ⟨⟨s, r⟩, hr, e⟩ := map_eq_ok h
    simp only [Prod.mk.injEq] at e
    exact e.2 ▸ length_readString hr
  split at h
  · obtain ⟨⟨s, r⟩, hr, e⟩ := map_eq_ok h
    simp only [Prod.mk.injEq] at e
    exact e.2 ▸ length_readQuoted hr
  split at h
  · next hd =>
    obtain ⟨⟨s, r⟩, hr, e⟩ := map_eq_ok h
    simp only [Prod.mk.injEq] at e
    exact e.2 ▸ length_readNumber hd hr
  split at h
  · simp only [Except.ok.injEq, Prod.mk.injEq] at h
    exact h.2 ▸ List.length_dropWhile_le _ _
  · obtain ⟨⟨s, r⟩, hr, e⟩ := map_eq_ok h
    simp only [Prod.mk.injEq] at e
    exact e.2 ▸ length_readSymbol hr

/-! ## The whole text -/

/-- The tokens of a list of characters. -/
def lexFrom (cs : List Char) : Except LexError (List Token) :=
  match cs with
  | [] => .ok []
  | c :: rest =>
    if isBlank c then lexFrom rest
    else
      match _read : scan c rest with
      | .ok (t, rest') => (lexFrom rest').map (t :: ·)
      | .error e => .error e
termination_by cs.length
decreasing_by
  · simp
  · have := length_scan _read
    simp only [List.length_cons]
    omega

/-- The tokens of a text. -/
def lex (text : String) : Except LexError (List Token) := lexFrom text.toList

theorem lexFrom_nil : lexFrom [] = .ok [] := by
  rw [lexFrom]

theorem lexFrom_blank {c : Char} (hc : isBlank c = true) (rest : List Char) :
    lexFrom (c :: rest) = lexFrom rest := by
  rw [lexFrom, if_pos hc]

/-- Step: one token, and then the tokens of the rest. -/
theorem lexFrom_scan {c : Char} {cs rest : List Char} {t : Token} (hc : isBlank c = false)
    (h : scan c cs = .ok (t, rest)) : lexFrom (c :: cs) = (lexFrom rest).map (t :: ·) := by
  rw [lexFrom, if_neg (by simp [hc])]
  split
  · next h' =>
    rw [h'] at h
    simp only [Except.ok.injEq, Prod.mk.injEq] at h
    rw [h.1, h.2]
  · next h' =>
    rw [h'] at h
    cases h

/-! ## Texts side by side -/

/-- A character at which every token must end that is not between quotes. -/
def isDelimiter (c : Char) : Bool :=
  isBlank c || c = '(' || c = ')' || c = '[' || c = ']' || c = ','

/-- The text is empty or begins with a delimiter. -/
def Delimited (tail : List Char) : Prop := ∀ c ∈ tail.head?, isDelimiter c = true

theorem delimited_nil : Delimited [] := by simp [Delimited]

theorem delimited_cons {c : Char} {tail : List Char} : Delimited (c :: tail) ↔ isDelimiter c = true := by
  simp [Delimited]

/-- A delimiter goes on no token. -/
theorem not_of_isDelimiter {c : Char} (h : isDelimiter c = true) :
    Identifier.isPart c = false ∧ c.isDigit = false ∧ c ≠ '.' ∧ c ≠ '\x60' ∧
      (∀ b, beginsComment b c = false) ∧ ∀ b, longSymbol? b c = none := by
  simp only [isDelimiter, isBlank, Bool.or_eq_true, decide_eq_true_eq] at h
  rcases h with (((((((rfl | rfl) | rfl) | rfl) | rfl) | rfl) | rfl) | rfl) | rfl <;>
    exact ⟨by decide, by decide, by decide, by decide, by simp [beginsComment], by simp [longSymbol?]⟩

/-- A delimiter that is no blank is a token, whatever follows it. -/
theorem scan_delimiter {c : Char} (h : isDelimiter c = true) (hb : isBlank c = false) :
    ∃ s, symbol? c = some s ∧ ∀ tail, scan c tail = .ok (.symbol s, tail) := by
  simp only [isDelimiter, hb, Bool.false_or, Bool.or_eq_true, decide_eq_true_eq] at h
  have single : ∃ s, symbol? c = some s ∧ c ≠ '\x27' ∧ c ≠ '\x60' ∧ c.isDigit = false ∧
      Identifier.isStart c = false ∧ (∀ d, beginsComment c d = false) ∧
      ∀ d, longSymbol? c d = none := by
    rcases h with (((rfl | rfl) | rfl) | rfl) | rfl
    all_goals exact ⟨_, rfl, by decide, by decide, by decide, by decide,
      by simp [beginsComment], by simp [longSymbol?]⟩
  obtain ⟨s, hs, hq, hn, hd, hw, hc, hl⟩ := single
  refine ⟨s, hs, fun tail => ?_⟩
  rw [scan, if_neg hq, if_neg hn, if_neg (by simp [hd]), if_neg (by simp [hw])]
  cases tail <;> simp [readSymbol, readShort, hs, hc, hl, Except.map]

/-- What is taken of a text is not changed by what it stops at. -/
theorem takeWhile_append_of_head {p : Char → Bool} {cs tail : List Char}
    (h : ∀ c ∈ tail.head?, p c = false) : (cs ++ tail).takeWhile p = cs.takeWhile p := by
  induction cs with
  | nil => cases tail <;> simp_all
  | cons c cs ih => by_cases hc : p c = true <;> simp [hc, ih]

theorem dropWhile_append_of_head {p : Char → Bool} {cs tail : List Char}
    (h : ∀ c ∈ tail.head?, p c = false) : (cs ++ tail).dropWhile p = cs.dropWhile p ++ tail := by
  induction cs with
  | nil => cases tail <;> simp_all
  | cons c cs ih => by_cases hc : p c = true <;> simp [hc, ih]

/-- A string is complete at its closing quote, whatever follows. -/
theorem readString_append {cs s rest : List Char} (tail : List Char)
    (h : readString cs = .ok (s, rest)) : readString (cs ++ tail) = .ok (s, rest ++ tail) := by
  fun_induction readString cs generalizing s with
  | case1 => simp at h
  | case2 r =>
    simp only [Except.ok.injEq, Prod.mk.injEq] at h
    rw [List.cons_append, readString.eq_def]
    simp only [↓reduceIte, ← h.1, h.2]
  | case3 => simp at h
  | case4 e r d hu hd ih =>
    obtain ⟨t, ht, rfl⟩ := push_eq_ok h
    simp only [List.cons_append, readString, hd, ↓reduceIte, hu, ih ht]
    rfl
  | case5 => simp at h
  | case6 c r hq hb ih =>
    obtain ⟨t, ht, rfl⟩ := push_eq_ok h
    rw [List.cons_append, readString.eq_def]
    simp only [hq, hb, ↓reduceIte, ih ht]
    rfl

/-- A quoted name is complete if no other backtick follows. -/
theorem readQuoted_append {cs s rest tail : List Char} (hn : ∀ c ∈ tail.head?, c ≠ '\x60')
    (h : readQuoted cs = .ok (s, rest)) : readQuoted (cs ++ tail) = .ok (s, rest ++ tail) := by
  fun_induction readQuoted cs generalizing s with
  | case1 => simp at h
  | case2 =>
    simp only [Except.ok.injEq, Prod.mk.injEq] at h
    cases tail with
    | nil => simp [readQuoted, ← h.1, ← h.2]
    | cons d tail =>
      have hd : d ≠ '\x60' := hn d (by simp)
      simp [readQuoted, hd, ← h.1, ← h.2]
  | case3 => simp at h
  | case4 r ih =>
    obtain ⟨t, ht, rfl⟩ := push_eq_ok h
    simp [readQuoted, ih ht, push, Except.map]
  | case5 d r hd =>
    simp only [Except.ok.injEq, Prod.mk.injEq] at h
    simp [readQuoted, hd, ← h.1, ← h.2]
  | case6 c d r hc ih =>
    obtain ⟨t, ht, rfl⟩ := push_eq_ok h
    have := ih ht
    simp only [List.cons_append] at this ⊢
    simp [readQuoted, hc, this, push, Except.map]

/-- A number is complete if neither a digit nor a point follows. -/
theorem readNumber_append {cs s rest tail : List Char} (hd : ∀ c ∈ tail.head?, c.isDigit = false)
    (hp : ∀ c ∈ tail.head?, c ≠ '.') (h : readNumber cs = .ok (s, rest)) :
    readNumber (cs ++ tail) = .ok (s, rest ++ tail) := by
  simp only [readNumber, takeWhile_append_of_head hd, dropWhile_append_of_head hd] at h ⊢
  split at h
  · next r hr =>
    rw [hr, List.cons_append]
    split at h
    · simp at h
    · next hf =>
      simp only [Except.ok.injEq, Prod.mk.injEq] at h
      simp only [takeWhile_append_of_head hd, dropWhile_append_of_head hd]
      rw [if_neg hf, h.1, h.2]
  · next hr =>
    simp only [Except.ok.injEq, Prod.mk.injEq] at h
    rw [h.2] at hr ⊢
    cases rest with
    | nil =>
      cases tail with
      | nil => simp [h.1]
      | cons c tail =>
        have hc : c ≠ '.' := hp c (by simp)
        simp [h.1, hc]
    | cons c r =>
      have hc : c ≠ '.' := fun e => hr r (by rw [e])
      simp [h.1, hc]

theorem readShort_append {c : Char} {cs rest : List Char} {s : Symbol} (tail : List Char)
    (h : readShort c cs = .ok (s, rest)) : readShort c (cs ++ tail) = .ok (s, rest ++ tail) := by
  unfold readShort at h ⊢
  split at h
  · simp only [Except.ok.injEq, Prod.mk.injEq] at h
    rw [h.1, h.2]
  · simp at h

theorem readSymbol_append {c : Char} {cs rest tail : List Char} {s : Symbol} (ht : Delimited tail)
    (h : readSymbol c cs = .ok (s, rest)) : readSymbol c (cs ++ tail) = .ok (s, rest ++ tail) := by
  cases cs with
  | cons d cs =>
    simp only [readSymbol, List.cons_append] at h ⊢
    split at h
    · simp at h
    · next hb =>
      rw [if_neg hb]
      split at h
      · simp only [Except.ok.injEq, Prod.mk.injEq] at h
        rw [h.1, h.2]
      · exact readShort_append tail h
  | nil =>
    have h' : readShort c [] = .ok (s, rest) := h
    have short := readShort_append tail h'
    cases tail with
    | nil => exact short
    | cons d tail =>
      obtain ⟨-, -, -, -, hb, hl⟩ := not_of_isDelimiter (delimited_cons.1 ht)
      simp only [List.nil_append, readSymbol, hb, hl]
      exact short

/-- **A token** is the same in front of anything that cannot continue it. -/
theorem scan_append {c : Char} {cs rest tail : List Char} {t : Token} (ht : Delimited tail)
    (h : scan c cs = .ok (t, rest)) : scan c (cs ++ tail) = .ok (t, rest ++ tail) := by
  unfold scan at h ⊢
  by_cases hs : c = '\x27'
  · rw [if_pos hs] at h ⊢
    obtain ⟨⟨s, r⟩, hr, e⟩ := map_eq_ok h
    simp only [Prod.mk.injEq] at e
    rw [readString_append tail hr, ← e.1, ← e.2]
    rfl
  rw [if_neg hs] at h ⊢
  by_cases hq : c = '\x60'
  · rw [if_pos hq] at h ⊢
    obtain ⟨⟨s, r⟩, hr, e⟩ := map_eq_ok h
    simp only [Prod.mk.injEq] at e
    rw [readQuoted_append (fun d hd => (not_of_isDelimiter (ht d hd)).2.2.2.1) hr, ← e.1, ← e.2]
    rfl
  rw [if_neg hq] at h ⊢
  by_cases hd : c.isDigit = true
  · rw [if_pos hd] at h ⊢
    obtain ⟨⟨s, r⟩, hr, e⟩ := map_eq_ok h
    simp only [Prod.mk.injEq] at e
    rw [← List.cons_append, readNumber_append (fun d hd => (not_of_isDelimiter (ht d hd)).2.1)
      (fun d hd => (not_of_isDelimiter (ht d hd)).2.2.1) hr, ← e.1, ← e.2]
    rfl
  rw [if_neg hd] at h ⊢
  by_cases hw : Identifier.isStart c = true
  · rw [if_pos hw] at h ⊢
    simp only [Except.ok.injEq, Prod.mk.injEq] at h
    have part : ∀ d ∈ tail.head?, Identifier.isPart d = false :=
      fun d hd => (not_of_isDelimiter (ht d hd)).1
    rw [takeWhile_append_of_head part, dropWhile_append_of_head part, ← h.1, ← h.2]
  · rw [if_neg hw] at h ⊢
    obtain ⟨⟨s, r⟩, hr, e⟩ := map_eq_ok h
    simp only [Prod.mk.injEq] at e
    rw [readSymbol_append ht hr, ← e.1, ← e.2]
    rfl

/-- **Texts side by side** have the tokens of both, if the second is delimited. -/
theorem lexFrom_append {cs tail : List Char} {ts : List Token} (ht : Delimited tail)
    (h : lexFrom cs = .ok ts) : lexFrom (cs ++ tail) = (lexFrom tail).map (ts ++ ·) := by
  fun_induction lexFrom cs generalizing ts with
  | case1 =>
    simp only [Except.ok.injEq] at h
    subst h
    rw [List.nil_append]
    cases lexFrom tail <;> rfl
  | case2 c rest hc ih => rw [List.cons_append, lexFrom_blank hc, ih h]
  | case3 c cs hc t rest hr ih =>
    obtain ⟨us, hus, rfl⟩ := map_eq_ok h
    rw [List.cons_append, lexFrom_scan (by simpa using hc) (scan_append ht hr), ih hus]
    cases lexFrom tail <;> rfl
  | case4 => cases h

/-! ## Single tokens -/

/-- The characters are one token. -/
def IsToken (cs : List Char) (t : Token) : Prop :=
  ∃ c rest, cs = c :: rest ∧ isBlank c = false ∧ scan c rest = .ok (t, [])

theorem IsToken.lexFrom_eq {cs : List Char} {t : Token} (h : IsToken cs t) :
    lexFrom cs = .ok [t] := by
  obtain ⟨c, rest, rfl, blank, read⟩ := h
  rw [lexFrom_scan blank read, lexFrom_nil]
  rfl

end Lexer

end SqlSelect
