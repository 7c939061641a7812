import SqlSelect.Proofs.Token.Leaf

/-!
# Reading back what stands between quotes

`Quoted.read` is a reader that takes a backslash and the character after it for one
character, a quote that is written twice for one quote, and the first other quote
for the end. A string literal reads back whatever is in it and whatever follows it
(`read_quote`). A name between backticks does exactly if no backslash is in it
(`read_identifier_iff`): its backticks are written twice, but a backslash is written as it
is, and takes what stands after it along.
-/

set_option autoImplicit false

namespace SqlSelect.Quoted

open Lexer (push push_eq_ok read_flatMap toList_quote toList_sql_of_needsQuotes unescape?)

/-! ## The reader -/

/-- The characters after an opening quote, and the rest after the closing one. What a
backslash and the character after it stand for is for `pair?` to say. -/
def readBody (quote : Char) (pair? : Char → Option Char) :
    List Char → Except LexError (List Char × List Char)
  | [] => .error .openQuote
  | [c] => if c = quote then .ok ([], []) else .error .openQuote
  | c :: d :: rest =>
    if c = '\x5c' then
      match pair? d with
      | some e => push e (readBody quote pair? rest)
      | none => .error .unknownEscape
    else if c = quote then
      if d = quote then push quote (readBody quote pair? rest) else .ok ([], d :: rest)
    else push c (readBody quote pair? (d :: rest))

/-- What stands between quotes at the beginning of a text, and the rest of the text. -/
def read (quote : Char) (pair? : Char → Option Char) (text : String) :
    Except LexError (String × String) :=
  match text.toList with
  | [] => .error .strayCharacter
  | c :: cs =>
    if c = quote then
      (readBody quote pair? cs).map fun (s, rest) => (String.ofList s, String.ofList rest)
    else .error .strayCharacter

variable {quote : Char} {pair? : Char → Option Char} {c d : Char} {cs s rest : List Char}

theorem read_eq_ok {text value after : String} (opened : text.toList = quote :: cs) :
    read quote pair? text = .ok (value, after) ↔
      readBody quote pair? cs = .ok (value.toList, after.toList) := by
  rw [read, opened]
  simp only [↓reduceIte]
  constructor
  · intro h
    obtain ⟨⟨s, rest⟩, body, same⟩ := Lexer.map_eq_ok h
    obtain ⟨rfl, rfl⟩ := Prod.mk.inj same
    simpa only [String.toList_ofList] using body
  · intro h
    rw [h]
    simp [Except.map]

/-! ## One character at a time -/

/-- A backslash and a letter stand for the character of the pair. -/
theorem readBody_pair (known : pair? c = some d) :
    readBody quote pair? ('\x5c' :: c :: cs) = push d (readBody quote pair? cs) := by
  simp [readBody, known]

/-- A quote that is doubled stands for itself. -/
theorem readBody_twice (other : quote ≠ '\x5c') :
    readBody quote pair? (quote :: quote :: cs) = push quote (readBody quote pair? cs) := by
  simp [readBody, other]

theorem readBody_cons (pair : c ≠ '\x5c') (other : c ≠ quote) :
    readBody quote pair? (c :: cs) = push c (readBody quote pair? cs) := by
  cases cs with
  | nil => simp [readBody, other, push, Except.map]
  | cons d cs => simp [readBody, pair, other]

/-- A quote that is not doubled ends the text. -/
theorem readBody_close (other : quote ≠ '\x5c') (apart : rest.head? ≠ some quote) :
    readBody quote pair? (quote :: rest) = .ok ([], rest) := by
  cases rest with
  | nil => simp [readBody]
  | cons d rest =>
    have differs : d ≠ quote := fun h => apart (congrArg some h)
    simp [readBody, other, differs]

/-- A quote or a backslash that is read was written with two characters. -/
theorem length_of_readBody (other : quote ≠ '\x5c') (h : readBody quote pair? cs = .ok (s, rest)) :
    s.length + s.count quote + s.count '\x5c' + rest.length + 1 ≤ cs.length := by
  fun_induction readBody quote pair? cs generalizing s with
  | case1 => cases h
  | case2 =>
    obtain ⟨rfl, rfl⟩ := Prod.mk.inj (Except.ok.inj h)
    simp
  | case3 => cases h
  | case4 d cs e known ih =>
    obtain ⟨t, read, rfl⟩ := push_eq_ok h
    have shorter := ih read
    -- One character cannot be both, so it counts once more at most.
    have once : (if e == quote then 1 else 0) + (if e == '\x5c' then 1 else 0) ≤ 1 := by
      by_cases same : e = quote
      · subst same
        simp [other]
      · simp only [beq_iff_eq, same, ↓reduceIte]
        split <;> omega
    simp only [List.length_cons, List.count_cons]
    omega
  | case5 => cases h
  | case6 cs pair ih =>
    obtain ⟨t, read, rfl⟩ := push_eq_ok h
    have shorter := ih read
    simp only [List.length_cons, List.count_cons, beq_self_eq_true, beq_iff_eq, other, ↓reduceIte]
    omega
  | case7 d cs pair differs =>
    obtain ⟨rfl, rfl⟩ := Prod.mk.inj (Except.ok.inj h)
    simp
  | case8 c d cs pair differs ih =>
    obtain ⟨t, read, rfl⟩ := push_eq_ok h
    have shorter := ih read
    simp only [List.length_cons, List.count_cons, beq_iff_eq, pair, differs, ↓reduceIte] at shorter ⊢
    omega

/-! ## String literals -/

/-- Step: a character is read back from its escape in a string. -/
theorem readBody_escapeChar (c : Char) (cs : List Char) :
    readBody '\x27' unescape? (Literal.escapeChar c ++ cs) =
      push c (readBody '\x27' unescape? cs) := by
  unfold Literal.escapeChar
  split_ifs with backslash quote line back tab
  iterate 5
    · subst c
      exact readBody_pair rfl
  exact readBody_cons backslash quote

/-- No line is broken by an escaped character. -/
theorem not_control_of_mem_escapeChar {c d : Char} (h : d ∈ Literal.escapeChar c) :
    d ≠ '\n' ∧ d ≠ '\r' ∧ d ≠ '\t' := by
  unfold Literal.escapeChar at h
  split_ifs at h with backslash quote line back tab
  iterate 5
    · rcases List.mem_pair.1 h with rfl | rfl <;> decide
  obtain rfl := List.mem_singleton.1 h
  exact ⟨line, back, tab⟩

/-- **A string literal is contained.** Whatever the string, and whatever follows that does
not begin with another quote, the literal reads back as the string, and all that follows is
left; no line is broken between the quotes. -/
theorem read_quote (value rest : String) (apart : rest.toList.head? ≠ some '\x27') :
    read '\x27' unescape? (Literal.quote value ++ rest) = .ok (value, rest) ∧
      ∀ c ∈ (Literal.escape value).toList, c ≠ '\n' ∧ c ≠ '\r' ∧ c ≠ '\t' := by
  constructor
  · have opened : (Literal.quote value ++ rest).toList =
        '\x27' :: (value.toList.flatMap Literal.escapeChar ++ '\x27' :: rest.toList) := by
      simp [toList_quote]
    have close : readBody '\x27' unescape? ('\x27' :: rest.toList) = .ok ([], rest.toList) :=
      readBody_close (by decide) apart
    exact (read_eq_ok opened).2 (read_flatMap close fun c _ cs => readBody_escapeChar c cs)
  · intro c hc
    rw [Literal.escape, String.toList_ofList] at hc
    obtain ⟨d, -, hc⟩ := List.mem_flatMap.1 hc
    exact not_control_of_mem_escapeChar hc

/-- A string that would close its literal, and a rest that would go on with it. -/
theorem read_quote_hostile :
    "\\' --".toList.head? ≠ some '\x27' ∧
      read '\x27' unescape? (Literal.quote "\\' OR 1=1 --\n" ++ "\\' --") =
        .ok ("\\' OR 1=1 --\n", "\\' --") ∧
      ∀ c ∈ (Literal.escape "\\' OR 1=1 --\n").toList, c ≠ '\n' ∧ c ≠ '\r' ∧ c ≠ '\t' :=
  ⟨by decide, read_quote _ _ (by decide)⟩

/-! ## Names between backticks -/

/-- A character of a name between backticks. -/
abbrev nameChar (c : Char) : List Char := if c = '\x60' then [c, c] else [c]

/-- Step: a character of a name is read back, a backslash apart. -/
theorem readBody_nameChar (plain : c ≠ '\x5c') (cs : List Char) :
    readBody '\x60' pair? (nameChar c ++ cs) = push c (readBody '\x60' pair? cs) := by
  by_cases tick : c = '\x60'
  · rw [nameChar, if_pos tick, tick]
    exact readBody_twice (by decide)
  · rw [nameChar, if_neg tick]
    exact readBody_cons plain tick

theorem length_flatMap_nameChar (name : List Char) :
    (name.flatMap nameChar).length = name.length + name.count '\x60' := by
  induction name with
  | nil => rfl
  | cons c name ih =>
    rw [List.flatMap_cons, List.length_append, ih, List.length_cons, List.count_cons]
    by_cases tick : c = '\x60'
    · simp only [nameChar, tick, ↓reduceIte, List.length_cons, List.length_nil, beq_self_eq_true]
      omega
    · simp only [nameChar, tick, ↓reduceIte, List.length_cons, List.length_nil, beq_iff_eq]
      omega

/-- **A name between backticks is contained** exactly if it has no backslash: then it reads
back, and all that follows is left. This is so whatever a backslash and the character after
it stand for. -/
theorem read_identifier_iff (pair? : Char → Option Char) {name rest : String}
    (quoted : Identifier.needsQuotes name = true) (apart : rest.toList.head? ≠ some '\x60') :
    read '\x60' pair? (Identifier.sql name ++ rest) = .ok (name, rest) ↔ '\x5c' ∉ name.toList := by
  have opened : (Identifier.sql name ++ rest).toList =
      '\x60' :: (name.toList.flatMap nameChar ++ '\x60' :: rest.toList) := by
    rw [String.toList_append, toList_sql_of_needsQuotes quoted, List.cons_append, List.append_assoc]
    rfl
  rw [read_eq_ok opened]
  constructor
  · intro h
    -- The name has one character more for each backtick, and none to spare for a backslash.
    have least := length_of_readBody (by decide) h
    rw [List.length_append, length_flatMap_nameChar, List.length_cons] at least
    exact List.count_eq_zero.1 (by omega)
  · intro plain
    have close : readBody '\x60' pair? ('\x60' :: rest.toList) = .ok ([], rest.toList) :=
      readBody_close (by decide) apart
    refine read_flatMap close fun c hc cs => readBody_nameChar ?_ cs
    rintro rfl
    exact plain hc

/-- A name with a backtick reads back, and one with a backslash before a letter does not. -/
theorem read_identifier_backtick :
    Identifier.needsQuotes "a\x60b" = true ∧ " FROM t".toList.head? ≠ some '\x60' ∧
      read '\x60' unescape? (Identifier.sql "a\x60b" ++ " FROM t") = .ok ("a\x60b", " FROM t") ∧
      read '\x60' unescape? (Identifier.sql "a\\n" ++ " FROM t") ≠ .ok ("a\\n", " FROM t") := by
  have apart : " FROM t".toList.head? ≠ some '\x60' := by decide
  have quoted : Identifier.needsQuotes "a\x60b" = true := by decide +kernel
  have quoted' : Identifier.needsQuotes "a\\n" = true := by decide +kernel
  refine ⟨quoted, apart, (read_identifier_iff unescape? quoted apart).2 (by decide), fun h => ?_⟩
  exact (read_identifier_iff unescape? quoted' apart).1 h (by decide)

/-- A backslash at the end of a name takes the closing backtick along. If the two stand for
a backtick, the name stays open; by the rule for strings, they stand for nothing. -/
theorem read_identifier_backslash :
    Identifier.needsQuotes "a\\" = true ∧
      read '\x60' some (Identifier.sql "a\\" ++ " FROM t") = .error .openQuote ∧
      read '\x60' unescape? (Identifier.sql "a\\" ++ " FROM t") = .error .unknownEscape := by
  decide +kernel

end SqlSelect.Quoted
