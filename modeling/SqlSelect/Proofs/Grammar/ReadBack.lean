import SqlSelect.Proofs.Grammar.Leaf

/-!
# Expressions read back

Where the operands of forms without parentheses stand by themselves (`Fits`),
the reader reads the text of an expression back as the expression, whatever
follows it (`Fits.reads`). So no two such expressions have the same text
(`sql_injective`).
-/

set_option autoImplicit false

namespace SqlSelect.Grammar

open Lexer Filter

/-! ## Expressions that may stand somewhere -/

/-- Where an expression stands. -/
inductive Place where
  /-- It is an operand of a form without parentheses. -/
  | operand
  | anywhere
deriving DecidableEq

/-- A float is finite. -/
def isWritable : Literal → Bool
  | .float x => x.isFinite
  | _ => true

/-- The name calls a function, and neither counts nor aggregates. -/
def isFunctionName (name : String) : Bool :=
  isPlainName name && name != "COUNT" && (aggregate? name).isNone

/-- The expressions that may stand at a place. The forms without parentheses
are no operands of one another, and nothing inside has a name for its result. -/
inductive Fits : Place → Expr → Prop where
  | literal {place : Place} {value : Literal} (h : isWritable value = true) :
      Fits place (.literal value)
  | field {place : Place} {name : String} : Fits place (.field name)
  | wrapped {place : Place} {left right : Expr} {op : BinaryOperator} (h : op.wraps = true)
      (hl : Fits .anywhere left) (hr : Fits .anywhere right) : Fits place (.binary left op right)
  | not {place : Place} {operand : Expr} (h : Fits .anywhere operand) : Fits place (.not operand)
  | countAll {place : Place} : Fits place (.count none)
  | count {place : Place} {operand : Expr} (h : Fits .anywhere operand) :
      Fits place (.count (some operand))
  | aggregate {place : Place} {function : AggregateFunction} {operand : Expr}
      (h : Fits .anywhere operand) : Fits place (.aggregate function operand)
  | call {place : Place} {name : String} {arguments : List Expr} (hn : isFunctionName name = true)
      (h : ∀ e ∈ arguments, Fits .anywhere e) : Fits place (.call name arguments)
  | array {place : Place} {items : List Expr} (h : ∀ e ∈ items, Fits .anywhere e) :
      Fits place (.array items)
  | tuple {place : Place} {items : List Expr} (h : ∀ e ∈ items, Fits .anywhere e) :
      Fits place (.tuple items)
  | case {place : Place} {subject otherwise : Option Expr} {branches : List (Expr × Expr)}
      (hs : ∀ e ∈ subject, Fits .anywhere e) (hc : ∀ b ∈ branches, Fits .anywhere b.1)
      (hr : ∀ b ∈ branches, Fits .anywhere b.2) (ho : ∀ e ∈ otherwise, Fits .anywhere e) :
      Fits place (.case subject branches otherwise)
  | cast {place : Place} {operand : Expr} {type : String} (h : Fits .anywhere operand)
      (ht : isBalanced 0 type.toList = true) : Fits place (.cast operand type)
  | comparison {left right : Expr} {op : BinaryOperator} (h : op.isComparison = true)
      (hl : Fits .operand left) (hr : Fits .operand right) :
      Fits .anywhere (.binary left op right)
  | isIn {operand : Expr} {candidates : List Expr} (h : Fits .operand operand)
      (hc : ∀ e ∈ candidates, Fits .anywhere e) : Fits .anywhere (.isIn operand candidates)
  | between {operand low high : Expr} (h : Fits .operand operand) (hl : Fits .operand low)
      (hh : Fits .operand high) : Fits .anywhere (.between operand low high)
  | isNull {operand : Expr} {negated : Bool} (h : Fits .operand operand) :
      Fits .anywhere (.isNull operand negated)

/-! ## What the reader has to do -/

/-- Nothing follows that an expression would go on with. -/
def Ends (rest : List Char) : Prop := Follows rest ∧ (choose forms rest).isNone = true

/-- The reader reads the expression back if nothing stands on its left. -/
def ReadsClosed (e : Expr) : Prop :=
  ∀ rest, Follows rest →
    ∀ᶠ n in atTop, readClosed (reader n) n (e.sql.toList ++ rest) = some (e, rest)

/-- The reader reads the expression back where it ends. -/
def ReadsForm (e : Expr) : Prop :=
  ∀ rest, Ends rest → ∀ᶠ n in atTop, reader n (e.sql.toList ++ rest) = some (e, rest)

/-- The reader reads the expression back at a place. -/
def Reads : Place → Expr → Prop
  | .operand => ReadsClosed
  | .anywhere => ReadsForm

theorem eventually_of_succ {p : Nat → Prop} (h : ∀ᶠ n in atTop, p (n + 1)) : ∀ᶠ n in atTop, p n := by
  rw [eventually_atTop] at h ⊢
  obtain ⟨N, hN⟩ := h
  refine ⟨N + 1, fun n hn => ?_⟩
  obtain ⟨m, rfl⟩ : ∃ m, n = m + 1 := ⟨n - 1, by omega⟩
  exact hN m (by omega)

/-- What is read back as a closed expression is read back as a form. -/
theorem ReadsClosed.form {e : Expr} (h : ReadsClosed e) : ReadsForm e := by
  intro rest ends
  have closed := h rest ends.1
  have stops : choose forms rest = none := Option.isNone_iff_eq_none.1 ends.2
  apply eventually_of_succ
  filter_upwards [closed] with n hn
  simp only [reader, readForm, hn, Option.bind_eq_bind, Option.bind_some, stops]

theorem ReadsClosed.reads {e : Expr} (h : ReadsClosed e) : ∀ place : Place, Reads place e
  | .operand => h
  | .anywhere => h.form

/-! ## Tokens that begin no expression -/

/-- No expression begins with a token that closes or divides another. -/
theorem reader_eq_none {cs rest : List Char} {t : Token} (h : token? cs = some (t, rest))
    (ht : t ∈ [Token.symbol .closeParen, .symbol .closeBracket, .symbol .star, .keyword "WHEN",
      .keyword "ELSE", .keyword "END"]) (n : Nat) : reader n cs = none := by
  cases n with
  | zero => rfl
  | succ n =>
    simp only [List.mem_cons, List.not_mem_nil, or_false] at ht
    rw [reader, readForm, readClosed, h]
    rcases ht with rfl | rfl | rfl | rfl | rfl | rfl <;>
      simp [readKeyword]

/-! ## Lists -/

theorem ends_tailSql {rest : List Char} (h : Ends rest) :
    ∀ es : List Expr, Ends ((tailSql es).toList ++ rest)
  | [] => by rwa [tailSql]
  | e :: es => by
    simp only [tailSql, String.toList_append, List.append_assoc]
    exact ⟨rfl, rfl⟩

/-- Later entries of a list read back. -/
theorem reads_tail {es : List Expr} (h : ∀ e ∈ es, ReadsForm e) {rest : List Char}
    (ends : Ends rest) (stop : expect ", " rest = none) :
    ∀ᶠ n in atTop, ∀ steps > es.length,
      readTail (reader n) steps ((tailSql es).toList ++ rest) = some (es, rest) := by
  induction es with
  | nil =>
    apply Eventually.of_forall
    intro n steps hs
    obtain ⟨steps, rfl⟩ : ∃ k, steps = k + 1 := ⟨steps - 1, by simp at hs; omega⟩
    rw [tailSql, readTail]
    simp only [String.toList_empty, List.nil_append, stop]
  | cons e es ih =>
    have first := h e List.mem_cons_self ((tailSql es).toList ++ rest) (ends_tailSql ends es)
    have later := ih fun x hx => h x (List.mem_cons_of_mem _ hx)
    filter_upwards [first, later] with n hn hl steps hs
    obtain ⟨steps, rfl⟩ : ∃ k, steps = k + 1 := ⟨steps - 1, by simp at hs; omega⟩
    have shorter : steps > es.length := by simp only [List.length_cons] at hs; omega
    simp only [tailSql, String.toList_append, List.append_assoc, readTail, expect_append, hn,
      hl steps shorter, Option.bind_eq_bind, Option.bind_some]

/-- What closes a list. -/
structure Closes (close : String) : Prop where
  ends : ∀ rest, Ends (close.toList ++ rest)
  comma : ∀ rest, expect ", " (close.toList ++ rest) = none
  operation : ∀ rest, choose operations (close.toList ++ rest) = none
  token : ∀ rest, ∃ t, token? (close.toList ++ rest) = some (t, rest) ∧
    t ∈ [Token.symbol .closeParen, .symbol .closeBracket]

theorem closes_paren : Closes ")" where
  ends _ := ⟨rfl, rfl⟩
  comma _ := rfl
  operation _ := rfl
  token rest := ⟨_, token?_closeParen rest, by decide⟩

theorem closes_bracket : Closes "]" where
  ends _ := ⟨rfl, rfl⟩
  comma _ := rfl
  operation _ := rfl
  token rest := ⟨_, token?_closeBracket rest, by decide⟩

theorem Closes.reader_eq_none {close : String} (h : Closes close) (rest : List Char) (n : Nat) :
    reader n (close.toList ++ rest) = none := by
  obtain ⟨t, read, ht⟩ := h.token rest
  refine Grammar.reader_eq_none read ?_ n
  simp only [List.mem_cons, List.not_mem_nil, or_false] at ht ⊢
  rcases ht with rfl | rfl <;> simp

/-- A list reads back up to what closes it. -/
theorem reads_list {es : List Expr} (h : ∀ e ∈ es, ReadsForm e) {close : String} (hc : Closes close)
    (rest : List Char) :
    ∀ᶠ n in atTop, readList (reader n) n close ((listSql es).toList ++ (close.toList ++ rest)) =
      some (es, rest) := by
  cases es with
  | nil =>
    apply Eventually.of_forall
    intro n
    rw [listSql, readList]
    simp only [String.toList_empty, List.nil_append, hc.reader_eq_none, expect_append,
      Option.bind_eq_bind, Option.bind_some]
  | cons e es =>
    have first := h e List.mem_cons_self _ (ends_tailSql (hc.ends rest) es)
    have later := reads_tail (fun x hx => h x (List.mem_cons_of_mem _ hx)) (hc.ends rest) (hc.comma rest)
    filter_upwards [first, later, eventually_gt_atTop es.length] with n hn hl hs
    rw [listSql, readList]
    simp only [String.toList_append, List.append_assoc, hn, hl n hs, expect_append,
      Option.bind_eq_bind, Option.bind_some]

/-- An expression reads back up to what closes it. -/
theorem reads_enclosed {e : Expr} (h : ReadsForm e) {close : String} (hc : Closes close)
    (rest : List Char) :
    ∀ᶠ n in atTop, readEnclosed (reader n) close (e.sql.toList ++ (close.toList ++ rest)) =
      some (e, rest) := by
  filter_upwards [h _ (hc.ends rest)] with n hn
  simp only [readEnclosed, hn, expect_append, Option.bind_eq_bind, Option.bind_some]

/-! ## Expressions with nothing on their left -/

/-- Step: a literal is read back. -/
theorem readsClosed_literal {value : Literal} (h : isWritable value = true) :
    ReadsClosed (.literal value) := by
  intro rest follows
  have delimited := delimited_of_follows follows
  apply Eventually.of_forall
  intro n
  rw [Expr.sql]
  cases value with
  | integer i =>
    have read := readClosed_numeral (reader n) n (Numeral.readable_ofInt i.toInt) rfl follows
    rwa [literalOf_ofInt] at read
  | float x =>
    have finite : x.isFinite = true := h
    have read := readClosed_numeral (reader n) n (Decimal.readable_positional x.negative (x.shortest .away))
      (Decimal.exponent_positional _ _) follows
    have back := literalOf_positional finite
    rw [Literal.positional] at back
    rw [back] at read
    rwa [Literal.sql, Literal.floatSql, if_pos finite]
  | string s =>
    have token := token?_append (isToken_quote s) delimited
    rw [Literal.sql, readClosed, token]
    rfl
  | boolean b =>
    cases b with
    | true =>
      have keyword : Token.ofWord "true" = .keyword "TRUE" := by decide +kernel
      have word : IsToken "true".toList (.ofWord "true") := isToken_word (by decide)
      rw [keyword] at word
      rw [Literal.sql, if_pos rfl, readClosed, token?_append word delimited]
      rfl
    | false =>
      have keyword : Token.ofWord "false" = .keyword "FALSE" := by decide +kernel
      have word : IsToken "false".toList (.ofWord "false") := isToken_word (by decide)
      rw [keyword] at word
      rw [Literal.sql, if_neg (by decide), readClosed, token?_append word delimited]
      rfl
  | null =>
    rw [Literal.sql, readClosed, token?_keyword "NULL" (by decide) delimited]
    rfl

theorem readsClosed_field (name : String) : ReadsClosed (.field name) := by
  intro rest follows
  apply Eventually.of_forall
  intro n
  have token := token?_append (isToken_identifier name) (delimited_of_follows follows)
  rw [Expr.sql, readClosed, token]
  simp only [Option.bind_eq_bind, Option.bind_some, readNamed, expect_paren_of_follows follows]

/-- Step: an operation in parentheses is read back, if its operands are. -/
theorem readsClosed_wrapped {left right : Expr} {op : BinaryOperator} (h : op.wraps = true)
    (hl : ReadsForm left) (hr : ReadsForm right) : ReadsClosed (.binary left op right) := by
  intro rest _
  generalize hcs : right.sql.toList ++ (")".toList ++ rest) = cs
  have operation : choose operations (" ".toList ++ (op.sql.toList ++ (" ".toList ++ cs))) = some (op, cs) := by
    cases op <;> first | rfl | cases h
  have ends : Ends (" ".toList ++ (op.sql.toList ++ (" ".toList ++ cs))) := by
    cases op <;> first | exact ⟨rfl, rfl⟩ | cases h
  have close := reads_enclosed hr closes_paren rest
  rw [hcs] at close
  filter_upwards [hl _ ends, close] with n hn hc
  simp only [Expr.sql, h, ↓reduceIte, String.toList_append, List.append_assoc, hcs]
  rw [readClosed, token?_openParen]
  simp only [Option.bind_eq_bind, Option.bind_some, readParens, hn, operation, hc]

/-- Step: a negation is read back, if its operand is. -/
theorem readsClosed_not {operand : Expr} (h : ReadsForm operand) : ReadsClosed (.not operand) := by
  intro rest _
  filter_upwards [reads_enclosed h closes_paren rest] with n hn
  have text : "NOT (".toList = "NOT".toList ++ " (".toList := rfl
  simp only [Expr.sql, String.toList_append, List.append_assoc, text]
  generalize operand.sql.toList ++ (")".toList ++ rest) = cs at hn ⊢
  have token : token? ("NOT".toList ++ (" (".toList ++ cs)) = some (.keyword "NOT", " (".toList ++ cs) :=
    token?_keyword "NOT" (by decide) (delimited_cons.2 (by decide))
  rw [readClosed, token]
  simp only [readKeyword, String.reduceEq, ↓reduceIte, expect_append, hn, Option.bind_eq_bind,
    Option.bind_some]

theorem token?_call {name : String} (h : isPlainName name = true) (cs : List Char) :
    token? (name.toList ++ ("(".toList ++ cs)) = some (.name name, "(".toList ++ cs) :=
  token?_name h (delimited_cons.2 (by decide))

theorem readsClosed_countAll : ReadsClosed (.count none) := by
  intro rest _
  apply Eventually.of_forall
  intro n
  have text : "COUNT(*)".toList = "COUNT".toList ++ ("(".toList ++ "*)".toList) := rfl
  have star : token? ("*)".toList ++ rest) = some (.symbol .star, ")".toList ++ rest) := rfl
  have none : readEnclosed (reader n) ")" ("*)".toList ++ rest) = none := by
    rw [readEnclosed, reader_eq_none star (by simp)]
    rfl
  simp only [Expr.sql, text, List.append_assoc]
  rw [readClosed, token?_call (by decide +kernel)]
  simp only [readNamed, ↓reduceIte, readCount, expect_append, none, Option.bind_eq_bind,
    Option.bind_some]

theorem readsClosed_count {operand : Expr} (h : ReadsForm operand) :
    ReadsClosed (.count (some operand)) := by
  intro rest _
  filter_upwards [reads_enclosed h closes_paren rest] with n hn
  have text : "COUNT(".toList = "COUNT".toList ++ "(".toList := rfl
  simp only [Expr.sql, String.toList_append, text, List.append_assoc]
  rw [readClosed, token?_call (by decide +kernel)]
  simp only [readNamed, ↓reduceIte, readCount, expect_append, hn, Option.bind_eq_bind,
    Option.bind_some]

theorem readsClosed_aggregate {function : AggregateFunction} {operand : Expr}
    (h : ReadsForm operand) : ReadsClosed (.aggregate function operand) := by
  intro rest _
  filter_upwards [reads_enclosed h closes_paren rest] with n hn
  have plain : isPlainName function.sql = true := by cases function <;> decide +kernel
  have other : ¬ function.sql = "COUNT" := by cases function <;> decide
  have known : aggregate? function.sql = some function := by cases function <;> rfl
  simp only [Expr.sql, String.toList_append, List.append_assoc]
  rw [readClosed, token?_call plain]
  simp only [readNamed, other, ↓reduceIte, known, expect_append, hn, Option.bind_eq_bind,
    Option.bind_some]

/-- Step: a call is read back, if its arguments are. -/
theorem readsClosed_call {name : String} {arguments : List Expr} (hn : isFunctionName name = true)
    (h : ∀ e ∈ arguments, ReadsForm e) : ReadsClosed (.call name arguments) := by
  intro rest _
  filter_upwards [reads_list h closes_paren rest] with n hl
  simp only [isFunctionName, Bool.and_eq_true, bne_iff_ne, ne_eq, Option.isNone_iff_eq_none] at hn
  obtain ⟨⟨plain, other⟩, unknown⟩ := hn
  simp only [Expr.sql, String.toList_append, List.append_assoc]
  rw [readClosed, token?_call plain]
  simp only [readNamed, other, ↓reduceIte, unknown, expect_append, hl, Option.bind_eq_bind,
    Option.bind_some]

/-- Step: an array is read back, if its items are. -/
theorem readsClosed_array {items : List Expr} (h : ∀ e ∈ items, ReadsForm e) :
    ReadsClosed (.array items) := by
  intro rest _
  filter_upwards [reads_list h closes_bracket rest] with n hl
  simp only [Expr.sql, String.toList_append, List.append_assoc]
  rw [readClosed, token?_openBracket]
  simp only [hl, Option.bind_eq_bind, Option.bind_some]

theorem readsClosed_tuple {items : List Expr} (h : ∀ e ∈ items, ReadsForm e) :
    ReadsClosed (.tuple items) := by
  intro rest _
  have closes := closes_paren
  cases items with
  | nil =>
    apply Eventually.of_forall
    intro n
    simp only [Expr.sql, listSql, String.toList_append, List.append_assoc, String.toList_empty,
      List.nil_append]
    rw [readClosed, token?_openParen]
    simp only [readParens, closes.reader_eq_none, expect_append, Option.bind_eq_bind, Option.bind_some]
  | cons e es =>
    have first := h e List.mem_cons_self _ (ends_tailSql (closes.ends rest) es)
    have later := reads_tail (fun x hx => h x (List.mem_cons_of_mem _ hx)) (closes.ends rest)
      (closes.comma rest)
    have noOperation : choose operations ((tailSql es).toList ++ (")".toList ++ rest)) = none := by
      cases es with
      | nil => rw [tailSql]; exact closes.operation rest
      | cons e es =>
        simp only [tailSql, String.toList_append, List.append_assoc]
        rfl
    filter_upwards [first, later, eventually_gt_atTop es.length] with n hn hl hs
    simp only [Expr.sql, listSql, String.toList_append, List.append_assoc]
    rw [readClosed, token?_openParen]
    simp only [readParens, hn, noOperation, hl n hs, expect_append, Option.bind_eq_bind,
      Option.bind_some]

/-- Step: a cast is read back, if its operand is and its type is balanced. -/
theorem readsClosed_cast {operand : Expr} {type : String} (h : ReadsForm operand)
    (ht : isBalanced 0 type.toList = true) : ReadsClosed (.cast operand type) := by
  intro rest _
  have balanced := readType_append ht rest
  rw [List.append_assoc] at balanced
  generalize hcs : " AS ".toList ++ (type.toList ++ (")".toList ++ rest)) = cs
  have ends : Ends cs := hcs ▸ ⟨rfl, rfl⟩
  have phrase : expect " AS " cs = some (type.toList ++ (")".toList ++ rest)) := by
    rw [← hcs, expect_append]
  filter_upwards [h cs ends] with n hn
  have text : "CAST(".toList = "CAST".toList ++ "(".toList := rfl
  have token : token? ("CAST".toList ++ ("(".toList ++ (operand.sql.toList ++ cs))) =
      some (.keyword "CAST", "(".toList ++ (operand.sql.toList ++ cs)) :=
    token?_keyword "CAST" (by decide) (delimited_cons.2 (by decide))
  simp only [Expr.sql, String.toList_append, text, List.append_assoc, hcs]
  rw [readClosed, token]
  simp only [readKeyword, String.reduceEq, ↓reduceIte, readCast, expect_append, hn, phrase, balanced,
    String.ofList_toList, Option.bind_eq_bind, Option.bind_some]

/-! ## Choices -/

theorem ends_branchesSql {rest : List Char} (h : Ends rest) :
    ∀ bs : List (Expr × Expr), Ends ((branchesSql bs).toList ++ rest)
  | [] => by rwa [branchesSql]
  | (condition, result) :: bs => by
    simp only [branchesSql, String.toList_append, List.append_assoc]
    exact ⟨rfl, rfl⟩

/-- Branches are read back up to the first phrase that begins no other. -/
theorem reads_branches {bs : List (Expr × Expr)} (hc : ∀ b ∈ bs, ReadsForm b.1)
    (hr : ∀ b ∈ bs, ReadsForm b.2) {rest : List Char} (ends : Ends rest)
    (stop : expect " WHEN " rest = none) :
    ∀ᶠ n in atTop, ∀ steps > bs.length,
      readBranches (reader n) steps ((branchesSql bs).toList ++ rest) = some (bs, rest) := by
  induction bs with
  | nil =>
    apply Eventually.of_forall
    intro n steps hs
    obtain ⟨steps, rfl⟩ : ∃ k, steps = k + 1 := ⟨steps - 1, by simp at hs; omega⟩
    rw [branchesSql, readBranches]
    simp only [String.toList_empty, List.nil_append, stop]
  | cons b bs ih =>
    obtain ⟨condition, result⟩ := b
    generalize hcs : (branchesSql bs).toList ++ rest = cs at ih
    have later := ih (fun x hx => hc x (List.mem_cons_of_mem _ hx))
      fun x hx => hr x (List.mem_cons_of_mem _ hx)
    have first := hc _ List.mem_cons_self (" THEN ".toList ++ (result.sql.toList ++ cs)) ⟨rfl, rfl⟩
    have second := hr _ List.mem_cons_self cs (hcs ▸ ends_branchesSql ends bs)
    filter_upwards [first, second, later] with n h₁ h₂ hl steps hs
    obtain ⟨steps, rfl⟩ : ∃ k, steps = k + 1 := ⟨steps - 1, by simp at hs; omega⟩
    have shorter : steps > bs.length := by simp only [List.length_cons] at hs; omega
    simp only [branchesSql, String.toList_append, List.append_assoc, readBranches, expect_append,
      hcs, h₁, h₂, hl steps shorter, Option.bind_eq_bind, Option.bind_some]

/-- A part behind a phrase is read back, and its absence noticed. -/
theorem reads_optional (phrase : String) {e : Option Expr} (h : ∀ x ∈ e, ReadsForm x)
    {rest : List Char} (ends : Ends rest) (absent : ∀ n, (expect phrase rest).bind (reader n) = none) :
    ∀ᶠ n in atTop, readOptional (reader n) phrase ((afterSql phrase e).toList ++ rest) =
      some (e, rest) := by
  cases e with
  | none =>
    apply Eventually.of_forall
    intro n
    simp only [afterSql, String.toList_empty, List.nil_append, readOptional, absent]
  | some e =>
    filter_upwards [h e rfl rest ends] with n hn
    simp only [afterSql, String.toList_append, List.append_assoc, readOptional, expect_append,
      Option.bind_some, hn]

/-- After the first word of a choice without a subject comes no expression. -/
theorem no_subject (bs : List (Expr × Expr)) (otherwise : Option Expr) {rest : List Char}
    (follows : Follows rest) (n : Nat) :
    (expect " " ((branchesSql bs).toList ++ ((afterSql " ELSE " otherwise).toList ++
      (" END".toList ++ rest)))).bind (reader n) = none := by
  cases bs with
  | cons b bs =>
    obtain ⟨condition, result⟩ := b
    simp only [branchesSql, String.toList_append, List.append_assoc]
    exact reader_eq_none (token?_keyword "WHEN" (by decide) (delimited_cons.2 (by decide))) (by simp) n
  | nil =>
    cases otherwise with
    | some e =>
      simp only [branchesSql, afterSql, String.toList_append, List.append_assoc]
      exact reader_eq_none (token?_keyword "ELSE" (by decide) (delimited_cons.2 (by decide))) (by simp) n
    | none =>
      simp only [branchesSql, afterSql]
      exact reader_eq_none (token?_keyword "END" (by decide) (delimited_of_follows follows)) (by simp) n

/-- Step: a choice is read back, if all of its parts are. -/
theorem readsClosed_case {subject otherwise : Option Expr} {branches : List (Expr × Expr)}
    (hs : ∀ e ∈ subject, ReadsForm e) (hc : ∀ b ∈ branches, ReadsForm b.1)
    (hr : ∀ b ∈ branches, ReadsForm b.2) (ho : ∀ e ∈ otherwise, ReadsForm e) :
    ReadsClosed (.case subject branches otherwise) := by
  intro rest follows
  have absent := no_subject branches otherwise follows
  -- What is left after the last part, the default, the branches and the subject.
  have ends₀ : Ends (" END".toList ++ rest) := ⟨rfl, rfl⟩
  have ends₁ : Ends ((afterSql " ELSE " otherwise).toList ++ (" END".toList ++ rest)) := by
    cases otherwise with
    | none => exact ends₀
    | some e =>
      simp only [afterSql, String.toList_append, List.append_assoc]
      exact ⟨rfl, rfl⟩
  have stop : expect " WHEN " ((afterSql " ELSE " otherwise).toList ++ (" END".toList ++ rest)) = none := by
    cases otherwise with
    | none => rfl
    | some e =>
      simp only [afterSql, String.toList_append, List.append_assoc]
      rfl
  have ends₂ := ends_branchesSql ends₁ branches
  have fallback := reads_optional " ELSE " ho ends₀ fun _ => rfl
  have middle := reads_branches hc hr ends₁ stop
  have first := reads_optional " " hs ends₂ absent
  filter_upwards [first, middle, fallback, eventually_gt_atTop branches.length] with n h₁ h₂ h₃ h₄
  have begins : Follows ((afterSql " " subject).toList ++ ((branchesSql branches).toList ++
      ((afterSql " ELSE " otherwise).toList ++ (" END".toList ++ rest)))) := by
    cases subject with
    | none => exact ends₂.1
    | some e =>
      simp only [afterSql, String.toList_append, List.append_assoc]
      rfl
  simp only [Expr.sql, String.toList_append, List.append_assoc]
  rw [readClosed, token?_keyword "CASE" (by decide) (delimited_of_follows begins)]
  simp only [readKeyword, String.reduceEq, ↓reduceIte, readCase, h₁, h₂ n h₄, h₃, expect_append,
    Option.bind_eq_bind, Option.bind_some]

/-! ## Forms without parentheses -/

/-- Step: a comparison is read back, if its operands are closed. -/
theorem readsForm_comparison {left right : Expr} {op : BinaryOperator} (h : op.isComparison = true)
    (hl : ReadsClosed left) (hr : ReadsClosed right) : ReadsForm (.binary left op right) := by
  intro rest ends
  generalize hcs : right.sql.toList ++ rest = cs
  have form : choose forms (" ".toList ++ (op.sql.toList ++ (" ".toList ++ cs))) =
      some (.comparison op, cs) := by
    cases op <;> first | rfl | cases h
  have bare : op.wraps = false := by rw [BinaryOperator.wraps, h]; rfl
  have second := hr rest ends.1
  rw [hcs] at second
  apply eventually_of_succ
  filter_upwards [hl (" ".toList ++ (op.sql.toList ++ (" ".toList ++ cs))) rfl, second] with n h₁ h₂
  simp only [Expr.sql, bare, Bool.false_eq_true, ↓reduceIte, String.toList_append, List.append_assoc,
    hcs, reader, readForm, h₁, form, h₂, Option.bind_eq_bind, Option.bind_some]

theorem readsForm_isIn {operand : Expr} {candidates : List Expr} (h : ReadsClosed operand)
    (hc : ∀ e ∈ candidates, ReadsForm e) : ReadsForm (.isIn operand candidates) := by
  intro rest _
  have second := reads_list hc closes_paren rest
  generalize hcs : (listSql candidates).toList ++ (")".toList ++ rest) = cs at second
  have form : choose forms (" IN (".toList ++ cs) = some (.isIn, cs) := rfl
  apply eventually_of_succ
  filter_upwards [h (" IN (".toList ++ cs) rfl, second] with n h₁ h₂
  simp only [Expr.sql, String.toList_append, List.append_assoc, hcs, reader, readForm, h₁, form, h₂,
    Option.bind_eq_bind, Option.bind_some]

/-- Step: a range is read back, if its operands are closed. -/
theorem readsForm_between {operand low high : Expr} (h : ReadsClosed operand)
    (hl : ReadsClosed low) (hh : ReadsClosed high) : ReadsForm (.between operand low high) := by
  intro rest ends
  generalize hcs : low.sql.toList ++ (" AND ".toList ++ (high.sql.toList ++ rest)) = cs
  have form : choose forms (" BETWEEN ".toList ++ cs) = some (.between, cs) := rfl
  have second := hl (" AND ".toList ++ (high.sql.toList ++ rest)) rfl
  rw [hcs] at second
  apply eventually_of_succ
  filter_upwards [h (" BETWEEN ".toList ++ cs) rfl, second, hh rest ends.1] with n h₁ h₂ h₃
  simp only [Expr.sql, String.toList_append, List.append_assoc, hcs, reader, readForm, h₁, form, h₂,
    h₃, expect_append, Option.bind_eq_bind, Option.bind_some]

theorem readsForm_isNull {operand : Expr} {negated : Bool} (h : ReadsClosed operand) :
    ReadsForm (.isNull operand negated) := by
  intro rest _
  generalize hcs : (if negated then " IS NOT NULL" else " IS NULL").toList ++ rest = cs
  have form : choose forms cs = some (.isNull negated, rest) := by
    rw [← hcs]
    cases negated <;> rfl
  have follows : Follows cs := by
    rw [← hcs]
    cases negated <;> rfl
  apply eventually_of_succ
  filter_upwards [h cs follows] with n h₁
  simp only [Expr.sql, String.toList_append, List.append_assoc, hcs, reader, readForm, h₁, form,
    Option.bind_eq_bind, Option.bind_some]

/-! ## All expressions -/

/-- **The text of an expression** reads back as the expression. -/
theorem Fits.reads {place : Place} {e : Expr} (h : Fits place e) : Reads place e := by
  induction h with
  | literal h => exact (readsClosed_literal h).reads _
  | field => exact (readsClosed_field _).reads _
  | wrapped h _ _ hl hr => exact (readsClosed_wrapped h hl hr).reads _
  | not _ h => exact (readsClosed_not h).reads _
  | countAll => exact readsClosed_countAll.reads _
  | count _ h => exact (readsClosed_count h).reads _
  | aggregate _ h => exact (readsClosed_aggregate h).reads _
  | call hn _ h => exact (readsClosed_call hn h).reads _
  | array _ h => exact (readsClosed_array h).reads _
  | tuple _ h => exact (readsClosed_tuple h).reads _
  | case _ _ _ _ hs hc hr ho => exact (readsClosed_case hs hc hr ho).reads _
  | cast _ ht h => exact (readsClosed_cast h ht).reads _
  | comparison h _ _ hl hr => exact readsForm_comparison h hl hr
  | isIn _ _ h hc => exact readsForm_isIn h hc
  | between _ _ _ h hl hh => exact readsForm_between h hl hh
  | isNull _ h => exact readsForm_isNull h

/-- The expression may stand anywhere, or is one that may and has a name for its result. -/
inductive Stands : Expr → Prop where
  | plain {e : Expr} (h : Fits .anywhere e) : Stands e
  | aliased {e : Expr} {name : String} (h : Fits .anywhere e) : Stands (.aliased e name)

/-- **A text of the grammar** is read back with fuel enough. -/
theorem Stands.reads {e : Expr} (h : Stands e) :
    ∀ᶠ n in atTop, aliasReader n e.sql.toList = some (e, []) := by
  cases h with
  | plain h =>
    have read : ReadsForm e := h.reads
    filter_upwards [read [] ⟨rfl, rfl⟩] with n hn
    rw [List.append_nil] at hn
    have none : expect " AS " [] = none := rfl
    simp only [aliasReader, hn, none, Option.bind_eq_bind, Option.bind_some]
  | @aliased e name h =>
    have read : ReadsForm e := h.reads
    have token := token?_append (isToken_identifier name) delimited_nil
    rw [List.append_nil] at token
    filter_upwards [read (" AS ".toList ++ (Identifier.sql name).toList) ⟨rfl, rfl⟩] with n hn
    simp only [Expr.sql, String.toList_append, List.append_assoc, aliasReader, hn, expect_append,
      token, Option.bind_eq_bind, Option.bind_some]

/-- **Rendering loses no structure**: no two such expressions have the same text. -/
theorem sql_injective {e₁ e₂ : Expr} (h₁ : Stands e₁) (h₂ : Stands e₂) (h : e₁.sql = e₂.sql) :
    e₁ = e₂ := by
  obtain ⟨n, first, second⟩ := (h₁.reads.and h₂.reads).exists
  rw [h, second] at first
  simpa using first.symm

theorem sql_injective_conjunction :
    Stands (.binary (.between (.field "a") (.literal (.integer 1)) (.count none)) .and (.field "b")) ∧
      (Expr.between (.field "a") (.literal (.integer 1)) (.count none)).and (.field "b") =
        .binary (.between (.field "a") (.literal (.integer 1)) (.count none)) .and (.field "b") := by
  have stands : Stands (.binary (.between (.field "a") (.literal (.integer 1)) (.count none)) .and
      (.field "b")) :=
    .plain (.wrapped rfl (.between .field (.literal rfl) .countAll) .field)
  exact ⟨stands, sql_injective stands stands rfl⟩

/-- Comparisons of comparisons do not tell which came first. -/
example : (Expr.eq (.eq (.field "a") (.field "b")) (.field "c")).sql =
    (Expr.eq (.field "a") (.eq (.field "b") (.field "c"))).sql := by
  decide +kernel

end SqlSelect.Grammar
