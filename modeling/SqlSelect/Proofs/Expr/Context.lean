import Mathlib.Data.List.Basic
import Mathlib.Logic.Relation
import SqlSelect.Expr.Render

/-!
# Expressions in context

A `Frame` is an expression with one of its immediate parts taken out, and a `Context` is a
nest of frames: an expression with a hole somewhere in it. The contexts are all the places
where an expression can be part of another one (`isPart_iff`). The text around a hole belongs
to its frame (`Frame.sql_fill`), and so to the context (`Context.sql_fill`), whatever is
filled in. Rendering is therefore compositional (**`sql_compositional`**).
-/

set_option autoImplicit false

namespace SqlSelect

/-! ## Lists with a place in them -/

theorem tailSql_append (es rest : List Expr) : tailSql (es ++ rest) = tailSql es ++ tailSql rest := by
  induction es with
  | nil => rw [List.nil_append, tailSql, String.empty_append]
  | cons e es ih => simp only [List.cons_append, tailSql, ih, String.append_assoc]

theorem branchesSql_append (branches rest : List (Expr × Expr)) :
    branchesSql (branches ++ rest) = branchesSql branches ++ branchesSql rest := by
  induction branches with
  | nil => rw [List.nil_append, branchesSql, String.empty_append]
  | cons branch branches ih =>
    obtain ⟨condition, result⟩ := branch
    simp only [List.cons_append, branchesSql, ih, String.append_assoc]

/-- The expressions of a list that stand before another one, each with a comma after it. -/
def headSql : List Expr → String
  | [] => ""
  | e :: rest => listSql (e :: rest) ++ ", "

/-- A list with one of its expressions marked. A comma stands on a side exactly if that
side has an expression. -/
theorem listSql_place (before : List Expr) (e : Expr) (after : List Expr) :
    listSql (before ++ e :: after) = headSql before ++ e.sql ++ tailSql after := by
  cases before with
  | nil => rw [List.nil_append, headSql, listSql, String.empty_append]
  | cons first before =>
    simp only [List.cons_append, headSql, listSql, tailSql_append, tailSql, String.append_assoc]

/-- Branches with one of them marked. -/
theorem branchesSql_place (before : List (Expr × Expr)) (condition result : Expr)
    (after : List (Expr × Expr)) :
    branchesSql (before ++ (condition, result) :: after) =
      branchesSql before ++ " WHEN " ++ condition.sql ++ " THEN " ++ result.sql ++ branchesSql after := by
  simp only [branchesSql_append, branchesSql, String.append_assoc]

/-! ## Parentheses -/

namespace BinaryOperator

/-- What the operator has in front of its operands. -/
def opening (op : BinaryOperator) : String := if op.wraps then "(" else ""

/-- What the operator has after its operands. -/
def closing (op : BinaryOperator) : String := if op.wraps then ")" else ""

end BinaryOperator

namespace Expr

/-- An operation is its operands with its operator between, perhaps in parentheses. -/
theorem sql_binary (left : Expr) (op : BinaryOperator) (right : Expr) :
    (binary left op right).sql =
      op.opening ++ left.sql ++ " " ++ op.sql ++ " " ++ right.sql ++ op.closing := by
  rw [sql, BinaryOperator.opening, BinaryOperator.closing]
  split
  · rfl
  · rw [String.empty_append, String.append_empty]

/-! ## Frames -/

/-- An expression with a hole in place of one of its immediate parts. -/
inductive Frame where
  | leftOperand (op : BinaryOperator) (right : Expr)
  | rightOperand (left : Expr) (op : BinaryOperator)
  | negation
  | counted
  | aggregated (function : AggregateFunction)
  | argument (name : String) (before after : List Expr)
  | arrayItem (before after : List Expr)
  | tupleItem (before after : List Expr)
  | member (candidates : List Expr)
  | candidate (operand : Expr) (before after : List Expr)
  | ranged (low high : Expr)
  | lowEnd (operand high : Expr)
  | highEnd (operand low : Expr)
  | nullTest (negated : Bool)
  | caseSubject (branches : List (Expr × Expr)) (otherwise : Option Expr)
  | branchCondition (subject : Option Expr) (before : List (Expr × Expr)) (result : Expr)
      (after : List (Expr × Expr)) (otherwise : Option Expr)
  | branchResult (subject : Option Expr) (before : List (Expr × Expr)) (condition : Expr)
      (after : List (Expr × Expr)) (otherwise : Option Expr)
  | caseOtherwise (subject : Option Expr) (branches : List (Expr × Expr))
  | converted (type : String)
  | named (name : String)

namespace Frame

/-- The expression with its hole filled. -/
def fill (frame : Frame) (e : Expr) : Expr :=
  match frame with
  | leftOperand op right => .binary e op right
  | rightOperand left op => .binary left op e
  | negation => .not e
  | counted => .count (some e)
  | aggregated function => .aggregate function e
  | argument name before after => .call name (before ++ e :: after)
  | arrayItem before after => .array (before ++ e :: after)
  | tupleItem before after => .tuple (before ++ e :: after)
  | member candidates => .isIn e candidates
  | candidate operand before after => .isIn operand (before ++ e :: after)
  | ranged low high => .between e low high
  | lowEnd operand high => .between operand e high
  | highEnd operand low => .between operand low e
  | nullTest negated => .isNull e negated
  | caseSubject branches otherwise => .case (some e) branches otherwise
  | branchCondition subject before result after otherwise =>
    .case subject (before ++ (e, result) :: after) otherwise
  | branchResult subject before condition after otherwise =>
    .case subject (before ++ (condition, e) :: after) otherwise
  | caseOtherwise subject branches => .case subject branches (some e)
  | converted type => .cast e type
  | named name => .aliased e name

/-- The text before the hole, and the text after it. -/
def around : Frame → String × String
  | leftOperand op right => (op.opening, " " ++ op.sql ++ " " ++ right.sql ++ op.closing)
  | rightOperand left op => (op.opening ++ left.sql ++ " " ++ op.sql ++ " ", op.closing)
  | negation => ("NOT (", ")")
  | counted => ("COUNT(", ")")
  | aggregated function => (function.sql ++ "(", ")")
  | argument name before after => (name ++ "(" ++ headSql before, tailSql after ++ ")")
  | arrayItem before after => ("[" ++ headSql before, tailSql after ++ "]")
  | tupleItem before after => ("(" ++ headSql before, tailSql after ++ ")")
  | member candidates => ("", " IN (" ++ listSql candidates ++ ")")
  | candidate operand before after => (operand.sql ++ " IN (" ++ headSql before, tailSql after ++ ")")
  | ranged low high => ("", " BETWEEN " ++ low.sql ++ " AND " ++ high.sql)
  | lowEnd operand high => (operand.sql ++ " BETWEEN ", " AND " ++ high.sql)
  | highEnd operand low => (operand.sql ++ " BETWEEN " ++ low.sql ++ " AND ", "")
  | nullTest negated => ("", if negated then " IS NOT NULL" else " IS NULL")
  | caseSubject branches otherwise =>
    ("CASE" ++ " ", branchesSql branches ++ afterSql " ELSE " otherwise ++ " END")
  | branchCondition subject before result after otherwise =>
    ("CASE" ++ afterSql " " subject ++ branchesSql before ++ " WHEN ",
      " THEN " ++ result.sql ++ branchesSql after ++ afterSql " ELSE " otherwise ++ " END")
  | branchResult subject before condition after otherwise =>
    ("CASE" ++ afterSql " " subject ++ branchesSql before ++ " WHEN " ++ condition.sql ++ " THEN ",
      branchesSql after ++ afterSql " ELSE " otherwise ++ " END")
  | caseOtherwise subject branches =>
    ("CASE" ++ afterSql " " subject ++ branchesSql branches ++ " ELSE ", " END")
  | converted type => ("CAST(", " AS " ++ type ++ ")")
  | named name => ("", " AS " ++ Identifier.sql name)

/-- **The text of a frame** does not depend on what its hole is filled with. -/
theorem sql_fill (frame : Frame) (e : Expr) :
    (frame.fill e).sql = frame.around.1 ++ e.sql ++ frame.around.2 := by
  -- By what the frame has around its hole: an operator, a list, branches, or fixed words.
  cases frame with
  | leftOperand | rightOperand =>
    simp only [fill, around, sql_binary, String.append_assoc]
  | argument | arrayItem | tupleItem | candidate =>
    simp only [fill, around, Expr.sql, listSql_place, String.append_assoc]
  | branchCondition | branchResult =>
    simp only [fill, around, Expr.sql, branchesSql_place, String.append_assoc]
  | caseSubject | caseOtherwise =>
    simp only [fill, around, Expr.sql, afterSql, String.append_assoc]
  | negation | counted | aggregated | converted =>
    simp only [fill, around, Expr.sql, String.append_assoc]
  | member | ranged | lowEnd | highEnd | nullTest | named =>
    simp only [fill, around, Expr.sql, String.append_assoc, String.empty_append, String.append_empty]

end Frame

/-! ## Contexts -/

/-- An expression with a hole at any depth: the hole itself, or a frame around a context. -/
inductive Context where
  | hole
  | within (frame : Frame) (inner : Context)

namespace Context

/-- The expression with its hole filled. -/
def fill : Context → Expr → Expr
  | hole, e => e
  | within frame inner, e => frame.fill (inner.fill e)

def before : Context → String
  | hole => ""
  | within frame inner => frame.around.1 ++ inner.before

def after : Context → String
  | hole => ""
  | within frame inner => inner.after ++ frame.around.2

/-- **The text of a context** does not depend on what its hole is filled with. -/
theorem sql_fill (context : Context) (e : Expr) :
    (context.fill e).sql = context.before ++ e.sql ++ context.after := by
  induction context with
  | hole => rw [fill, before, after, String.empty_append, String.append_empty]
  | within frame inner ih =>
    rw [fill, Frame.sql_fill, ih]
    simp only [before, after, String.append_assoc]

example :
    let context := within (.tupleItem [.field "a"] [.field "b"]) (within .negation hole)
    context.before = "(a, NOT (" ∧ context.after = "), b)" := by
  decide +kernel

/-- What fills the hole counts for its text, and for nothing else. -/
theorem sql_fill_eq_iff (context : Context) (e f : Expr) :
    (context.fill e).sql = (context.fill f).sql ↔ e.sql = f.sql := by
  rw [sql_fill, sql_fill, String.append_left_inj, String.append_right_inj]

end Context

/-! ## Parts -/

/-- The immediate parts of an expression, in the order of their texts. -/
def children : Expr → List Expr
  | .literal _ | .field _ => []
  | .binary left _ right => [left, right]
  | .not operand | .aggregate _ operand | .isNull operand _ | .cast operand _
  | .aliased operand _ => [operand]
  | .count operand => operand.toList
  | .call _ items | .array items | .tuple items => items
  | .isIn operand candidates => operand :: candidates
  | .between operand low high => [operand, low, high]
  | .case subject branches otherwise =>
    subject.toList ++ (branches.flatMap fun (condition, result) => [condition, result]) ++
      otherwise.toList

/-- An expression stands in another one, at any depth; it stands in itself. -/
def IsPart : Expr → Expr → Prop := Relation.ReflTransGen fun part whole => part ∈ whole.children

/-- The immediate parts are what stands in a frame. -/
theorem mem_children_iff {part whole : Expr} :
    part ∈ whole.children ↔ ∃ frame : Frame, frame.fill part = whole := by
  constructor
  · intro h
    cases whole with
    | literal | field => simp [children] at h
    | binary left op right =>
      rcases List.mem_pair.1 h with rfl | rfl
      · exact ⟨.leftOperand op right, rfl⟩
      · exact ⟨.rightOperand left op, rfl⟩
    | not operand =>
      obtain rfl := List.mem_singleton.1 h
      exact ⟨.negation, rfl⟩
    | count operand =>
      obtain rfl := Option.mem_toList.1 h
      exact ⟨.counted, rfl⟩
    | aggregate function operand =>
      obtain rfl := List.mem_singleton.1 h
      exact ⟨.aggregated function, rfl⟩
    | call name items =>
      obtain ⟨before, after, rfl⟩ := List.append_of_mem h
      exact ⟨.argument name before after, rfl⟩
    | array items =>
      obtain ⟨before, after, rfl⟩ := List.append_of_mem h
      exact ⟨.arrayItem before after, rfl⟩
    | tuple items =>
      obtain ⟨before, after, rfl⟩ := List.append_of_mem h
      exact ⟨.tupleItem before after, rfl⟩
    | isIn operand candidates =>
      rcases List.mem_cons.1 h with rfl | h
      · exact ⟨.member candidates, rfl⟩
      · obtain ⟨before, after, rfl⟩ := List.append_of_mem h
        exact ⟨.candidate operand before after, rfl⟩
    | between operand low high =>
      rcases List.mem_cons.1 h with rfl | h
      · exact ⟨.ranged low high, rfl⟩
      · rcases List.mem_pair.1 h with rfl | rfl
        · exact ⟨.lowEnd operand high, rfl⟩
        · exact ⟨.highEnd operand low, rfl⟩
    | isNull operand negated =>
      obtain rfl := List.mem_singleton.1 h
      exact ⟨.nullTest negated, rfl⟩
    | case subject branches otherwise =>
      rcases List.mem_append.1 h with h | h
      · rcases List.mem_append.1 h with h | h
        · obtain rfl := Option.mem_toList.1 h
          exact ⟨.caseSubject branches otherwise, rfl⟩
        · obtain ⟨⟨condition, result⟩, branch, inside⟩ := List.mem_flatMap.1 h
          obtain ⟨before, after, rfl⟩ := List.append_of_mem branch
          rcases List.mem_pair.1 inside with rfl | rfl
          · exact ⟨.branchCondition subject before result after otherwise, rfl⟩
          · exact ⟨.branchResult subject before condition after otherwise, rfl⟩
      · obtain rfl := Option.mem_toList.1 h
        exact ⟨.caseOtherwise subject branches, rfl⟩
    | cast operand type =>
      obtain rfl := List.mem_singleton.1 h
      exact ⟨.converted type, rfl⟩
    | aliased operand name =>
      obtain rfl := List.mem_singleton.1 h
      exact ⟨.named name, rfl⟩
  · rintro ⟨frame, rfl⟩
    cases frame <;> simp [Frame.fill, children]

/-- **Every part stands in a context**, and nothing else does. -/
theorem isPart_iff {part whole : Expr} :
    part.IsPart whole ↔ ∃ context : Context, context.fill part = whole := by
  constructor
  · intro h
    induction h with
    | refl => exact ⟨.hole, rfl⟩
    | tail _ step ih =>
      obtain ⟨context, rfl⟩ := ih
      obtain ⟨frame, rfl⟩ := mem_children_iff.1 step
      exact ⟨.within frame context, rfl⟩
  · rintro ⟨context, rfl⟩
    induction context with
    | hole => exact .refl
    | within frame inner ih => exact ih.tail (mem_children_iff.2 ⟨frame, rfl⟩)

/-- **Rendering is compositional.** The text of an expression stands in that of any context
as it is, between two texts that depend on the context alone; an operation that stands
anywhere has parentheses around it if its operator asks for them, whatever is around it and
whatever its operands are. So two expressions may stand for each other exactly if they have
one text. The contexts are all the ways in which one expression is part of another. -/
theorem sql_compositional :
    (∀ context : Context, ∃ before after : String,
      (∀ e : Expr, (context.fill e).sql = before ++ e.sql ++ after) ∧
      ∀ (left : Expr) (op : BinaryOperator) (right : Expr),
        (context.fill (.binary left op right)).sql =
          before ++ (if op.wraps then "(" else "") ++ left.sql ++ " " ++ op.sql ++ " " ++
            right.sql ++ (if op.wraps then ")" else "") ++ after) ∧
    (∀ (context : Context) (e f : Expr),
      (context.fill e).sql = (context.fill f).sql ↔ e.sql = f.sql) ∧
    ∀ part whole : Expr, part.IsPart whole ↔ ∃ context : Context, context.fill part = whole := by
  refine ⟨fun context => ⟨context.before, context.after, context.sql_fill, ?_⟩,
    Context.sql_fill_eq_iff, fun _ _ => isPart_iff⟩
  intro left op right
  rw [context.sql_fill, sql_binary]
  simp only [BinaryOperator.opening, BinaryOperator.closing, String.append_assoc]

end Expr

end SqlSelect
