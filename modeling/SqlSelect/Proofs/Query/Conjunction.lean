import SqlSelect.Query.Statement

/-!
# Conditions joined and taken apart

`Expr.conjunction` joins conditions from the left, so that the conditions lie along the left
operands of the tree. `Expr.conditions` reads them off again: joining them gives back the
tree (`conjunction_conditions`), and of conditions that were joined they are those of the
first one, followed by the others (`conditions_foldl_and`). So nothing is lost, repeated or
moved, and the first conditions of a query may as well be joined before
(**`conjunction_faithful`**).
-/

set_option autoImplicit false

namespace SqlSelect

namespace Expr

/-! ## Joining -/

/-- **Joining in two steps**: the first conditions may be joined before the others. -/
theorem conjunction_append {first : List Expr} {all : Expr} (joined : conjunction first = some all)
    (rest : List Expr) : conjunction (first ++ rest) = conjunction (all :: rest) := by
  cases first with
  | nil => cases joined
  | cons e first =>
    obtain rfl := Option.some.inj joined
    rw [List.cons_append, conjunction, conjunction, List.foldl_append]

/-- Any conditions at all have a conjunction. -/
theorem exists_conjunction {conditions : List Expr} (nonempty : conditions ≠ []) :
    ∃ all, conjunction conditions = some all := by
  obtain ⟨first, rest, rfl⟩ := List.exists_cons_of_ne_nil nonempty
  exact ⟨_, rfl⟩

/-! ## Taking apart -/

/-- The expression is two conditions joined. -/
def isAnd : Expr → Bool
  | .binary _ .and _ => true
  | _ => false

/-- The conditions that an expression joins, from the left: what stands to the right of an
`AND`, after the conditions to its left. An expression of another form is a condition itself. -/
def conditions : Expr → List Expr
  | .binary left .and right => left.conditions ++ [right]
  | e => [e]

/-- One more condition is the last in the spine. -/
theorem conditions_and (left right : Expr) :
    (left.and right).conditions = left.conditions ++ [right] := by
  rw [Expr.and, conditions]

/-- What is no conjunction is its own only condition. -/
theorem conditions_of_not_isAnd {e : Expr} (h : e.isAnd = false) : e.conditions = [e] := by
  unfold conditions
  split
  · cases h
  · rfl

/-- **Along the left operands** lie the conditions of the first one, and then the others. -/
theorem conditions_foldl_and (rest : List Expr) (first : Expr) :
    (rest.foldl Expr.and first).conditions = first.conditions ++ rest := by
  -- The first condition changes with each step: it is the tree of those joined so far.
  induction rest generalizing first with
  | nil => rw [List.foldl_nil, List.append_nil]
  | cons next rest ih =>
    rw [List.foldl_cons, ih, conditions_and, List.append_assoc, List.singleton_append]

/-- **Joining undoes taking apart.** -/
theorem conjunction_conditions (e : Expr) : conjunction e.conditions = some e := by
  fun_induction conditions e with
  | case1 left right ih => rw [conjunction_append ih]; rfl
  | case2 e => rfl

/-- An expression is told by the conditions along its spine. -/
theorem conditions_injective {e f : Expr} (same : e.conditions = f.conditions) : e = f :=
  Option.some.inj (by rw [← conjunction_conditions, ← conjunction_conditions, same])

/-! ## Lists with one conjunction -/

variable {xs ys : List Expr}

/-- Lists with one conjunction are both empty, or they are the same once the first condition
of each is taken apart. -/
theorem cases_of_conjunction_eq (same : conjunction xs = conjunction ys) :
    (xs = [] ∧ ys = []) ∨ ∃ x xs' y ys', xs = x :: xs' ∧ ys = y :: ys' ∧
      x.conditions ++ xs' = y.conditions ++ ys' := by
  cases xs with
  | nil =>
    cases ys with
    | nil => exact .inl ⟨rfl, rfl⟩
    | cons y ys => cases same
  | cons x xs =>
    cases ys with
    | nil => cases same
    | cons y ys =>
      have apart := congrArg conditions (Option.some.inj same)
      rw [conditions_foldl_and, conditions_foldl_and] at apart
      exact .inr ⟨x, xs, y, ys, rfl, rfl, apart⟩

/-- A list is given by its conjunction and its length. -/
theorem eq_of_conjunction_of_length (length : xs.length = ys.length)
    (same : conjunction xs = conjunction ys) : xs = ys := by
  rcases cases_of_conjunction_eq same with ⟨rfl, rfl⟩ | ⟨x, xs', y, ys', rfl, rfl, apart⟩
  · rfl
  · obtain ⟨first, rest⟩ := List.append_inj' apart (Nat.succ.inj length)
    rw [conditions_injective first, rest]

-- Neither the number nor the form of the conditions may be left open.
example (a b c : Expr) : conjunction [a.and b, c] = conjunction [a, b, c] := rfl

/-- A list is given by its conjunction, if its first condition is not joined of others. -/
theorem eq_of_conjunction_of_not_isAnd (plain : ∀ e ∈ xs.head?, e.isAnd = false)
    (plain' : ∀ e ∈ ys.head?, e.isAnd = false) (same : conjunction xs = conjunction ys) : xs = ys := by
  rcases cases_of_conjunction_eq same with ⟨rfl, rfl⟩ | ⟨x, xs', y, ys', rfl, rfl, apart⟩
  · rfl
  · rwa [conditions_of_not_isAnd (plain x rfl), conditions_of_not_isAnd (plain' y rfl)] at apart

end Expr

/-! ## Statements -/

namespace Query

/-- A statement shows the conditions of a clause by their conjunction alone. -/
theorem statement_of_conjunctions (q : Query) {wheres wheres' havings havings' : List Expr}
    (rows : Expr.conjunction wheres = Expr.conjunction wheres')
    (groups : Expr.conjunction havings = Expr.conjunction havings') :
    ({ q with wheres, havings } : Query).statement =
      ({ q with wheres := wheres', havings := havings' } : Query).statement := by
  have onRows : conditionClause " WHERE " wheres = conditionClause " WHERE " wheres' := by
    rw [conditionClause, conditionClause, rows]
  have onGroups : conditionClause " HAVING " havings = conditionClause " HAVING " havings' := by
    rw [conditionClause, conditionClause, groups]
  unfold statement statementOver
  rw [onRows, onGroups]
  rfl

/-- **Joining conditions loses, repeats and moves nothing.** The first ones may be joined
before the others, which makes the same tree, and the same statement of a query that has them
for its conditions on rows or on groups. A tree tells what conditions it was joined of, if
their number is known, or if it is known that none of them was joined of others before. -/
theorem conjunction_faithful :
    (∀ first : List Expr, first ≠ [] → ∃ all, Expr.conjunction first = some all ∧
      ∀ rest : List Expr,
        Expr.conjunction (first ++ rest) = Expr.conjunction (all :: rest) ∧
        ∀ q : Query,
          ({ q with wheres := first ++ rest } : Query).statement =
            ({ q with wheres := all :: rest } : Query).statement ∧
          ({ q with havings := first ++ rest } : Query).statement =
            ({ q with havings := all :: rest } : Query).statement) ∧
    (∀ xs ys : List Expr, xs.length = ys.length →
      Expr.conjunction xs = Expr.conjunction ys → xs = ys) ∧
    ∀ xs ys : List Expr, (∀ e ∈ xs, e.isAnd = false) → (∀ e ∈ ys, e.isAnd = false) →
      Expr.conjunction xs = Expr.conjunction ys → xs = ys := by
  refine ⟨fun first nonempty => ?_, fun xs ys => Expr.eq_of_conjunction_of_length,
    fun xs ys plain plain' => ?_⟩
  · obtain ⟨all, joined⟩ := Expr.exists_conjunction nonempty
    refine ⟨all, joined, fun rest => ?_⟩
    have same := Expr.conjunction_append joined rest
    exact ⟨same, fun q => ⟨q.statement_of_conjunctions same rfl, q.statement_of_conjunctions rfl same⟩⟩
  · exact Expr.eq_of_conjunction_of_not_isAnd
      (fun e h => plain e (List.mem_of_mem_head? h)) (fun e h => plain' e (List.mem_of_mem_head? h))

/-- Three conditions, the first two of them joined before; and trees taken apart again. -/
theorem conjunction_faithful_three :
    let a : Expr := .field "a"
    let b : Expr := .field "b"
    let c : Expr := .field "c"
    let both := a.and b
    let all := both.and c
    let q : Query := { table := some "t", selects := [.field "x"] }
    [a, b] ≠ [] ∧ Expr.conjunction [a, b] = some both ∧
      Expr.conjunction [a, b, c] = Expr.conjunction [both, c] ∧
      ({ q with wheres := [a, b, c] } : Query).statement =
        ({ q with wheres := [both, c] } : Query).statement ∧
      ({ q with havings := [a, b, c] } : Query).statement =
        ({ q with havings := [both, c] } : Query).statement ∧
      [a, b, c].length = all.conditions.length ∧
      Expr.conjunction [a, b, c] = Expr.conjunction all.conditions ∧ [a, b, c] = all.conditions ∧
      (∀ e ∈ [a, b], e.isAnd = false) ∧ (∀ e ∈ both.conditions, e.isAnd = false) ∧
      Expr.conjunction [a, b] = Expr.conjunction both.conditions ∧ [a, b] = both.conditions := by
  intro a b c both all q
  obtain ⟨joined, byLength, byForm⟩ := conjunction_faithful
  obtain ⟨both', h, steps⟩ := joined [a, b] (List.cons_ne_nil _ _)
  obtain rfl : both = both' := Option.some.inj h
  obtain ⟨tree, statements⟩ := steps [c]
  have plain : ∀ e ∈ [a, b], e.isAnd = false := by simp [a, b, Expr.isAnd]
  refine ⟨List.cons_ne_nil _ _, h, tree, (statements q).1, (statements q).2, rfl, rfl,
    byLength _ _ rfl rfl, plain, plain, rfl, byForm _ _ plain plain rfl⟩

end Query

end SqlSelect
