import SqlSelect.Expr.Basic

/-!
# Equality of expressions as values

`Expr.sameValue` compares two expressions part by part. Floats are compared as
numbers: a not-a-number differs from itself, and the two zeros are the same.
-/

set_option autoImplicit false

namespace SqlSelect

mutual

/-- Two expressions are of one form and have the same parts. -/
def Expr.sameValue : Expr → Expr → Bool
  | .literal a, .literal b => a.sameValue b
  | .field a, .field b => a == b
  | .binary l op r, .binary l' op' r' => l.sameValue l' && op == op' && r.sameValue r'
  | .not e, .not e' => e.sameValue e'
  | .count e, .count e' => sameOption e e'
  | .aggregate f e, .aggregate f' e' => f == f' && e.sameValue e'
  | .call n es, .call n' es' => n == n' && sameList es es'
  | .array es, .array es' => sameList es es'
  | .tuple es, .tuple es' => sameList es es'
  | .isIn e es, .isIn e' es' => e.sameValue e' && sameList es es'
  | .between e l h, .between e' l' h' => e.sameValue e' && l.sameValue l' && h.sameValue h'
  | .isNull e n, .isNull e' n' => e.sameValue e' && n == n'
  | .case s bs d, .case s' bs' d' => sameOption s s' && sameBranches bs bs' && sameOption d d'
  | .cast e t, .cast e' t' => e.sameValue e' && t == t'
  | .aliased e n, .aliased e' n' => e.sameValue e' && n == n'
  | _, _ => false

def sameList : List Expr → List Expr → Bool
  | [], [] => true
  | e :: es, e' :: es' => e.sameValue e' && sameList es es'
  | _, _ => false

def sameOption : Option Expr → Option Expr → Bool
  | none, none => true
  | some e, some e' => e.sameValue e'
  | _, _ => false

def sameBranches : List (Expr × Expr) → List (Expr × Expr) → Bool
  | [], [] => true
  | (c, r) :: bs, (c', r') :: bs' => c.sameValue c' && r.sameValue r' && sameBranches bs bs'
  | _, _ => false

end

end SqlSelect
