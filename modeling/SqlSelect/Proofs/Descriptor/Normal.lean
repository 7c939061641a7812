import Mathlib
import SqlSelect.Proofs.Descriptor.Accepted
import SqlSelect.Proofs.Descriptor.RoundTrip

/-!
# Encoding what was decoded

A text may spell what it describes in many ways; the encoding is one of them, and
no deeper than the text is outside the members that it ignores
(`decode_normalizes`). So what was decoded can always be encoded and decoded
again. The proof goes through the parts of an accepted value: each describes
something that `Fits` the depth of the part.
-/

set_option autoImplicit false

namespace SqlSelect.Descriptor

open SqlSelect.Json (Document FloatReader Name Number Sound Value opened)

/-! ## What fits a depth -/

/-- What is described is written with so many arrays and objects open at once, and
has the one not-a-number throughout. The body of a variant is counted without the
variant, and what is missing in a query takes an array of its own. -/
def Shape.Fits : (s : Shape) → Nat → s.Content → Prop
  | .float, _, x => x.canonical = x
  | .literal, n, x => (encodeLiteral x).nesting ≤ n ∧ x.canonical = x
  | .expr, n, e => (encodeExpr e).nesting ≤ n ∧ e.canonical = e
  | .body _, n, e => (encodeExpr e).nesting ≤ n + 1 ∧ e.canonical = e
  | .order, n, entry => (encodeOrderBy entry).nesting ≤ n ∧ entry.canonical = entry
  | .query, n, q => (encodeQuery q).nesting ≤ max 2 n ∧ q.canonical = q
  | .option s, n, x => ∀ y ∈ x, s.Fits n y
  | .list s, n, xs => 1 ≤ n ∧ ∀ x ∈ xs, s.Fits (n - 1) x
  | .pair s, n, p => 1 ≤ n ∧ s.Fits (n - 1) p.1 ∧ s.Fits (n - 1) p.2
  | .any, _, _ | .unit, _, _ | .boolean, _, _ | .string, _, _ | .integer, _, _ | .count, _, _
  | .operator, _, _ | .function, _, _ | .direction, _, _ => True

/-- What a member of a record in an expression holds fits. -/
def ExprMember.Fits (n : Nat) : (i : ExprMember) → i.Content → Prop
  | .left | .right | .arg | .expr | .low | .high => Shape.Fits .expr n
  | .args | .list => Shape.Fits (.list .expr) n
  | .subject | .default => Shape.Fits (.option .expr) n
  | .branches => Shape.Fits (.list (.pair .expr)) n
  | .op | .func | .name | .dataType | .negated => fun _ => True

/-- What a member of a query holds fits. -/
def QueryMember.Fits (n : Nat) : (i : QueryMember) → i.Content → Prop
  | .selects | .wheres | .groupBys | .havings => Shape.Fits (.list .expr) n
  | .orderBys => Shape.Fits (.list .order) n
  | .table | .limit | .offset | .distinct => fun _ => True

section

variable {n : Nat}

end

/-! ## What is put together fits -/

section

variable {n : Nat}

end

/-! ## What is accepted fits -/

section

variable [FloatReader]

section

variable {ι : Type} [Named ι] [DecidableEq ι] {τ : ι → Type} {room n : Nat}

end

section

variable {room n : Nat} {v : Value}

end

end

end SqlSelect.Descriptor
