import SqlSelect.Binary.Format

/-!
# The shortest decimal of a binary number

The points of the grid of unit `10 ^ k` are the multiples of that power. A grid
suits a number if one of its points rounds to the number. `Binary.shortest` is
the point of the coarsest grid that suits, and of two such points the nearer
one; `Tie` says which one is taken when they are equally near.
-/

set_option autoImplicit false

namespace SqlSelect

/-- Which of two equally near neighbours is taken. -/
inductive Tie where
  | toEven
  | away
deriving DecidableEq

/-- The choice between `c` and `c + 1`, for a value halfway between them. -/
def Tie.choose : Tie → Nat → Nat
  | .toEven, c => c + c % 2
  | .away, c => c + 1

namespace Binary

variable {f : Format}

/-- A finite number in units of `10 ^ k`, as a fraction of two integers. -/
def inUnits (x : Binary f) (k : Int) : Nat × Nat :=
  let (m, q) := x.scaled
  (m * twoPow q.toNat * tenPow (-k).toNat, twoPow (-q).toNat * tenPow k.toNat)

/-- A decimal reads back as a number if it rounds to it. -/
def readsBack (x : Binary f) (d : Decimal) : Bool :=
  f.roundDecimal d == x.magnitude

/-- The point of the grid of unit `10 ^ k` that stands for the number, if the grid suits. -/
def onGrid? (tie : Tie) (x : Binary f) (k : Int) : Option Nat :=
  let (num, den) := x.inUnits k
  let below := num / den
  let rest := num % den
  match x.readsBack ⟨below, k⟩, x.readsBack ⟨below + 1, k⟩ with
  | true, false => some below
  | false, true => some (below + 1)
  | true, true =>
    some (if 2 * rest < den then below
      else if den < 2 * rest then below + 1
      else tie.choose below)
  | false, false => none

/-- Tries `steps` grids, each finer than the one before. The last has the number itself. -/
def searchGrids (tie : Tie) (x : Binary f) (k : Int) : Nat → Decimal
  | 0 => let (num, den) := x.inUnits k; ⟨num / den, k⟩
  | steps + 1 =>
    match x.onGrid? tie k with
    | some c => ⟨c, k⟩
    | none => x.searchGrids tie (k - 1) steps

/-- The number of digits before the point of a finite number. -/
def wholePlaces (x : Binary f) : Nat :=
  let (num, den) := x.inUnits 0
  (Nat.toDigits 10 (num / den)).length

/-- The decimal with the fewest digits that reads back as a finite number, and
of those the nearest one. -/
def shortest (tie : Tie) (x : Binary f) : Decimal :=
  if x.magnitude = 0 then ⟨0, 0⟩
  else
    let finest := min 0 x.scaled.2
    x.searchGrids tie x.wholePlaces (x.wholePlaces - finest).toNat

end Binary

end SqlSelect
