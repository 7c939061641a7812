import SqlSelect.Decimal

/-!
# Binary floating-point numbers

A `Format` fixes how many bits the fraction and the exponent take. A number of
a format is a sign and a `magnitude`, the word of the other bits: magnitudes
are ordered as the values are, the one after the last finite value is infinity,
and those above it are not numbers. `Format.roundDecimal` gives the magnitude
nearest to a decimal quantity, a half going to the even neighbour.
-/

set_option autoImplicit false

namespace SqlSelect

def twoPow (n : Nat) : Nat := Nat.pow 2 n

def tenPow (n : Nat) : Nat := Nat.pow 10 n

theorem twoPow_pos (n : Nat) : 0 < twoPow n := Nat.two_pow_pos n

theorem twoPow_add (m n : Nat) : twoPow (m + n) = twoPow m * twoPow n := Nat.pow_add 2 m n

/-- How many bits of a word hold the fraction and the exponent. -/
structure Format where
  fractionBits : Nat
  exponentBits : Nat
deriving DecidableEq

namespace Format

def binary64 : Format := ⟨52, 11⟩

def binary32 : Format := ⟨23, 8⟩

/-- The power of two of the last place of the smallest numbers. -/
def minExponent (f : Format) : Int :=
  2 - (twoPow (f.exponentBits - 1) : Int) - f.fractionBits

/-- The number of magnitudes. -/
def magnitudes (f : Format) : Nat :=
  twoPow (f.fractionBits + f.exponentBits)

def infinity (f : Format) : Nat :=
  (twoPow f.exponentBits - 1) * twoPow f.fractionBits

theorem infinity_add (f : Format) : f.infinity + twoPow f.fractionBits = f.magnitudes := by
  have h := twoPow_pos f.exponentBits
  rw [infinity, magnitudes, twoPow_add, Nat.sub_mul, Nat.mul_comm (twoPow f.fractionBits),
    Nat.one_mul]
  exact Nat.sub_add_cancel (Nat.le_mul_of_pos_left _ h)

theorem infinity_lt (f : Format) : f.infinity < f.magnitudes := by
  have h := twoPow_pos f.fractionBits
  have := f.infinity_add
  omega

end Format

/-- The integer nearest to `num / den`; a half goes to the even neighbour. -/
def roundHalfEven (num den : Nat) : Nat :=
  let floor := num / den
  let rest := num % den
  if 2 * rest < den then floor
  else if den < 2 * rest then floor + 1
  else floor + floor % 2

/-- The greatest `l` with `2 ^ l ≤ num / den`, for positive `num` and `den`. -/
def floorLog2 (num den : Nat) : Int :=
  let l : Int := (Nat.log2 num : Int) - Nat.log2 den
  if den * twoPow l.toNat ≤ num * twoPow (-l).toNat then l else l - 1

namespace Format

/-- The magnitude nearest to `num / den`, without regard to the largest finite one. -/
def roundRatio (f : Format) (num den : Nat) : Nat :=
  if num = 0 then 0
  else
    let q := max (floorLog2 num den - f.fractionBits) f.minExponent
    (q - f.minExponent).toNat * twoPow f.fractionBits +
      roundHalfEven (num * twoPow (-q).toNat) (den * twoPow q.toNat)

/-- The magnitude nearest to a decimal quantity. A quantity far outside the
range of the format is recognised by its leading place, before any power of ten
is formed. -/
def roundDecimal (f : Format) (d : Decimal) : Nat :=
  if d.coefficient = 0 then 0
  else if (twoPow (f.exponentBits - 1) : Int) ≤ d.magnitude then f.infinity
  else if d.magnitude + 1 < f.minExponent then 0
  else min f.infinity
    (f.roundRatio (d.coefficient * tenPow d.exponent.toNat) (tenPow (-d.exponent).toNat))

theorem roundDecimal_le (f : Format) (d : Decimal) : f.roundDecimal d ≤ f.infinity := by
  unfold roundDecimal
  split
  · exact Nat.zero_le _
  · split
    · exact Nat.le_refl _
    · split
      · exact Nat.zero_le _
      · exact Nat.min_le_left _ _

end Format

/-- A number of a format: a sign and a magnitude. -/
structure Binary (f : Format) where
  negative : Bool
  magnitude : Nat
  magnitude_lt : magnitude < f.magnitudes
deriving DecidableEq

/-- A number of 64 bits. -/
abbrev Binary64 := Binary .binary64

/-- A number of 32 bits. -/
abbrev Binary32 := Binary .binary32

namespace Binary

variable {f : Format}

/-- The number with the given bits: the sign on top, the magnitude below it. -/
def ofBits (f : Format) (bits : Nat) : Binary f :=
  { negative := bits / f.magnitudes % 2 = 1
    magnitude := bits % f.magnitudes
    magnitude_lt := Nat.mod_lt _ (twoPow_pos _) }

/-- The infinity of the given sign. -/
def infinity (f : Format) (negative : Bool) : Binary f :=
  ⟨negative, f.infinity, f.infinity_lt⟩

/-- The one not-a-number that reading and widening produce. -/
def nan (f : Format) : Binary f :=
  ⟨false, f.infinity + twoPow f.fractionBits / 2, by
    have h := twoPow_pos f.fractionBits
    have := f.infinity_add
    omega⟩

def isNaN (x : Binary f) : Bool := f.infinity < x.magnitude

def isInfinite (x : Binary f) : Bool := x.magnitude = f.infinity

def isFinite (x : Binary f) : Bool := x.magnitude < f.infinity

/-- The number nearest to a signed decimal quantity; infinite beyond the range. -/
def ofDecimal (f : Format) (negative : Bool) (d : Decimal) : Binary f :=
  ⟨negative, f.roundDecimal d, Nat.lt_of_le_of_lt (f.roundDecimal_le d) f.infinity_lt⟩

/-- The number nearest to what a numeral denotes. -/
def ofNumeral (f : Format) (n : Numeral) : Binary f :=
  ofDecimal f n.negative n.quantity

/-- Integers `m` and `q` such that a finite number is `m * 2 ^ q`, sign apart. -/
def scaled (x : Binary f) : Nat × Int :=
  let unit := twoPow f.fractionBits
  let exponent := x.magnitude / unit
  if exponent = 0 then (x.magnitude, f.minExponent)
  else (unit + x.magnitude % unit, f.minExponent + exponent - 1)

/-- Equality of values: a not-a-number equals nothing, and the zeros are equal. -/
def sameValue (x y : Binary f) : Bool :=
  !x.isNaN && !y.isNaN && x.magnitude == y.magnitude &&
    (x.negative == y.negative || x.magnitude == 0)

end Binary

end SqlSelect
