import SqlSelect.Binary.Shortest

/-!
# JSON numbers

A number that is written with digits only and fits a 64-bit word is an integer;
every other one is a float, and so is `-0`. Which float that is, a `FloatReader`
says. `Number.floatNumeral` is the way a float is written: positional near one,
scientific elsewhere.
-/

set_option autoImplicit false

namespace SqlSelect.Json

/-- How the numeral of a float is read; one that is too large is read as infinite.
The float need not be the nearest one: a reader that takes the digits for a float and
scales it by a power of ten misses that for some numerals. -/
class FloatReader where
  read : Numeral → Binary64

/-- The reader that rounds correctly: it always finds the nearest float, of two the
even one. -/
abbrev FloatReader.nearest : FloatReader where
  read := .ofNumeral .binary64

/-- What a numeral stands for. -/
inductive Number where
  | integer (value : Int)
  | float (value : Binary64)
deriving DecidableEq

namespace Number

/-- The integer that a numeral stands for, if it is one. -/
def integer? (n : Numeral) : Option Int :=
  if !n.isWhole || (n.negative && n.wholeValue = 0) then none
  else
    let value : Int := if n.negative then -n.wholeValue else n.wholeValue
    if Int64.minValue.toInt ≤ value ∧ value < UInt64.size then some value else none

/-- What a numeral stands for. An integer is exact, and a float is what the reader
makes of its numeral, correctly rounded only if the reader rounds so. -/
def ofNumeral [FloatReader] (n : Numeral) : Number :=
  match integer? n with
  | some value => .integer value
  | none => .float (FloatReader.read n)

/-- The float next to the number. -/
def toFloat : Number → Binary64
  | .integer value => .ofDecimal .binary64 (value < 0) ⟨value.natAbs, 0⟩
  | .float value => value

/-- A finite float as it is written: its shortest decimal, positional from the
fifth place after the point up to the sixteenth before it. -/
def floatNumeral (x : Binary64) : Numeral :=
  let d := x.shortest .toEven
  if -5 ≤ d.magnitude && d.magnitude < 16 then d.positional x.negative
  else d.scientific x.negative

end Number

end SqlSelect.Json
