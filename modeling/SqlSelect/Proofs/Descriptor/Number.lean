import SqlSelect.Proofs.Decimal.Digits
import SqlSelect.Proofs.Descriptor.Accepted

/-!
# Decoding of integers

What the decoders of integers accept, as an equivalence: a numeral that is written as an
integer and whose value lies within the bounds (`decodeInt64_number`,
`decodeUInt64_number`). The route by which the number is read plays no part.
-/

set_option autoImplicit false

namespace SqlSelect

namespace Numeral

/-- Written as an integer, and not `-0`. -/
structure IsInteger (n : Numeral) : Prop where
  whole : n.isWhole = true
  nonzero : ¬ (n.negative = true ∧ n.wholeValue = 0)

/-- The sign of an integer is that of its numeral, as there is no `-0`. -/
theorem IsInteger.nonneg_iff {n : Numeral} (h : n.IsInteger) :
    0 ≤ n.integer ↔ n.negative = false := by
  have nonzero := h.nonzero
  unfold integer
  cases hs : n.negative with
  | true =>
    have positive : n.wholeValue ≠ 0 := fun zero => nonzero ⟨hs, zero⟩
    simp only [↓reduceIte, Bool.true_eq_false, iff_false]
    omega
  | false =>
    simp only [Bool.false_eq_true, ↓reduceIte, iff_true]
    omega

theorem isInteger_ofInt (n : Int) : (ofInt n).IsInteger where
  whole := rfl
  nonzero := by
    rintro ⟨negative, zero⟩
    rw [wholeValue_ofInt] at zero
    have below : n < 0 := of_decide_eq_true negative
    omega

end Numeral

namespace Descriptor

open SqlSelect.Json (FloatReader Number)

/-- A number is an integer if it is written as one and fits a word. -/
theorem integer?_eq_some {n : Numeral} {value : Int} : Number.integer? n = some value ↔
    n.IsInteger ∧ (-2 ^ 63 ≤ n.integer ∧ n.integer < 2 ^ 64) ∧ n.integer = value := by
  have least : Int64.minValue.toInt = -2 ^ 63 := by decide
  have size : (UInt64.size : Int) = 2 ^ 64 := by decide
  rw [Number.integer?, least, size]
  split
  · next other =>
    simp only [Bool.or_eq_true, Bool.not_eq_true', Bool.and_eq_true, decide_eq_true_eq] at other
    simp only [reduceCtorEq, false_iff]
    rintro ⟨⟨whole, nonzero⟩, -⟩
    rcases other with fraction | zero
    · rw [whole] at fraction
      cases fraction
    · exact nonzero zero
  · next written =>
    simp only [Bool.or_eq_true, Bool.not_eq_true', Bool.and_eq_true, decide_eq_true_eq, not_or,
      Bool.not_eq_false] at written
    have integer : n.IsInteger := ⟨written.1, written.2⟩
    change (if -2 ^ 63 ≤ n.integer ∧ n.integer < 2 ^ 64 then some n.integer else none) = _ ↔ _
    split
    · next fits =>
      rw [Option.some.injEq]
      exact ⟨fun h => ⟨integer, fits, h⟩, fun h => h.2.2⟩
    · next outside => exact ⟨fun h => (by cases h), fun h => absurd h.2.1 outside⟩

/-- Only what is an integer is read as one. -/
theorem readNumeral_integer [FloatReader] {n : Numeral} {value : Int} :
    readNumeral n = .ok (.integer value) ↔ Number.integer? n = some value := by
  rw [readNumeral, Number.ofNumeral]
  cases Number.integer? n with
  | some m => simp
  | none =>
    simp only [reduceCtorEq, iff_false]
    split <;> simp

/-- An integer is decoded where it is written as one and within the bounds. -/
theorem decodeInteger_number [FloatReader] {n : Numeral} {low high value : Int} {expected : String}
    (least : -2 ^ 63 ≤ low) (most : high < 2 ^ 64) :
    decodeInteger low high expected (.number n) = .ok value ↔
      n.IsInteger ∧ (low ≤ n.integer ∧ n.integer ≤ high) ∧ n.integer = value := by
  simp only [decodeInteger, bind_eq_ok]
  constructor
  · rintro ⟨number, read, h⟩
    cases number with
    | float x => cases h
    | integer m =>
      obtain ⟨integer, -, rfl⟩ := integer?_eq_some.1 (readNumeral_integer.1 read)
      change (if low ≤ n.integer ∧ n.integer ≤ high then Except.ok n.integer else _) = _ at h
      split at h
      · next fits => exact ⟨integer, fits, Except.ok.inj h⟩
      · cases h
  · rintro ⟨integer, fits, rfl⟩
    have found : Number.integer? n = some n.integer :=
      integer?_eq_some.2 ⟨integer, ⟨by omega, by omega⟩, rfl⟩
    exact ⟨.integer n.integer, readNumeral_integer.2 found, if_pos fits⟩

/-- A literal is written as an integer and fits a signed word. -/
theorem decodeInt64_number [FloatReader] {n : Numeral} {value : Int64} :
    decodeInt64 (.number n) = .ok value ↔
      n.IsInteger ∧ (-2 ^ 63 ≤ n.integer ∧ n.integer < 2 ^ 63) ∧ Int64.ofInt n.integer = value := by
  have least : Int64.minValue.toInt = -2 ^ 63 := by decide
  have most : Int64.maxValue.toInt = 2 ^ 63 - 1 := by decide
  rw [decodeInt64, map_eq_ok, least, most]
  simp only [decodeInteger_number (le_refl _) (by decide : (2 ^ 63 - 1 : Int) < 2 ^ 64), Int.le_sub_one_iff]
  constructor
  · rintro ⟨_, ⟨integer, fits, rfl⟩, rfl⟩
    exact ⟨integer, fits, rfl⟩
  · rintro ⟨integer, fits, rfl⟩
    exact ⟨_, ⟨integer, fits, rfl⟩, rfl⟩

/-- A count is written with digits only. -/
theorem decodeUInt64_number [FloatReader] {n : Numeral} {value : UInt64} :
    decodeUInt64 (.number n) = .ok value ↔
      n.isWhole = true ∧ n.negative = false ∧ n.integer < 2 ^ 64 ∧
        UInt64.ofNat n.integer.toNat = value := by
  have size : (UInt64.size : Int) - 1 = 2 ^ 64 - 1 := by decide
  rw [decodeUInt64, map_eq_ok, size]
  simp only [decodeInteger_number (by decide : -2 ^ 63 ≤ (0 : Int)) (by decide : (2 ^ 64 - 1 : Int) < 2 ^ 64),
    Int.le_sub_one_iff]
  constructor
  · rintro ⟨_, ⟨integer, ⟨low, high⟩, rfl⟩, rfl⟩
    exact ⟨integer.whole, integer.nonneg_iff.1 low, high, rfl⟩
  · rintro ⟨whole, positive, high, rfl⟩
    have integer : n.IsInteger := ⟨whole, by simp [positive]⟩
    exact ⟨_, ⟨integer, ⟨integer.nonneg_iff.2 positive, high⟩, rfl⟩, rfl⟩

end Descriptor

end SqlSelect
