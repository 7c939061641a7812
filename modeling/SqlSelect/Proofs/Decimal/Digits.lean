import Mathlib
import SqlSelect.Decimal

/-!
# The digits of written numbers

A numeral is `Readable` if it has digits where digits belong and at least one of
them before the point. The numerals of integers are, and so are the two ways to
write a decimal down, whatever the decimal.
-/

set_option autoImplicit false

namespace SqlSelect

theorem isDigit_toDigits {n : Nat} : ∀ c ∈ Nat.toDigits 10 n, c.isDigit = true :=
  fun _ hc => Nat.isDigit_of_mem_toDigits (by decide) (by decide) hc

/-- Digits end where something else begins. -/
theorem takeWhile_digits {ds : List Char} (tail : List Char) (h : ∀ c ∈ ds, c.isDigit = true)
    (ht : ∀ c ∈ tail.head?, c.isDigit = false) :
    (ds ++ tail).takeWhile Char.isDigit = ds ∧ (ds ++ tail).dropWhile Char.isDigit = tail := by
  have ends : tail.takeWhile Char.isDigit = [] ∧ tail.dropWhile Char.isDigit = tail := by
    cases tail <;> simp_all
  rw [List.takeWhile_append_of_pos h, List.dropWhile_append_of_pos h, ends.1, ends.2, List.append_nil]
  exact ⟨rfl, rfl⟩

namespace Numeral

/-- There are digits where digits belong, and at least one before the point. -/
structure Readable (n : Numeral) : Prop where
  whole_ne_nil : n.whole ≠ []
  whole : ∀ c ∈ n.whole, c.isDigit = true
  fraction : ∀ c ∈ n.fraction, c.isDigit = true

/-- An integer is written with its digits and, below zero, a sign. -/
theorem text_ofInt (n : Int) :
    (ofInt n).text = (if n < 0 then "-" else "") ++ String.ofList (Nat.toDigits 10 n.natAbs) := by
  simp [text, ofInt]

theorem readable_ofInt (n : Int) : (ofInt n).Readable where
  whole_ne_nil := Nat.toDigits_ne_nil
  whole := isDigit_toDigits
  fraction := by simp [ofInt]

/-- The integer that the sign and the digits before the point denote. -/
def integer (n : Numeral) : Int :=
  if n.negative then -(n.wholeValue : Int) else n.wholeValue

@[simp] theorem wholeValue_ofInt (n : Int) : (ofInt n).wholeValue = n.natAbs :=
  Nat.ofDigitChars_ten_toDigits

@[simp] theorem integer_ofInt (n : Int) : (ofInt n).integer = n := by
  rw [integer, wholeValue_ofInt]
  simp only [ofInt, decide_eq_true_eq]
  split <;> omega

end Numeral

namespace Decimal

theorem length_digits_pos (d : Decimal) : 0 < d.digits.length :=
  Nat.length_toDigits_pos

theorem isDigit_digits (d : Decimal) : ∀ c ∈ d.digits, c.isDigit = true :=
  isDigit_toDigits

theorem isDigit_replicate (n : Nat) : ∀ c ∈ List.replicate n '0', c.isDigit = true := by
  intro c hc
  rw [(List.mem_replicate.1 hc).2]
  decide

/-- A decimal written out has digits where they belong. -/
theorem readable_positional (negative : Bool) (d : Decimal) :
    (d.positional negative).Readable := by
  have pos := d.length_digits_pos
  have digits := d.isDigit_digits
  unfold positional
  split
  · refine ⟨?_, List.forall_mem_append.2 ⟨digits, isDigit_replicate _⟩, by simp⟩
    simp only [ne_eq, List.append_eq_nil_iff, not_and]
    intro h
    rw [h] at pos
    simp at pos
  · simp only []
    split
    · next h =>
      refine ⟨?_, fun c hc => digits c (List.mem_of_mem_take hc),
        fun c hc => digits c (List.mem_of_mem_drop hc)⟩
      rw [← List.length_pos_iff, List.length_take]
      omega
    · exact ⟨by simp, by simp, List.forall_mem_append.2 ⟨isDigit_replicate _, digits⟩⟩

/-- A decimal written out has a point. -/
theorem fraction_positional (negative : Bool) (d : Decimal) :
    (d.positional negative).fraction ≠ [] := by
  have pos := d.length_digits_pos
  unfold positional
  split
  · simp
  · simp only []
    split
    · rw [← List.length_pos_iff, List.length_drop]
      omega
    · simp only [ne_eq, List.append_eq_nil_iff, not_and]
      intro _ h
      rw [h] at pos
      simp at pos

theorem exponent_positional (negative : Bool) (d : Decimal) :
    (d.positional negative).exponent = none := by
  unfold positional
  split
  · rfl
  · simp only []
    split <;> rfl

theorem negative_positional (negative : Bool) (d : Decimal) :
    (d.positional negative).negative = negative := by
  unfold positional
  split
  · rfl
  · simp only []
    split <;> rfl

/-- A decimal in scientific form has digits where they belong. -/
theorem readable_scientific (negative : Bool) (d : Decimal) :
    (d.scientific negative).Readable where
  whole_ne_nil := by
    have pos := d.length_digits_pos
    rw [← List.length_pos_iff, scientific, List.length_take]
    omega
  whole := fun c hc => d.isDigit_digits c (List.mem_of_mem_take hc)
  fraction := fun c hc => d.isDigit_digits c (List.mem_of_mem_drop hc)

end Decimal

end SqlSelect
