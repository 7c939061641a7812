import SqlSelect.Proofs.Binary.Rounding
import SqlSelect.Proofs.Decimal.Digits

/-!
# The shortest decimal reads back

The shortest decimal of a finite number rounds to the number
(`Binary.readsBack_shortest`): each grid that is tried is left only with a point
that reads back, and the last one has the number itself. Writing a decimal down
keeps its value, so the written number reads back as well
(`Binary.ofNumeral_positional`, `Binary.ofNumeral_scientific`).
-/

set_option autoImplicit false

namespace SqlSelect

namespace Binary

variable {f : Format}

theorem inUnits_eq (x : Binary f) (k : Int) :
    x.inUnits k = (x.scaled.1 * twoPow x.scaled.2.toNat * tenPow (-k).toNat,
      twoPow (-x.scaled.2).toNat * tenPow k.toNat) := rfl

/-- The units of a grid measure the value. -/
theorem value_inUnits (x : Binary f) (k : Int) :
    ((x.inUnits k).1 : ℚ) / (x.inUnits k).2 * 10 ^ k = x.value := by
  have units : (10 : ℚ) ^ (-k).toNat / 10 ^ k.toNat = 10 ^ (-k) := by
    simpa using pow_toNat_div 10 (-k)
  have ten : (10 : ℚ) ^ (-k) * 10 ^ k = 1 := by
    rw [← zpow_add₀ (by norm_num), Int.add_left_neg, zpow_zero]
  rw [inUnits_eq, value_eq_div]
  simp only [Nat.cast_mul]
  rw [mul_div_mul_comm, cast_tenPow, cast_tenPow, units, mul_assoc, ten, mul_one]

/-- The finest grid has the number itself among its points. -/
theorem dvd_inUnits (x : Binary f) :
    (x.inUnits (min 0 x.scaled.2)).2 ∣ (x.inUnits (min 0 x.scaled.2)).1 := by
  rw [inUnits_eq]
  simp only []
  by_cases hq : 0 ≤ x.scaled.2
  · have exponent : (-x.scaled.2).toNat = 0 := by omega
    have grid : min 0 x.scaled.2 = 0 := by omega
    rw [exponent, grid]
    exact one_dvd _
  · have grid : min 0 x.scaled.2 = x.scaled.2 := by omega
    have coarse : x.scaled.2.toNat = 0 := by omega
    have tens : twoPow (-x.scaled.2).toNat ∣ tenPow (-x.scaled.2).toNat := pow_dvd_pow_of_dvd (by decide) _
    have den : twoPow (-x.scaled.2).toNat * tenPow 0 = twoPow (-x.scaled.2).toNat := Nat.mul_one _
    rw [grid, coarse, den]
    exact Dvd.dvd.mul_left tens _

/-- On the finest grid a value is exact, and so reads back. -/
theorem readsBack_finest (hf : 1 < f.exponentBits) {x : Binary f} (h : x.isFinite = true) :
    x.readsBack ⟨(x.inUnits (min 0 x.scaled.2)).1 / (x.inUnits (min 0 x.scaled.2)).2,
      min 0 x.scaled.2⟩ = true := by
  have same : Decimal.value ⟨(x.inUnits (min 0 x.scaled.2)).1 / (x.inUnits (min 0 x.scaled.2)).2,
      min 0 x.scaled.2⟩ = x.value := by
    have positive : ((x.inUnits (min 0 x.scaled.2)).2 : ℚ) ≠ 0 := by
      rw [inUnits_eq]
      exact_mod_cast Nat.ne_of_gt (Nat.mul_pos (twoPow_pos _) (tenPow_pos _))
    rw [Decimal.value, Nat.cast_div x.dvd_inUnits positive]
    exact x.value_inUnits _
  rw [readsBack, roundDecimal_of_value hf h same, beq_self_eq_true]

theorem readsBack_onGrid {tie : Tie} {x : Binary f} {k : Int} {c : Nat}
    (h : x.onGrid? tie k = some c) : x.readsBack ⟨c, k⟩ = true := by
  unfold onGrid? at h
  simp only [] at h
  split at h
  · next below _ =>
    rw [← Option.some.inj h]
    exact below
  · next _ above =>
    rw [← Option.some.inj h]
    exact above
  · next below above =>
    rw [← Option.some.inj h]
    split
    · exact below
    split
    · exact above
    cases tie with
    | away => exact above
    | toEven =>
      simp only [Tie.choose]
      rcases Nat.mod_two_eq_zero_or_one ((x.inUnits k).1 / (x.inUnits k).2) with even | odd
      · rw [even]
        exact below
      · rw [odd]
        exact above
  · cases h

/-- **The search** over grids ends with a decimal that reads back. -/
theorem readsBack_searchGrids (hf : 1 < f.exponentBits) (tie : Tie) {x : Binary f}
    (h : x.isFinite = true) (steps : Nat) :
    x.readsBack (x.searchGrids tie (min 0 x.scaled.2 + steps) steps) = true := by
  induction steps with
  | zero =>
    rw [Nat.cast_zero, Int.add_zero]
    exact readsBack_finest hf h
  | succ steps ih =>
    rw [searchGrids]
    split
    · next c hc => exact readsBack_onGrid hc
    · rwa [Nat.cast_succ, ← Int.add_assoc, Int.add_sub_cancel]

/-- **The shortest decimal** of a finite number rounds to the number. -/
theorem readsBack_shortest (hf : 1 < f.exponentBits) (tie : Tie) {x : Binary f}
    (h : x.isFinite = true) : x.readsBack (x.shortest tie) = true := by
  unfold shortest
  split
  · next zero => simp [readsBack, Format.roundDecimal, zero]
  · have steps := readsBack_searchGrids hf tie h (x.wholePlaces - min 0 x.scaled.2).toNat
    have start : min 0 x.scaled.2 + (((x.wholePlaces - min 0 x.scaled.2).toNat : Nat) : Int) =
        x.wholePlaces := by omega
    rwa [start] at steps

/-- Of the decimals without a digit other than zero, the shortest one is `0`. -/
theorem shortest_of_coefficient (hf : 1 < f.exponentBits) {tie : Tie} {x : Binary f}
    (h : x.isFinite = true) (none : (x.shortest tie).coefficient = 0) : x.shortest tie = ⟨0, 0⟩ := by
  have back := beq_iff_eq.1 (readsBack_shortest hf tie h)
  rw [Format.roundDecimal, if_pos none] at back
  rw [shortest, if_pos back.symm]

end Binary

/-! ## Written numbers -/

namespace Decimal

theorem ofDigitChars_digits (d : Decimal) : Nat.ofDigitChars 10 d.digits 0 = d.coefficient :=
  Nat.ofDigitChars_ten_toDigits

theorem quantity_scientific (negative : Bool) (d : Decimal) :
    (d.scientific negative).quantity = d := by
  have pos := d.length_digits_pos
  have exponent : d.magnitude - (d.digits.drop 1).length = d.exponent := by
    rw [magnitude, List.length_drop]
    omega
  rw [scientific, Numeral.quantity]
  simp only [List.take_append_drop, ofDigitChars_digits, Option.getD_some, exponent]

/-- Places written out denote the same value. -/
theorem value_quantity_positional (negative : Bool) (d : Decimal) :
    (d.positional negative).quantity.value = d.value := by
  unfold positional
  split
  · next h =>
    obtain ⟨n, hn⟩ := Int.eq_ofNat_of_zero_le h
    have zeros : d.digits ++ List.replicate n '0' ++ ['0'] = d.digits ++ List.replicate (n + 1) '0' := by
      rw [List.append_assoc, ← List.replicate_succ']
    simp only [Numeral.quantity, value, hn, Int.toNat_natCast, zeros, Nat.ofDigitChars_append,
      ofDigitChars_digits, Nat.ofDigitChars_replicate_zero, Option.getD_none, List.length_singleton]
    push_cast
    rw [pow_succ, zpow_natCast]
    ring
  · next h =>
    simp only []
    split
    · next places =>
      have exponent : (0 : Int) - (d.digits.drop (d.digits.length - (-d.exponent).toNat)).length =
          d.exponent := by
        rw [List.length_drop]
        omega
      simp only [Numeral.quantity, value, List.take_append_drop, ofDigitChars_digits,
        Option.getD_none, exponent]
    · next places =>
      have zeros : ['0'] ++ (List.replicate ((-d.exponent).toNat - d.digits.length) '0' ++ d.digits) =
          List.replicate ((-d.exponent).toNat - d.digits.length + 1) '0' ++ d.digits := by
        rw [← List.append_assoc, List.replicate_succ, List.singleton_append]
      have exponent : (0 : Int) -
          (List.replicate ((-d.exponent).toNat - d.digits.length) '0' ++ d.digits).length =
          d.exponent := by
        rw [List.length_append, List.length_replicate]
        omega
      simp only [Numeral.quantity, value, zeros, Nat.ofDigitChars_append,
        Nat.ofDigitChars_replicate_zero, Nat.mul_zero, ofDigitChars_digits, Option.getD_none, exponent]

end Decimal

namespace Binary

variable {f : Format}

/-- A numeral with the value of the shortest decimal reads back. -/
theorem ofNumeral_of_value (hf : 1 < f.exponentBits) (tie : Tie) {x : Binary f}
    (h : x.isFinite = true) {n : Numeral} (sign : n.negative = x.negative)
    (value : n.quantity.value = (x.shortest tie).value) : ofNumeral f n = x := by
  have rounded : f.roundDecimal n.quantity = x.magnitude := by
    rw [Format.roundDecimal_congr f value]
    exact beq_iff_eq.1 (readsBack_shortest hf tie h)
  obtain ⟨negative, magnitude, lt⟩ := x
  simp only [ofNumeral, ofDecimal, rounded, sign]

/-- **A finite number written out** reads back as the number. -/
theorem ofNumeral_positional (hf : 1 < f.exponentBits) (tie : Tie) {x : Binary f}
    (h : x.isFinite = true) : ofNumeral f ((x.shortest tie).positional x.negative) = x :=
  ofNumeral_of_value hf tie h (Decimal.negative_positional _ _) (Decimal.value_quantity_positional _ _)

/-- **A finite number in scientific form** reads back as the number. -/
theorem ofNumeral_scientific (hf : 1 < f.exponentBits) (tie : Tie) {x : Binary f}
    (h : x.isFinite = true) : ofNumeral f ((x.shortest tie).scientific x.negative) = x :=
  ofNumeral_of_value hf tie h rfl (by rw [Decimal.quantity_scientific])

end Binary

end SqlSelect
