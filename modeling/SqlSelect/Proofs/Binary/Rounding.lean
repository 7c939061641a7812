import Mathlib
import SqlSelect.Binary.Shortest

/-!
# Rounding to a format

`Format.roundDecimal` depends on the value of a decimal alone
(`Format.roundDecimal_congr`), and a decimal that has the value of a finite
number rounds to that number (`Binary.roundDecimal_of_value`).
-/

set_option autoImplicit false

namespace SqlSelect

/-! ## Values -/

def Decimal.value (d : Decimal) : ℚ := d.coefficient * (10 : ℚ) ^ d.exponent

/-- The value of a finite number, without its sign. -/
def Binary.value {f : Format} (x : Binary f) : ℚ := x.scaled.1 * (2 : ℚ) ^ x.scaled.2

theorem cast_twoPow (n : Nat) : (twoPow n : ℚ) = 2 ^ n := by
  rw [twoPow]
  exact Nat.cast_pow 2 n

theorem cast_tenPow (n : Nat) : (tenPow n : ℚ) = 10 ^ n := by
  rw [tenPow]
  exact Nat.cast_pow 10 n

theorem tenPow_pos (n : Nat) : 0 < tenPow n := Nat.pow_pos (by decide)

/-- A power is the quotient of its part above the line and its part below it. -/
theorem pow_toNat_div (b : ℚ) (e : Int) :
    b ^ e.toNat / b ^ (-e).toNat = b ^ e := by
  obtain ⟨n, rfl | rfl⟩ := e.eq_nat_or_neg <;> simp

theorem ten_zpow_le_two_zpow {e : Int} (h : e ≤ 0) : (10 : ℚ) ^ e ≤ 2 ^ e := by
  obtain ⟨n, rfl⟩ := Int.exists_eq_neg_ofNat h
  rw [zpow_neg, zpow_neg, zpow_natCast, zpow_natCast]
  exact inv_anti₀ (by positivity) (pow_le_pow_left₀ (by norm_num) (by norm_num) _)

theorem Decimal.value_eq_div (d : Decimal) :
    d.value = (d.coefficient * tenPow d.exponent.toNat : Nat) / (tenPow (-d.exponent).toNat : Nat) := by
  rw [Nat.cast_mul, cast_tenPow, cast_tenPow, mul_div_assoc, pow_toNat_div]
  rfl

theorem Decimal.value_eq_zero {d : Decimal} : d.value = 0 ↔ d.coefficient = 0 := by
  have h : (10 : ℚ) ^ d.exponent ≠ 0 := zpow_ne_zero _ (by norm_num)
  simp [Decimal.value, h]

theorem Decimal.value_pos {d : Decimal} (h : d.coefficient ≠ 0) : 0 < d.value :=
  mul_pos (by exact_mod_cast Nat.pos_of_ne_zero h) (zpow_pos (by norm_num) _)

theorem Decimal.eq_of_value {d d' : Decimal} (value : d.value = d'.value)
    (exponent : d.exponent = d'.exponent) : d = d' := by
  obtain ⟨c, e⟩ := d
  obtain ⟨c', e'⟩ := d'
  subst exponent
  have unit : (10 : ℚ) ^ e ≠ 0 := zpow_ne_zero _ (by norm_num)
  have same : c = c' := by exact_mod_cast mul_right_cancel₀ unit value
  rw [same]

/-! ## The leading place -/

/-- A logarithm is told by the powers that a value lies between. -/
theorem log_eq_of_between {b : Nat} (hb : 1 < b) {v : ℚ} {l : Int} (hl : (b : ℚ) ^ l ≤ v)
    (hv : v < (b : ℚ) ^ (l + 1)) : Int.log b v = l := by
  have pos : 0 < v := lt_of_lt_of_le (zpow_pos (by exact_mod_cast Nat.zero_lt_of_lt hb) l) hl
  have low := (Int.zpow_le_iff_le_log hb pos).1 hl
  have high := (Int.lt_zpow_iff_log_lt hb pos).1 hv
  omega

/-- `floorLog2` is the logarithm of the quotient. -/
theorem floorLog2_eq_log {num den : Nat} (hn : 0 < num) (hd : 0 < den) :
    floorLog2 num den = Int.log 2 (num / den : ℚ) := by
  have numLow : (2 : ℚ) ^ (num.log2 : Int) ≤ num := by
    rw [zpow_natCast]
    exact_mod_cast Nat.log2_self_le (Nat.ne_of_gt hn)
  have numHigh : (num : ℚ) < 2 ^ ((num.log2 : Int) + 1) := by
    rw [← Nat.cast_succ, zpow_natCast]
    exact_mod_cast Nat.lt_log2_self
  have denLow : (2 : ℚ) ^ (den.log2 : Int) ≤ den := by
    rw [zpow_natCast]
    exact_mod_cast Nat.log2_self_le (Nat.ne_of_gt hd)
  have denHigh : (den : ℚ) < 2 ^ ((den.log2 : Int) + 1) := by
    rw [← Nat.cast_succ, zpow_natCast]
    exact_mod_cast Nat.lt_log2_self
  have denPos : (0 : ℚ) < den := by exact_mod_cast hd
  have power (a : Int) : (0 : ℚ) < 2 ^ a := zpow_pos (by norm_num) a
  generalize hl : (num.log2 : Int) - den.log2 = l
  -- The comparison in `floorLog2` decides on which side of `2 ^ l` the quotient lies.
  have test : den * twoPow l.toNat ≤ num * twoPow (-l).toNat ↔ (2 : ℚ) ^ l ≤ num / den := by
    rw [le_div_iff₀ denPos, ← pow_toNat_div 2 l, div_mul_eq_mul_div,
      div_le_iff₀ (by positivity), mul_comm]
    rw [← cast_twoPow, ← cast_twoPow]
    exact_mod_cast Iff.rfl
  have high : (num : ℚ) / den < 2 ^ (l + 1) := by
    rw [div_lt_iff₀ denPos]
    calc (num : ℚ) < 2 ^ ((num.log2 : Int) + 1) := numHigh
      _ = 2 ^ (l + 1) * 2 ^ (den.log2 : Int) := by
        rw [← zpow_add₀ (by norm_num)]
        congr 1
        omega
      _ ≤ 2 ^ (l + 1) * den := mul_le_mul_of_nonneg_left denLow (power _).le
  have low : (2 : ℚ) ^ (l - 1) ≤ num / den := by
    rw [le_div_iff₀ denPos]
    calc (2 : ℚ) ^ (l - 1) * den ≤ 2 ^ (l - 1) * 2 ^ ((den.log2 : Int) + 1) :=
        mul_le_mul_of_nonneg_left denHigh.le (power _).le
      _ = 2 ^ (num.log2 : Int) := by
        rw [← zpow_add₀ (by norm_num)]
        congr 1
        omega
      _ ≤ num := numLow
  unfold floorLog2
  simp only [hl]
  split
  · next h => exact (log_eq_of_between (by decide) (test.1 h) high).symm
  · next h =>
    have below : (num : ℚ) / den < 2 ^ (l - 1 + 1) := by
      rw [sub_add_cancel]
      exact lt_of_not_ge fun h' => h (test.2 h')
    exact (log_eq_of_between (by decide) low below).symm

/-! ## Rounding depends on the value alone -/

theorem roundHalfEven_mul_left {k : Nat} (hk : 0 < k) (num den : Nat) :
    roundHalfEven (k * num) (k * den) = roundHalfEven num den := by
  have rest : ∀ a b : Nat, 2 * (k * a) < k * b ↔ 2 * a < b := by
    intro a b
    rw [Nat.mul_left_comm]
    exact Nat.mul_lt_mul_left hk
  have rest' : ∀ a b : Nat, k * b < 2 * (k * a) ↔ b < 2 * a := by
    intro a b
    rw [Nat.mul_left_comm 2 k]
    exact Nat.mul_lt_mul_left hk
  simp only [roundHalfEven, Nat.mul_div_mul_left _ _ hk, Nat.mul_mod_mul_left, rest, rest']

/-- Rounding depends on the quotient alone. -/
theorem roundHalfEven_congr {num den num' den' : Nat} (hd : 0 < den) (hd' : 0 < den')
    (h : num * den' = num' * den) : roundHalfEven num den = roundHalfEven num' den' := by
  rw [← roundHalfEven_mul_left hd' num den, ← roundHalfEven_mul_left hd num' den', Nat.mul_comm,
    h, Nat.mul_comm den num', Nat.mul_comm den' den]

/-- A quotient that is whole is its own rounding. -/
theorem roundHalfEven_of_dvd {den : Nat} (hd : 0 < den) (m : Nat) :
    roundHalfEven (m * den) den = m := by
  simp [roundHalfEven, Nat.mul_div_cancel m hd, hd]

namespace Format

/-- Rounding to a format depends on the quotient alone. -/
theorem roundRatio_congr (f : Format) {num den num' den' : Nat} (hd : 0 < den) (hd' : 0 < den')
    (h : num * den' = num' * den) : f.roundRatio num den = f.roundRatio num' den' := by
  have zero : num = 0 ↔ num' = 0 := by
    constructor
    · rintro rfl
      simpa [Nat.ne_of_gt hd] using h.symm
    · rintro rfl
      simpa [Nat.ne_of_gt hd'] using h
  by_cases hn : num = 0
  · rw [hn, zero.1 hn]
    rfl
  · have hn' : num' ≠ 0 := fun e => hn (zero.2 e)
    have ratio : (num / den : ℚ) = num' / den' := by
      rw [div_eq_div_iff (by exact_mod_cast Nat.ne_of_gt hd) (by exact_mod_cast Nat.ne_of_gt hd')]
      exact_mod_cast h
    have place : floorLog2 num den = floorLog2 num' den' := by
      rw [floorLog2_eq_log (Nat.pos_of_ne_zero hn) hd, floorLog2_eq_log (Nat.pos_of_ne_zero hn') hd',
        ratio]
    simp only [roundRatio, hn, hn', ↓reduceIte, place]
    congr 1
    apply roundHalfEven_congr (Nat.mul_pos hd (twoPow_pos _)) (Nat.mul_pos hd' (twoPow_pos _))
    rw [Nat.mul_mul_mul_comm, h, Nat.mul_mul_mul_comm]

end Format

/-- The leading place of a decimal is the logarithm of its value. -/
theorem Decimal.magnitude_eq_log {d : Decimal} (h : d.coefficient ≠ 0) :
    d.magnitude = Int.log 10 d.value := by
  have digits : d.digits.length = Nat.log 10 d.coefficient + 1 := by
    have low : d.digits.length ≤ Nat.log 10 d.coefficient + 1 :=
      (Nat.length_toDigits_le_iff (by decide) (by omega)).2 (Nat.lt_pow_succ_log_self (by decide) _)
    have high : ¬ d.digits.length ≤ Nat.log 10 d.coefficient := by
      intro hle
      cases hl : Nat.log 10 d.coefficient with
      | zero =>
        rw [hl] at hle
        exact absurd (Nat.length_toDigits_pos (b := 10) (n := d.coefficient)) (by
          rw [show (Nat.toDigits 10 d.coefficient).length = d.digits.length from rfl]; omega)
      | succ k =>
        have below := (Nat.length_toDigits_le_iff (by decide) (by omega)).1 hle
        exact absurd (Nat.pow_log_le_self 10 h) (Nat.not_le.2 below)
    omega
  have place : (Nat.log 10 d.coefficient : Int) = Int.log 10 (d.coefficient : ℚ) :=
    (Int.log_natCast 10 d.coefficient).symm
  have pos : (0 : ℚ) < d.coefficient := by exact_mod_cast Nat.pos_of_ne_zero h
  symm
  rw [Decimal.magnitude, digits]
  refine log_eq_of_between (by decide) ?_ ?_
  · calc ((10 : Nat) : ℚ) ^ (d.exponent + (Nat.log 10 d.coefficient + 1 : Nat) - 1)
        = 10 ^ Int.log 10 (d.coefficient : ℚ) * 10 ^ d.exponent := by
          rw [← zpow_add₀ (by norm_num), ← place]
          push_cast
          congr 1
          omega
      _ ≤ d.coefficient * 10 ^ d.exponent :=
          mul_le_mul_of_nonneg_right (Int.zpow_log_le_self (by decide) pos) (zpow_pos (by norm_num) _).le
  · calc d.coefficient * (10 : ℚ) ^ d.exponent
        < 10 ^ (Int.log 10 (d.coefficient : ℚ) + 1) * 10 ^ d.exponent :=
          mul_lt_mul_of_pos_right (Int.lt_zpow_succ_log_self (by decide) _) (zpow_pos (by norm_num) _)
      _ = ((10 : Nat) : ℚ) ^ (d.exponent + (Nat.log 10 d.coefficient + 1 : Nat) - 1 + 1) := by
          rw [← zpow_add₀ (by norm_num), ← place]
          push_cast
          congr 1
          omega

namespace Format

/-- **Rounding depends on the value** of a decimal alone. -/
theorem roundDecimal_congr (f : Format) {d d' : Decimal} (h : d.value = d'.value) :
    f.roundDecimal d = f.roundDecimal d' := by
  by_cases hc : d.coefficient = 0
  · have hc' : d'.coefficient = 0 := by rw [← Decimal.value_eq_zero, ← h, Decimal.value_eq_zero, hc]
    rw [roundDecimal, roundDecimal, if_pos hc, if_pos hc']
  · have hc' : d'.coefficient ≠ 0 := by rwa [ne_eq, ← Decimal.value_eq_zero, ← h, Decimal.value_eq_zero]
    have place : d.magnitude = d'.magnitude := by
      rw [Decimal.magnitude_eq_log hc, Decimal.magnitude_eq_log hc', h]
    have cross : d.coefficient * tenPow d.exponent.toNat * tenPow (-d'.exponent).toNat =
        d'.coefficient * tenPow d'.exponent.toNat * tenPow (-d.exponent).toNat := by
      rw [Decimal.value_eq_div, Decimal.value_eq_div, div_eq_div_iff
        (by exact_mod_cast Nat.ne_of_gt (tenPow_pos _)) (by exact_mod_cast Nat.ne_of_gt (tenPow_pos _))] at h
      exact_mod_cast h
    have ratio := roundRatio_congr f (tenPow_pos _) (tenPow_pos _) cross
    simp only [roundDecimal, hc, hc', ↓reduceIte, place, ratio]

end Format

/-! ## A number rounds to itself -/

namespace Binary

variable {f : Format}

theorem value_eq_div (x : Binary f) :
    x.value = (x.scaled.1 * twoPow x.scaled.2.toNat : Nat) / (twoPow (-x.scaled.2).toNat : Nat) := by
  rw [Nat.cast_mul, cast_twoPow, cast_twoPow, mul_div_assoc, pow_toNat_div]
  rfl

/-- What `scaled` gives: an integer that fills the fraction, unless the exponent
is the smallest, and both together are the magnitude. -/
theorem scaled_spec (x : Binary f) :
    x.scaled.1 < 2 * twoPow f.fractionBits ∧ f.minExponent ≤ x.scaled.2 ∧
      (x.scaled.2 = f.minExponent ∨ twoPow f.fractionBits ≤ x.scaled.1) ∧
      (x.scaled.2 - f.minExponent).toNat * twoPow f.fractionBits + x.scaled.1 = x.magnitude := by
  have pos := twoPow_pos f.fractionBits
  have split := Nat.div_add_mod x.magnitude (twoPow f.fractionBits)
  have below := Nat.mod_lt x.magnitude pos
  unfold scaled
  simp only []
  split
  · next h =>
    rw [h, Nat.mul_zero, Nat.zero_add] at split
    refine ⟨by omega, le_refl _, .inl rfl, by simp⟩
  · next h =>
    obtain ⟨e, he⟩ := Nat.exists_eq_succ_of_ne_zero h
    rw [he, Nat.mul_succ] at split
    refine ⟨by omega, by omega, .inr (by omega), ?_⟩
    have exponent : (f.minExponent + ((e.succ : Nat) : Int) - 1 - f.minExponent).toNat = e := by omega
    rw [he, exponent, Nat.mul_comm]
    omega

theorem twoPow_exponentBits (hf : 1 < f.exponentBits) :
    twoPow f.exponentBits = 2 * twoPow (f.exponentBits - 1) := by
  rw [show f.exponentBits = 1 + (f.exponentBits - 1) by omega, twoPow_add]
  simp [twoPow]

theorem two_le_twoPow (hf : 1 < f.exponentBits) : 2 ≤ twoPow (f.exponentBits - 1) := by
  rw [show f.exponentBits - 1 = 1 + (f.exponentBits - 2) by omega, twoPow_add]
  exact Nat.le_mul_of_pos_right 2 (twoPow_pos _)

/-- The leading place of a finite number is below the limit of the format. -/
theorem scaled_lt_of_isFinite (hf : 1 < f.exponentBits) {x : Binary f} (h : x.isFinite = true) :
    x.scaled.2 + f.fractionBits + 1 ≤ twoPow (f.exponentBits - 1) := by
  have finite : x.magnitude < (twoPow f.exponentBits - 1) * twoPow f.fractionBits :=
    of_decide_eq_true h
  have exponent : x.magnitude / twoPow f.fractionBits < twoPow f.exponentBits - 1 :=
    (Nat.div_lt_iff_lt_mul (twoPow_pos _)).2 finite
  have double := twoPow_exponentBits hf
  have two := two_le_twoPow hf
  unfold scaled
  simp only [Format.minExponent]
  split
  · simp only []
    omega
  · simp only []
    omega

/-- A value lies below the power of two above its figures. -/
theorem value_lt (x : Binary f) : x.value < 2 ^ (f.fractionBits + 1 + x.scaled.2) := by
  obtain ⟨lt, -, -, -⟩ := x.scaled_spec
  have bound : (x.scaled.1 : ℚ) < 2 ^ ((f.fractionBits : Int) + 1) := by
    rw [← Nat.cast_succ, zpow_natCast, pow_succ', ← cast_twoPow]
    exact_mod_cast lt
  rw [value, zpow_add₀ (by norm_num)]
  exact mul_lt_mul_of_pos_right bound (zpow_pos (by norm_num) _)

theorem scaled_pos {x : Binary f} (h : x.magnitude ≠ 0) : 0 < x.scaled.1 := by
  obtain ⟨-, -, least, whole⟩ := x.scaled_spec
  refine Nat.pos_of_ne_zero fun zero => h ?_
  have pos := twoPow_pos f.fractionBits
  have exponent : x.scaled.2 = f.minExponent := least.resolve_right (by omega)
  rw [← whole, zero, exponent]
  simp

theorem value_pos {x : Binary f} (h : x.magnitude ≠ 0) : 0 < x.value :=
  mul_pos (by exact_mod_cast scaled_pos h) (zpow_pos (by norm_num) _)

/-- The fraction that is a number rounds to the number. -/
theorem roundRatio_scaled {x : Binary f} (h : x.magnitude ≠ 0) :
    f.roundRatio (x.scaled.1 * twoPow x.scaled.2.toNat) (twoPow (-x.scaled.2).toNat) = x.magnitude := by
  obtain ⟨-, above, least, whole⟩ := x.scaled_spec
  have pos := scaled_pos h
  have num : 0 < x.scaled.1 * twoPow x.scaled.2.toNat := Nat.mul_pos pos (twoPow_pos _)
  have positive := value_pos h
  have place := floorLog2_eq_log num (twoPow_pos (-x.scaled.2).toNat)
  rw [← value_eq_div] at place
  have high : Int.log 2 x.value < f.fractionBits + 1 + x.scaled.2 :=
    (Int.lt_zpow_iff_log_lt (by decide) positive).1 (by exact_mod_cast x.value_lt)
  have exponent : max (Int.log 2 x.value - f.fractionBits) f.minExponent = x.scaled.2 := by
    rcases least with least | least
    · omega
    · have low : (f.fractionBits : Int) + x.scaled.2 ≤ Int.log 2 x.value := by
        apply (Int.zpow_le_iff_le_log (by decide) positive).1
        rw [Nat.cast_ofNat, zpow_add₀ (by norm_num), value, zpow_natCast, ← cast_twoPow]
        exact mul_le_mul_of_nonneg_right (by exact_mod_cast least) (zpow_pos (by norm_num) _).le
      omega
  have integer : roundHalfEven (x.scaled.1 * twoPow x.scaled.2.toNat * twoPow (-x.scaled.2).toNat)
      (twoPow (-x.scaled.2).toNat * twoPow x.scaled.2.toNat) = x.scaled.1 := by
    rw [Nat.mul_assoc, Nat.mul_comm (twoPow x.scaled.2.toNat)]
    exact roundHalfEven_of_dvd (Nat.mul_pos (twoPow_pos _) (twoPow_pos _)) _
  rw [Format.roundRatio, if_neg (Nat.ne_of_gt num), place]
  simp only [exponent, integer, whole]

/-- No finite number is as large as the powers of ten that count as infinite. -/
theorem log_value_lt (hf : 1 < f.exponentBits) {x : Binary f} (h : x.isFinite = true)
    (hm : x.magnitude ≠ 0) : Int.log 10 x.value < twoPow (f.exponentBits - 1) := by
  have limit := scaled_lt_of_isFinite hf h
  by_contra large
  have low := (Int.zpow_le_iff_le_log (b := 10) (by decide) (value_pos hm)).2 (not_lt.1 large)
  have high : x.value < 2 ^ (twoPow (f.exponentBits - 1) : Int) :=
    lt_of_lt_of_le x.value_lt (zpow_le_zpow_right₀ (by norm_num) (by omega))
  have tens : (2 : ℚ) ^ (twoPow (f.exponentBits - 1) : Int) ≤ 10 ^ (twoPow (f.exponentBits - 1) : Int) := by
    rw [zpow_natCast, zpow_natCast]
    exact pow_le_pow_left₀ (by norm_num) (by norm_num) _
  exact absurd (le_trans tens (by exact_mod_cast low)) (not_le.2 high)

/-- No number but zero is as small as the powers of ten that count as zero. -/
theorem le_log_value (hf : 1 < f.exponentBits) {x : Binary f} (hm : x.magnitude ≠ 0) :
    f.minExponent ≤ Int.log 10 x.value + 1 := by
  obtain ⟨-, above, -, -⟩ := x.scaled_spec
  by_contra small
  have least : f.minExponent ≤ 0 := by
    have two := two_le_twoPow hf
    simp only [Format.minExponent]
    omega
  have high := Int.lt_zpow_succ_log_self (b := 10) (by decide) x.value
  generalize Int.log 10 x.value + 1 = place at small high
  have tens := ten_zpow_le_two_zpow (show place ≤ 0 by omega)
  have one : (1 : ℚ) ≤ x.scaled.1 := by exact_mod_cast scaled_pos hm
  have low : (2 : ℚ) ^ place ≤ x.value := by
    calc (2 : ℚ) ^ place ≤ 2 ^ x.scaled.2 := zpow_le_zpow_right₀ (by norm_num) (by omega)
      _ ≤ x.scaled.1 * 2 ^ x.scaled.2 := le_mul_of_one_le_left (zpow_pos (by norm_num) _).le one
  exact absurd (le_trans tens low) (not_le.2 (by exact_mod_cast high))

/-- **A decimal that has the value** of a finite number rounds to the number. -/
theorem roundDecimal_of_value (hf : 1 < f.exponentBits) {x : Binary f} (h : x.isFinite = true)
    {d : Decimal} (hd : d.value = x.value) : f.roundDecimal d = x.magnitude := by
  by_cases hm : x.magnitude = 0
  · have zero : x.scaled.1 = 0 := by
      obtain ⟨-, -, -, whole⟩ := x.scaled_spec
      omega
    have none : d.coefficient = 0 := by
      rw [← Decimal.value_eq_zero, hd, value, zero]
      simp
    rw [Format.roundDecimal, if_pos none, hm]
  · have some : d.coefficient ≠ 0 := by
      rw [ne_eq, ← Decimal.value_eq_zero, hd]
      exact (value_pos hm).ne'
    have place := Decimal.magnitude_eq_log some
    rw [hd] at place
    have large := log_value_lt hf h hm
    have small := le_log_value hf hm
    have cross : d.coefficient * tenPow d.exponent.toNat * twoPow (-x.scaled.2).toNat =
        x.scaled.1 * twoPow x.scaled.2.toNat * tenPow (-d.exponent).toNat := by
      rw [Decimal.value_eq_div, value_eq_div, div_eq_div_iff
        (by exact_mod_cast Nat.ne_of_gt (tenPow_pos _)) (by exact_mod_cast Nat.ne_of_gt (twoPow_pos _))] at hd
      exact_mod_cast hd
    have finite : x.magnitude < f.infinity := of_decide_eq_true h
    rw [Format.roundDecimal, if_neg some, if_neg (by omega), if_neg (by omega),
      Format.roundRatio_congr f (tenPow_pos _) (twoPow_pos _) cross, roundRatio_scaled hm]
    exact Nat.min_eq_right (Nat.le_of_lt finite)

end Binary

end SqlSelect
