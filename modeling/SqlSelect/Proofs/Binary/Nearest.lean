import SqlSelect.Proofs.Binary.Rounding

/-!
# Rounding to the nearest number

`Binary.Nearest` says what it is for a quantity to round to a number, without the
way in which that is calculated. `Format.roundDecimal` gives the number that a
decimal rounds to, and there is only one (**`Format.roundDecimal_eq_iff`**). So the
quantities that round to a number form an interval (`Binary.Nearest.between`), which
reaches to half a unit of the last place (`Binary.Nearest.abs_sub_le`).
-/

set_option autoImplicit false

namespace SqlSelect

/-! ## Two distances -/

section

variable {a x y : ℚ}

/-- What is nearer to the lower of two lies below their middle. -/
theorem abs_sub_lt_iff_of_lt (h : x < y) : |a - x| < |a - y| ↔ 2 * a < x + y := by
  have positive : 0 < y - x := sub_pos.2 h
  have product : (a - x) ^ 2 - (a - y) ^ 2 = (y - x) * (2 * a - (x + y)) := by ring
  rw [← sq_lt_sq, ← sub_neg, product, mul_neg_iff]
  constructor
  · rintro (⟨-, h⟩ | ⟨h, -⟩)
    · exact sub_neg.1 h
    · exact absurd h (not_lt.2 positive.le)
  · exact fun h => .inl ⟨positive, sub_neg.2 h⟩

theorem abs_sub_eq_iff_of_lt (h : x < y) : |a - x| = |a - y| ↔ 2 * a = x + y := by
  have positive : y - x ≠ 0 := (sub_pos.2 h).ne'
  have product : (a - x) ^ 2 - (a - y) ^ 2 = (y - x) * (2 * a - (x + y)) := by ring
  rw [← sq_eq_sq_iff_abs_eq_abs, ← sub_eq_zero, product, mul_eq_zero, or_iff_right positive,
    sub_eq_zero]

end

/-! ## Rounding to integers -/

/-- The nearest integer of a fraction is at most a half away, and if it is a half then it is even. -/
theorem roundHalfEven_spec (num : Nat) {den : Nat} (hd : 0 < den) :
    2 * (num / den : ℚ) ≤ 2 * roundHalfEven num den + 1 ∧
      2 * (roundHalfEven num den : ℚ) ≤ 2 * (num / den) + 1 ∧
      (2 * (num / den : ℚ) = 2 * roundHalfEven num den + 1 ∨
        2 * (roundHalfEven num den : ℚ) = 2 * (num / den) + 1 → roundHalfEven num den % 2 = 0) := by
  have pos : (0 : ℚ) < den := by exact_mod_cast hd
  have below := Nat.mod_lt num hd
  have fraction : (num / den : ℚ) = (num / den : Nat) + (num % den : Nat) / den := by
    rw [eq_comm, ← mul_right_inj' pos.ne', mul_add, mul_div_cancel₀ _ pos.ne', mul_div_cancel₀ _ pos.ne']
    exact_mod_cast Nat.div_add_mod num den
  have half (r : Nat) : (2 * (r / den : ℚ) < 1 ↔ 2 * r < den) ∧ (2 * (r / den : ℚ) = 1 ↔ 2 * r = den) := by
    rw [← mul_div_assoc, div_lt_one pos, div_eq_one_iff_eq pos.ne']
    constructor <;> exact_mod_cast Iff.rfl
  obtain ⟨less, equal⟩ := half (num % den)
  have start : (0 : ℚ) ≤ (num % den : Nat) / den := by positivity
  have stop : ((num % den : Nat) / den : ℚ) < 1 := by
    rw [div_lt_one pos]
    exact_mod_cast below
  rw [fraction]
  generalize ((num % den : Nat) / den : ℚ) = rest at *
  unfold roundHalfEven
  simp only []
  generalize num / den = floor at *
  split
  · next h =>
    have := less.2 h
    refine ⟨by linarith, by linarith, ?_⟩
    rintro (h | h) <;> exact absurd h (by linarith)
  · next h =>
    have above : 1 ≤ 2 * rest := not_lt.1 fun h' => h (less.1 h')
    split
    · next h' =>
      have other : 2 * rest ≠ 1 := fun e => absurd (equal.1 e) (by omega)
      have strict : 1 < 2 * rest := lt_of_le_of_ne above other.symm
      push_cast
      refine ⟨by linarith, by linarith, ?_⟩
      rintro (h | h) <;> exact absurd h (by linarith)
    · next h' =>
      have tie : 2 * rest = 1 := equal.2 (by omega)
      rcases Nat.mod_two_eq_zero_or_one floor with even | odd
      · rw [even]
        push_cast
        exact ⟨by linarith, by linarith, fun _ => by omega⟩
      · rw [odd]
        push_cast
        exact ⟨by linarith, by linarith, fun _ => by omega⟩

namespace Binary

variable {f : Format} {x y z : Binary f} {a b c : ℚ}

/-! ## Values in order -/

/-- A way to split a magnitude into a fraction and an exponent gives the value,
even if the fraction overflows by one. -/
theorem value_of_parts {m : Nat} {q : Int} (hm : m ≤ 2 * twoPow f.fractionBits)
    (hq : f.minExponent ≤ q) (least : q = f.minExponent ∨ twoPow f.fractionBits ≤ m)
    (whole : (q - f.minExponent).toNat * twoPow f.fractionBits + m = x.magnitude) :
    x.value = m * 2 ^ q ∧ q ≤ x.scaled.2 := by
  obtain ⟨lt, above, least', whole'⟩ := x.scaled_spec
  rw [value]
  generalize x.scaled.1 = m' at *
  generalize x.scaled.2 = q' at *
  obtain ⟨j, rfl⟩ := Int.eq_ofNat_of_zero_le (sub_nonneg.2 hq) |>.imp fun j hj => (sub_eq_iff_eq_add.1 hj)
  obtain ⟨k, rfl⟩ := Int.eq_ofNat_of_zero_le (sub_nonneg.2 above) |>.imp fun j hj => (sub_eq_iff_eq_add.1 hj)
  simp only [Int.add_sub_cancel, Int.toNat_natCast] at whole whole'
  rcases Nat.lt_trichotomy j k with h | rfl | h
  · -- The fraction overflows: twice the unit is one unit of the next exponent.
    obtain ⟨t, rfl⟩ := Nat.exists_eq_add_of_lt h
    have unit : twoPow f.fractionBits ≤ m' := least'.resolve_left (by omega)
    rw [Nat.add_mul, Nat.add_mul, Nat.one_mul] at whole'
    have none : t * twoPow f.fractionBits = 0 := by omega
    have one : t = 0 := by simpa [Nat.ne_of_gt (twoPow_pos f.fractionBits)] using none
    have full : m = 2 * m' := by omega
    subst one full
    refine ⟨?_, by omega⟩
    have exponent : ((j + 0 + 1 : Nat) : Int) + f.minExponent = 1 + (j + f.minExponent) := by omega
    rw [exponent, zpow_add₀ (by norm_num)]
    push_cast
    ring
  · have same : m = m' := by omega
    exact ⟨by rw [same], le_refl _⟩
  · obtain ⟨t, rfl⟩ := Nat.exists_eq_add_of_lt h
    have unit : twoPow f.fractionBits ≤ m := least.resolve_left (by omega)
    rw [Nat.add_mul, Nat.add_mul, Nat.one_mul] at whole
    omega

/-- The next magnitude has a value that is larger by one unit of the last place,
and a unit that is no smaller. -/
theorem value_succ (h : y.magnitude = x.magnitude + 1) :
    y.value = x.value + 2 ^ x.scaled.2 ∧ (2 : ℚ) ^ x.scaled.2 ≤ 2 ^ y.scaled.2 := by
  obtain ⟨lt, above, least, whole⟩ := x.scaled_spec
  obtain ⟨next, unit⟩ := value_of_parts (x := y) (m := x.scaled.1 + 1) (q := x.scaled.2) (by omega)
    above (by omega) (by omega)
  refine ⟨?_, zpow_le_zpow_right₀ (by norm_num) unit⟩
  rw [next, value]
  push_cast
  ring

theorem value_eq_of_magnitude (h : x.magnitude = y.magnitude) : x.value = y.value := by
  obtain ⟨lt, above, least, whole⟩ := y.scaled_spec
  exact (value_of_parts (x := x) (by omega) above least (by omega)).1

/-- A larger magnitude has a value that is larger by a unit of the last place at least. -/
theorem add_le_value (h : x.magnitude < y.magnitude) : x.value + 2 ^ x.scaled.2 ≤ y.value := by
  obtain ⟨n, hn⟩ := Nat.exists_eq_add_of_lt h
  induction n generalizing y with
  | zero => exact (value_succ (by omega)).1.ge
  | succ n ih =>
    have lt := y.magnitude_lt
    let before : Binary f := ⟨false, x.magnitude + n + 1, by omega⟩
    have step : y.value = before.value + 2 ^ before.scaled.2 := (value_succ hn).1
    have positive : (0 : ℚ) < 2 ^ before.scaled.2 := zpow_pos (by norm_num) _
    have earlier : x.value + 2 ^ x.scaled.2 ≤ before.value := ih (Nat.lt_succ_of_le (Nat.le_add_right _ _)) rfl
    linarith

/-- Values are in the order of magnitudes. -/
theorem value_lt_value (h : x.magnitude < y.magnitude) : x.value < y.value := by
  have positive : (0 : ℚ) < 2 ^ x.scaled.2 := zpow_pos (by norm_num) _
  linarith [add_le_value h]

theorem value_of_zero (zero : x.magnitude = 0) : x.value = 0 := by
  simp [value, scaled, zero]

/-! ## The nearest number -/

/-- A quantity rounds to a number: no other one is nearer, where infinity counts as
the value after the greatest finite one; halfway between two it is the even one. -/
def Nearest (x : Binary f) (a : ℚ) : Prop :=
  ∀ y : Binary f, y.magnitude ≤ f.infinity → y.magnitude ≠ x.magnitude →
    |a - x.value| < |a - y.value| ∨ |a - x.value| = |a - y.value| ∧ x.magnitude % 2 = 0

/-- What `Nearest` says of a number above or below: on which side of the middle
between the two numbers the quantity is. -/
theorem nearest_iff : x.Nearest a ↔
    (∀ y : Binary f, y.magnitude ≤ f.infinity → x.magnitude < y.magnitude →
      2 * a < x.value + y.value ∨ 2 * a = x.value + y.value ∧ x.magnitude % 2 = 0) ∧
    ∀ y : Binary f, y.magnitude ≤ f.infinity → y.magnitude < x.magnitude →
      y.value + x.value < 2 * a ∨ 2 * a = y.value + x.value ∧ x.magnitude % 2 = 0 := by
  have above {y : Binary f} (h : x.magnitude < y.magnitude) :
      (|a - x.value| < |a - y.value| ∨ |a - x.value| = |a - y.value| ∧ x.magnitude % 2 = 0) ↔
        (2 * a < x.value + y.value ∨ 2 * a = x.value + y.value ∧ x.magnitude % 2 = 0) := by
    rw [abs_sub_lt_iff_of_lt (value_lt_value h), abs_sub_eq_iff_of_lt (value_lt_value h)]
  have below {y : Binary f} (h : y.magnitude < x.magnitude) :
      (|a - x.value| < |a - y.value| ∨ |a - x.value| = |a - y.value| ∧ x.magnitude % 2 = 0) ↔
        (y.value + x.value < 2 * a ∨ 2 * a = y.value + x.value ∧ x.magnitude % 2 = 0) := by
    have equal := abs_sub_eq_iff_of_lt (a := a) (value_lt_value h)
    have less := abs_sub_lt_iff_of_lt (a := a) (value_lt_value h)
    rw [eq_comm] at equal
    rw [equal, lt_iff_le_and_ne, ne_eq, equal, ← not_lt, less, not_lt, lt_iff_le_and_ne, ne_comm, ne_eq]
  constructor
  · intro h
    exact ⟨fun y hy lt => (above lt).1 (h y hy (by omega)), fun y hy lt => (below lt).1 (h y hy (by omega))⟩
  · rintro ⟨h, h'⟩ y hy other
    rcases Nat.lt_or_gt_of_ne other with lt | lt
    · exact (below lt).2 (h' y hy lt)
    · exact (above lt).2 (h y hy lt)

/-- To round to a number it is enough to be on its side of the middles between it
and its two neighbours. -/
theorem nearest_of_neighbours
    (above : x.magnitude < f.infinity →
      2 * a < 2 * x.value + 2 ^ x.scaled.2 ∨ 2 * a = 2 * x.value + 2 ^ x.scaled.2 ∧ x.magnitude % 2 = 0)
    (below : ∀ z : Binary f, x.magnitude = z.magnitude + 1 →
      2 * x.value - 2 ^ z.scaled.2 < 2 * a ∨ 2 * a = 2 * x.value - 2 ^ z.scaled.2 ∧ x.magnitude % 2 = 0) :
    x.Nearest a := by
  refine nearest_iff.2 ⟨fun y hy lt => ?_, fun y hy lt => ?_⟩
  · have far := add_le_value lt
    rcases above (by omega) with side | ⟨side, even⟩
    · exact .inl (by linarith)
    · rcases far.lt_or_eq with far | far
      · exact .inl (by linarith)
      · exact .inr ⟨by linarith, even⟩
  · have positive := x.magnitude_lt
    let z : Binary f := ⟨false, x.magnitude - 1, by omega⟩
    have next : x.magnitude = z.magnitude + 1 := by
      show x.magnitude = x.magnitude - 1 + 1
      omega
    have step : x.value = z.value + 2 ^ z.scaled.2 := (value_succ next).1
    have far : y.value ≤ z.value := by
      rcases Nat.lt_or_eq_of_le (show y.magnitude ≤ z.magnitude by omega) with lt' | eq
      · exact (value_lt_value lt').le
      · exact (value_eq_of_magnitude eq).le
    rcases below z next with side | ⟨side, even⟩
    · exact .inl (by linarith)
    · rcases far.lt_or_eq with far | far
      · exact .inl (by linarith)
      · exact .inr ⟨by linarith, even⟩

/-! ## Rounding gives the nearest number -/

/-- Beyond infinity everything rounds to infinity. -/
theorem nearest_of_infinity_le (infinite : x.magnitude = f.infinity) (h : x.value ≤ a) : x.Nearest a := by
  refine nearest_iff.2 ⟨fun y hy lt => by omega, fun y hy lt => .inl ?_⟩
  have := value_lt_value lt
  linarith

/-- What is less than half of the smallest number rounds to zero. -/
theorem nearest_of_small (zero : x.magnitude = 0) (h : 2 * a < 2 ^ f.minExponent) : x.Nearest a := by
  have exponent : x.scaled.2 = f.minExponent := by simp [scaled, zero]
  have value := value_of_zero zero
  refine nearest_of_neighbours (fun _ => .inl ?_) fun z hz => by omega
  rw [value, exponent]
  linarith

/-- Infinity stands where the next power of two would. -/
theorem value_infinity (hf : 1 < f.exponentBits) (infinite : x.magnitude = f.infinity) :
    x.value = 2 ^ twoPow (f.exponentBits - 1) := by
  have double := twoPow_exponentBits hf
  have two := two_le_twoPow hf
  have unit := twoPow_pos f.fractionBits
  have whole : ((twoPow f.exponentBits - 2 + f.minExponent : Int) - f.minExponent).toNat *
      twoPow f.fractionBits + twoPow f.fractionBits = x.magnitude := by
    have exponent : ((twoPow f.exponentBits - 2 + f.minExponent : Int) - f.minExponent).toNat =
        twoPow f.exponentBits - 2 := by omega
    rw [exponent, infinite, Format.infinity, ← Nat.succ_mul]
    congr 1
    omega
  have parts := (value_of_parts (x := x) (by omega) (by omega) (.inr (le_refl _)) whole).1
  rw [parts, cast_twoPow, ← zpow_natCast, ← zpow_natCast, ← zpow_add₀ (by norm_num)]
  congr 1
  simp only [Format.minExponent]
  omega

end Binary

/-- A quantity is rounded to `n` units of `2 ^ q`: the nearest multiple, an even one
if the quantity is halfway, of a unit that lets the multiple fill the fraction. -/
structure Format.Rounded (f : Format) (a : ℚ) (q : Int) (n : Nat) : Prop where
  least : f.minExponent ≤ q
  fits : n ≤ 2 * twoPow f.fractionBits
  filled : q = f.minExponent ∨ twoPow f.fractionBits ≤ n ∧ twoPow f.fractionBits * 2 ^ q ≤ a
  above : 2 * a ≤ 2 * (n * 2 ^ q) + 2 ^ q
  below : 2 * (n * 2 ^ q) - 2 ^ q ≤ 2 * a
  even : 2 * a = 2 * (n * 2 ^ q) + 2 ^ q ∨ 2 * a = 2 * (n * 2 ^ q) - 2 ^ q → n % 2 = 0

/-- What `Format.roundRatio` calculates. -/
theorem Format.roundRatio_spec (f : Format) {num den : Nat} (hn : 0 < num) (hd : 0 < den) :
    ∃ q n, f.Rounded (num / den) q n ∧
      f.roundRatio num den = (q - f.minExponent).toNat * twoPow f.fractionBits + n := by
  have place := floorLog2_eq_log hn hd
  have positive : (0 : ℚ) < num / den :=
    div_pos (by exact_mod_cast hn) (by exact_mod_cast hd)
  have low := Int.zpow_log_le_self (b := 2) (by decide) positive
  have high := Int.lt_zpow_succ_log_self (b := 2) (by decide) (num / den : ℚ)
  rw [Nat.cast_ofNat] at low high
  generalize hq : max (Int.log 2 (num / den : ℚ) - f.fractionBits) f.minExponent = q
  have ratio : ((num * twoPow (-q).toNat : Nat) / (den * twoPow q.toNat : Nat) : ℚ) = num / den / 2 ^ q := by
    have power : (2 : ℚ) ^ (-q).toNat / 2 ^ q.toNat = (2 ^ q)⁻¹ := by
      rw [← zpow_neg, ← pow_toNat_div 2 (-q), neg_neg]
    rw [Nat.cast_mul, Nat.cast_mul, cast_twoPow, cast_twoPow, mul_div_mul_comm, power, ← div_eq_mul_inv]
  have unit : (0 : ℚ) < 2 ^ q := zpow_pos (by norm_num) q
  have value : (num / den : ℚ) = num / den / 2 ^ q * 2 ^ q := (div_mul_cancel₀ _ unit.ne').symm
  obtain ⟨above, below, even⟩ := roundHalfEven_spec (num * twoPow (-q).toNat)
    (Nat.mul_pos hd (twoPow_pos q.toNat))
  rw [ratio] at above below even
  have filled : q = f.minExponent ∨ (twoPow f.fractionBits : ℚ) * 2 ^ q ≤ num / den := by
    by_cases least : q = f.minExponent
    · exact .inl least
    · refine .inr (le_trans (le_of_eq ?_) low)
      rw [cast_twoPow, ← zpow_natCast, ← zpow_add₀ (by norm_num)]
      congr 1
      omega
  have overflow : (num / den : ℚ) < 2 * twoPow f.fractionBits * 2 ^ q := by
    refine lt_of_lt_of_le high ?_
    rw [cast_twoPow, ← pow_succ', ← zpow_natCast, ← zpow_add₀ (by norm_num)]
    exact zpow_le_zpow_right₀ (by norm_num) (by push_cast; omega)
  refine ⟨q, roundHalfEven (num * twoPow (-q).toNat) (den * twoPow q.toNat), ?_, ?_⟩
  · generalize roundHalfEven (num * twoPow (-q).toNat) (den * twoPow q.toNat) = n at *
    generalize (num / den / 2 ^ q : ℚ) = t at *
    rw [value] at filled overflow ⊢
    constructor
    case least => omega
    case fits =>
      have bound := lt_of_mul_lt_mul_right overflow unit.le
      have twice : (2 * n : ℚ) < 4 * twoPow f.fractionBits + 1 := by linarith
      have : 2 * n < 4 * twoPow f.fractionBits + 1 := by exact_mod_cast twice
      omega
    case filled =>
      refine filled.imp_right fun h => ⟨?_, h⟩
      have bound := le_of_mul_le_mul_right h unit
      have twice : (2 * twoPow f.fractionBits : ℚ) ≤ 2 * n + 1 := by linarith
      have : 2 * twoPow f.fractionBits ≤ 2 * n + 1 := by exact_mod_cast twice
      omega
    case above => nlinarith
    case below => nlinarith
    case even =>
      rintro (h | h)
      · exact even (.inl (mul_right_cancel₀ unit.ne' (by linarith)))
      · exact even (.inr (mul_right_cancel₀ unit.ne' (by linarith)))
  · rw [Format.roundRatio, if_neg (Nat.ne_of_gt hn), place]
    simp only [hq]

namespace Binary

variable {f : Format} {x y : Binary f} {a b c : ℚ}

/-- A quantity that is rounded to a magnitude beyond infinity is itself beyond it. -/
theorem infinity_le_of_rounded (hf : 1 < f.exponentBits) {q : Int} {n : Nat} (h : f.Rounded a q n)
    (infinite : x.magnitude = f.infinity)
    (large : f.infinity < (q - f.minExponent).toNat * twoPow f.fractionBits + n) : x.value ≤ a := by
  have unit := twoPow_pos f.fractionBits
  have double := twoPow_exponentBits hf
  have two := two_le_twoPow hf
  have exponent : twoPow f.exponentBits - 1 < (q - f.minExponent).toNat + 2 := by
    refine Nat.lt_of_mul_lt_mul_right (a := twoPow f.fractionBits) ?_
    rw [Nat.add_mul]
    exact Nat.lt_of_lt_of_le large (Nat.add_le_add_left h.fits _)
  obtain ⟨-, filled⟩ := h.filled.resolve_left (by omega)
  rw [value_infinity hf infinite]
  refine le_trans ?_ filled
  rw [cast_twoPow, ← zpow_natCast, ← zpow_natCast, ← zpow_add₀ (by norm_num)]
  refine zpow_le_zpow_right₀ (by norm_num) ?_
  simp only [Format.minExponent] at exponent
  omega

/-- A quantity rounds to the number that has the magnitude it is rounded to. -/
theorem nearest_of_rounded (hp : 0 < f.fractionBits) {q : Int} {n : Nat} (h : f.Rounded a q n)
    (whole : (q - f.minExponent).toNat * twoPow f.fractionBits + n = x.magnitude) : x.Nearest a := by
  obtain ⟨value, exponent⟩ := value_of_parts h.fits h.least (h.filled.imp_right And.left) whole
  have parity : x.magnitude % 2 = n % 2 := by
    obtain ⟨k, hk⟩ : ∃ k, twoPow f.fractionBits = 2 * k :=
      ⟨twoPow (f.fractionBits - 1), by
        rw [show f.fractionBits = 1 + (f.fractionBits - 1) by omega, twoPow_add, Nat.add_sub_cancel_left]
        rfl⟩
    rw [← whole, hk, Nat.mul_left_comm, Nat.mul_add_mod]
  refine nearest_of_neighbours (fun _ => ?_) fun z next => ?_
  · have step : (2 : ℚ) ^ q ≤ 2 ^ x.scaled.2 := zpow_le_zpow_right₀ (by norm_num) exponent
    rw [value, parity]
    rcases h.above.lt_or_eq with side | side
    · exact .inl (by linarith)
    · rcases step.lt_or_eq with step | step
      · exact .inl (by linarith)
      · exact .inr ⟨by linarith, h.even (.inl side)⟩
  · rw [value, parity]
    by_cases fine : q ≤ z.scaled.2
    · have step : (2 : ℚ) ^ q ≤ 2 ^ z.scaled.2 := zpow_le_zpow_right₀ (by norm_num) fine
      rcases h.below.lt_or_eq with side | side
      · exact .inl (by linarith)
      · rcases step.lt_or_eq with step | step
        · exact .inl (by linarith)
        · exact .inr ⟨by linarith, h.even (.inr side.symm)⟩
    · -- Below a power of two the numbers are closer together, but the quantity is not below it.
      obtain ⟨lt, least, -, whole'⟩ := z.scaled_spec
      obtain ⟨-, filled⟩ := h.filled.resolve_left (by omega)
      have smaller : ((z.scaled.2 - f.minExponent).toNat + 1) * twoPow f.fractionBits ≤
          (q - f.minExponent).toNat * twoPow f.fractionBits := Nat.mul_le_mul_right _ (by omega)
      rw [Nat.succ_mul] at smaller
      have bottom : n ≤ twoPow f.fractionBits := by omega
      have bottom : (n * 2 ^ q : ℚ) ≤ twoPow f.fractionBits * 2 ^ q :=
        mul_le_mul_of_nonneg_right (by exact_mod_cast bottom) (zpow_pos (by norm_num) q).le
      have positive : (0 : ℚ) < 2 ^ z.scaled.2 := zpow_pos (by norm_num) _
      exact .inl (by linarith)

/-- A decimal rounds to the number that `Format.roundDecimal` gives. -/
theorem nearest_of_roundDecimal (hf : 1 < f.exponentBits) (hp : 0 < f.fractionBits) {d : Decimal}
    (h : f.roundDecimal d = x.magnitude) : x.Nearest d.value := by
  unfold Format.roundDecimal at h
  split at h
  · next hc =>
    refine nearest_of_small h.symm ?_
    rw [Decimal.value_eq_zero.2 hc, mul_zero]
    exact zpow_pos (by norm_num) _
  next hc =>
  have place := Decimal.magnitude_eq_log hc
  have positive := Decimal.value_pos hc
  split at h
  · next large =>
    refine nearest_of_infinity_le h.symm ?_
    rw [value_infinity hf h.symm, ← zpow_natCast]
    have low := (Int.zpow_le_iff_le_log (b := 10) (by decide) positive).2 (place ▸ large)
    refine le_trans ?_ low
    rw [zpow_natCast, zpow_natCast]
    exact pow_le_pow_left₀ (by norm_num) (by norm_num) _
  split at h
  · next small =>
    refine nearest_of_small h.symm ?_
    have two := two_le_twoPow hf
    have high := Int.lt_zpow_succ_log_self (b := 10) (by decide) d.value
    rw [← place, Nat.cast_ofNat] at high
    have negative : d.magnitude + 1 ≤ 0 := by
      simp only [Format.minExponent] at small
      omega
    have tens : (10 : ℚ) ^ (d.magnitude + 1) ≤ 2 ^ (f.minExponent - 1) :=
      le_trans (ten_zpow_le_two_zpow negative) (zpow_le_zpow_right₀ (by norm_num) (by omega))
    have half : (2 : ℚ) ^ f.minExponent = 2 * 2 ^ (f.minExponent - 1) := by
      rw [← zpow_one_add₀ (by norm_num), add_sub_cancel]
    linarith
  · obtain ⟨q, n, rounded, whole⟩ := f.roundRatio_spec
      (Nat.mul_pos (Nat.pos_of_ne_zero hc) (tenPow_pos d.exponent.toNat)) (tenPow_pos (-d.exponent).toNat)
    rw [← Decimal.value_eq_div] at rounded
    rw [whole] at h
    by_cases large : f.infinity < (q - f.minExponent).toNat * twoPow f.fractionBits + n
    · have infinite : x.magnitude = f.infinity := by omega
      exact nearest_of_infinity_le infinite (infinity_le_of_rounded hf rounded infinite large)
    · exact nearest_of_rounded hp rounded (by omega)

/-- A quantity rounds to one number at most, sign apart. -/
theorem Nearest.unique (hx : x.magnitude ≤ f.infinity) (hy : y.magnitude ≤ f.infinity)
    (h : x.Nearest a) (h' : y.Nearest a) : x.magnitude = y.magnitude := by
  by_contra other
  wlog lt : x.magnitude < y.magnitude generalizing x y
  · exact this hy hx h' h (Ne.symm other) (by omega)
  obtain ⟨above, -⟩ := nearest_iff.1 h
  obtain ⟨-, below⟩ := nearest_iff.1 h'
  -- Both can only be if it is halfway between two even ones, but then an odd one is nearer.
  rcases above y hy lt with side | ⟨middle, even⟩
  · rcases below x hx lt with side' | ⟨side', -⟩ <;> linarith
  rcases below x hx lt with side' | ⟨-, even'⟩
  · linarith
  let z : Binary f := ⟨false, x.magnitude + 1, by have := y.magnitude_lt; omega⟩
  have between : z.magnitude < y.magnitude := by
    show x.magnitude + 1 < y.magnitude
    omega
  have near := value_lt_value between
  rcases above z (by omega) (Nat.lt_succ_self _) with side' | ⟨side', -⟩ <;> linarith

end Binary

/-- **A decimal rounds to a number** exactly if that is the nearest one. -/
theorem Format.roundDecimal_eq_iff {f : Format} (hf : 1 < f.exponentBits) (hp : 0 < f.fractionBits)
    {x : Binary f} (hx : x.magnitude ≤ f.infinity) {d : Decimal} :
    f.roundDecimal d = x.magnitude ↔ x.Nearest d.value := by
  refine ⟨Binary.nearest_of_roundDecimal hf hp, fun h => ?_⟩
  let y := Binary.ofDecimal f false d
  have here : y.Nearest d.value := Binary.nearest_of_roundDecimal hf hp rfl
  exact here.unique (f.roundDecimal_le d) hx h

namespace Binary

variable {f : Format} {x y : Binary f} {a b c : ℚ}

/-! ## The quantities that round to a number -/

/-- The value of a number rounds to the number. -/
theorem nearest_value (x : Binary f) : x.Nearest x.value :=
  nearest_iff.2 ⟨fun y _ lt => .inl (by linarith [value_lt_value lt]),
    fun y _ lt => .inl (by linarith [value_lt_value lt])⟩

/-- What is between two quantities that round to a number rounds to it as well. -/
theorem Nearest.between (ha : x.Nearest a) (hb : x.Nearest b) (hac : a ≤ c) (hcb : c ≤ b) :
    x.Nearest c := by
  obtain ⟨-, below⟩ := nearest_iff.1 ha
  obtain ⟨above, -⟩ := nearest_iff.1 hb
  refine nearest_iff.2 ⟨fun y hy lt => ?_, fun y hy lt => ?_⟩
  · rcases above y hy lt with side | ⟨side, even⟩
    · exact .inl (by linarith)
    · rcases hcb.lt_or_eq with hcb | rfl
      · exact .inl (by linarith)
      · exact .inr ⟨side, even⟩
  · rcases below y hy lt with side | ⟨side, even⟩
    · exact .inl (by linarith)
    · rcases hac.lt_or_eq with hac | rfl
      · exact .inl (by linarith)
      · exact .inr ⟨side, even⟩

/-- What rounds to a finite number is at most half a unit of the last place away. -/
theorem Nearest.abs_sub_le (finite : x.isFinite = true) (nonzero : x.magnitude ≠ 0) (h : x.Nearest a) :
    |a - x.value| ≤ 2 ^ x.scaled.2 / 2 := by
  have below : x.magnitude < f.infinity := of_decide_eq_true finite
  have positive := x.magnitude_lt
  have last := f.infinity_lt
  obtain ⟨upper, lower⟩ := nearest_iff.1 h
  let next : Binary f := ⟨false, x.magnitude + 1, by omega⟩
  let before : Binary f := ⟨false, x.magnitude - 1, by omega⟩
  have here : before.magnitude = x.magnitude - 1 := rfl
  obtain ⟨up, -⟩ := value_succ (x := x) (y := next) rfl
  obtain ⟨down, finer⟩ := value_succ (x := before) (y := x) (by omega)
  rw [abs_le]
  constructor
  · rcases lower before (by omega) (by omega) with side | ⟨side, -⟩ <;> linarith
  · rcases upper next below (Nat.lt_succ_self _) with side | ⟨side, -⟩ <;> linarith

/-- What is less than half a unit of the last place above a number rounds to it. -/
theorem nearest_of_lt (hx : x.value ≤ a) (ha : a < x.value + 2 ^ x.scaled.2 / 2) : x.Nearest a := by
  refine nearest_iff.2 ⟨fun y _ lt => .inl ?_, fun y _ lt => .inl ?_⟩
  · linarith [add_le_value lt]
  · linarith [value_lt_value lt]

theorem infinity_pos (hf : 1 < f.exponentBits) : 0 < f.infinity := by
  have double := twoPow_exponentBits hf
  have two := two_le_twoPow hf
  exact Nat.mul_pos (by omega) (twoPow_pos _)

/-- Infinity is not nearest to anything that is less than half of it. -/
theorem Nearest.isFinite (hf : 1 < f.exponentBits) (hx : x.magnitude ≤ f.infinity) (h : x.Nearest a)
    (small : 2 * a < 2 ^ twoPow (f.exponentBits - 1)) : x.isFinite = true := by
  refine decide_eq_true (lt_of_le_of_ne hx fun infinite => ?_)
  have positive := infinity_pos hf
  obtain ⟨-, below⟩ := nearest_iff.1 h
  let zero : Binary f := ⟨false, 0, twoPow_pos _⟩
  have none : zero.value = 0 := value_of_zero rfl
  rw [← value_infinity hf infinite] at small
  rcases below zero (Nat.zero_le _) (infinite ▸ positive) with side | ⟨side, -⟩ <;> linarith

/-- Zero is not nearest to anything that is more than half of the smallest number. -/
theorem Nearest.magnitude_ne_zero (hf : 1 < f.exponentBits) (h : x.Nearest a)
    (large : 2 ^ f.minExponent < 2 * a) : x.magnitude ≠ 0 := by
  intro zero
  have exponent : x.scaled.2 = f.minExponent := by simp [scaled, zero]
  have none := value_of_zero zero
  have positive := infinity_pos hf
  have last := f.infinity_lt
  obtain ⟨above, -⟩ := nearest_iff.1 h
  let one : Binary f := ⟨false, x.magnitude + 1, by omega⟩
  obtain ⟨smallest, -⟩ := value_succ (x := x) (y := one) rfl
  rw [none, exponent] at smallest
  have within : one.magnitude ≤ f.infinity := by
    show x.magnitude + 1 ≤ f.infinity
    omega
  rcases above one within (Nat.lt_succ_self _) with side | ⟨side, -⟩ <;> linarith

/-! ## Signed quantities -/

/-- A quantity with a sign, which zero has as well, rounds to a number. -/
structure RoundsTo (x : Binary f) (negative : Bool) (a : ℚ) : Prop where
  sign : x.negative = negative
  bounded : x.magnitude ≤ f.infinity
  nearest : x.Nearest a

/-- What rounds to a finite number rounds to no other, bit for bit. -/
theorem roundsTo_iff (finite : x.isFinite = true) (h : x.Nearest a) :
    y.RoundsTo x.negative a ↔ y = x := by
  have below : x.magnitude < f.infinity := of_decide_eq_true finite
  constructor
  · intro h'
    have same := h'.nearest.unique h'.bounded below.le h
    have sign := h'.sign
    obtain ⟨negative, magnitude, lt⟩ := x
    obtain ⟨negative', magnitude', lt'⟩ := y
    subst same sign
    rfl
  · rintro rfl
    exact ⟨rfl, below.le, h⟩

end Binary

end SqlSelect
