import SqlSelect.Literal
import SqlSelect.Proofs.Binary.Coarsest

/-!
# Widening keeps the shortest decimal

A 32-bit number is widened to the 64-bit number that its shortest decimal rounds to.
The digits of that decimal are far coarser than the last place of the wide number
(`Binary32.unit_widen_lt`), so no other decimal that is as short rounds to it: the
wide number has the same shortest decimal (**`Binary32.shortest_widen`**).
-/

set_option autoImplicit false

namespace SqlSelect

/-- One digit at a smaller place makes nine tenths of the larger one at most. -/
theorem Decimal.value_le_of_digit {d : Decimal} {e : Int} (one : d.digits.length ≤ 1) (below : d.exponent < e) :
    10 * d.value ≤ 9 * 10 ^ e := by
  have digit : d.coefficient < 10 ^ 1 := (Nat.length_toDigits_le_iff (by decide) (by decide)).1 one
  have coefficient : (d.coefficient : ℚ) ≤ 9 := by
    exact_mod_cast Nat.le_of_lt_succ digit
  have place : (10 : ℚ) ^ d.exponent ≤ 10 ^ (e - 1) := zpow_le_zpow_right₀ (by norm_num) (by omega)
  have tens : (10 : ℚ) ^ e = 10 * 10 ^ (e - 1) := by
    rw [← zpow_one_add₀ (by norm_num), add_sub_cancel]
  have value : d.value ≤ 9 * 10 ^ (e - 1) :=
    mul_le_mul coefficient place (zpow_pos (by norm_num) _).le (by norm_num)
  linarith

namespace Binary

variable {f : Format} {x : Binary f}

/-- The unit of the last place is at most twenty units of the last digit. -/
theorem unit_le_digit (hf : 1 < f.exponentBits) (hp : 0 < f.fractionBits) (tie : Tie) (finite : x.isFinite = true)
    (nonzero : x.magnitude ≠ 0) : (2 : ℚ) ^ x.scaled.2 ≤ 20 * 10 ^ (x.shortest tie).exponent := by
  have unit : (0 : ℚ) < 2 ^ x.scaled.2 := zpow_pos (by norm_num) _
  have half : (0 : ℚ) < 2 ^ x.scaled.2 / 2 := by linarith
  -- The finest grid that is worth a try: less than half a unit apart.
  have small := Int.zpow_pred_clog_lt_self (b := 10) (by decide) half
  have large := Int.self_le_zpow_clog (b := 10) (by decide) (2 ^ x.scaled.2 / 2 : ℚ)
  generalize Int.clog 10 (2 ^ x.scaled.2 / 2 : ℚ) = k at small large
  rw [Nat.cast_ofNat] at small large
  obtain ⟨low, high⟩ := x.between_points (k - 1)
  have point : x.Nearest (Decimal.value ⟨(x.inUnits (k - 1)).1 / (x.inUnits (k - 1)).2 + 1, k - 1⟩) := by
    refine nearest_of_lt high.le ?_
    have next : Decimal.value ⟨(x.inUnits (k - 1)).1 / (x.inUnits (k - 1)).2 + 1, k - 1⟩ =
        Decimal.value ⟨(x.inUnits (k - 1)).1 / (x.inUnits (k - 1)).2, k - 1⟩ + 10 ^ (k - 1) := by
      simp only [Decimal.value, Nat.cast_add, Nat.cast_one, add_mul, one_mul]
    rw [next]
    linarith
  have grid : k - 1 ≤ (x.shortest tie).exponent := coarsest hf hp tie finite nonzero point
  have digit : (10 : ℚ) ^ k ≤ 10 * 10 ^ (x.shortest tie).exponent := by
    rw [← zpow_one_add₀ (by norm_num)]
    exact zpow_le_zpow_right₀ (by norm_num) (by omega)
  linarith

/-- Two decimals that round to one number are equal if a unit of the coarser digit is
more than a unit of the last place. -/
theorem value_eq_of_coarse (finite : x.isFinite = true) (nonzero : x.magnitude ≠ 0) {d d' : Decimal}
    (near : x.Nearest d.value) (near' : x.Nearest d'.value)
    (digit : (2 : ℚ) ^ x.scaled.2 < 10 ^ d.exponent) (grid : d.exponent ≤ d'.exponent) :
    d.value = d'.value := by
  obtain ⟨n, hn⟩ := Int.le.dest grid
  have unit : (0 : ℚ) < 10 ^ d.exponent := zpow_pos (by norm_num) _
  have point : d'.value = (d'.coefficient * 10 ^ n : Int) * 10 ^ d.exponent := by
    rw [Decimal.value, ← hn, add_comm, zpow_add₀ (by norm_num), zpow_natCast]
    push_cast
    ring
  have value : d.value = (d.coefficient : Int) * 10 ^ d.exponent := by
    rw [Decimal.value]
    push_cast
    ring
  have distance : |d.value - d'.value| ≤ 2 ^ x.scaled.2 := by
    obtain ⟨low, high⟩ := abs_le.1 (near.abs_sub_le finite nonzero)
    obtain ⟨low', high'⟩ := abs_le.1 (near'.abs_sub_le finite nonzero)
    rw [abs_le]
    constructor <;> linarith
  rw [value, point, ← sub_mul, abs_mul, abs_of_pos unit] at distance
  have less : |((d.coefficient : Int) - (d'.coefficient * 10 ^ n : Int) : ℚ)| < 1 := by
    refine lt_of_mul_lt_mul_right (lt_of_le_of_lt distance ?_) unit.le
    rwa [one_mul]
  have same : (d.coefficient : Int) = d'.coefficient * 10 ^ n := by
    rw [← sub_eq_zero, ← Int.abs_lt_one_iff]
    exact_mod_cast less
  rw [value, point, same]

end Binary

namespace Binary32

open Binary

variable {v : Binary32}

/-- A finite float is widened by way of its shortest decimal. -/
theorem widen_of_isFinite (finite : v.isFinite = true) :
    widen v = .ofDecimal .binary64 v.negative (v.shortest .away) := by
  have below : v.magnitude < Format.binary32.infinity := of_decide_eq_true finite
  have number : v.isNaN = false := decide_eq_false (by omega)
  have bounded : v.isInfinite = false := decide_eq_false (by omega)
  rw [widen, number, bounded]
  rfl

/-- The wide number is the one that the shortest decimal rounds to. -/
theorem nearest_widen (finite : v.isFinite = true) : (widen v).Nearest (v.shortest .away).value := by
  rw [widen_of_isFinite finite]
  exact nearest_of_roundDecimal (by decide) (by decide) rfl

/-- The shortest decimal of a number is inside the range of the wide format. -/
theorem shortest_bounds (finite : v.isFinite = true) (nonzero : v.magnitude ≠ 0) :
    (2 : ℚ) ^ v.scaled.2 ≤ 2 * (v.shortest .away).value ∧
      (v.shortest .away).value ≤ 2 ^ (25 + v.scaled.2) ∧ -149 ≤ v.scaled.2 ∧ v.scaled.2 ≤ 104 := by
  have near := nearest_shortest (by decide) (by decide) .away finite
  obtain ⟨low, high⟩ := near.bounds finite nonzero
  have unit := unit_le_value nonzero
  have size := v.value_lt
  obtain ⟨-, least, -, -⟩ := v.scaled_spec
  have most := scaled_lt_of_isFinite (by decide) finite
  have double : (2 : ℚ) ^ (25 + v.scaled.2) = 2 * 2 ^ ((23 : Nat) + 1 + v.scaled.2) := by
    rw [← zpow_one_add₀ (by norm_num)]
    congr 1
    omega
  have bottom : Format.binary32.minExponent = -149 := by decide
  have top : (twoPow (Format.binary32.exponentBits - 1) : Int) = 128 := by decide
  have bits : Format.binary32.fractionBits = 23 := rfl
  rw [bits] at size
  refine ⟨by linarith, by linarith, by omega, by omega⟩

/-- The wide number is finite. -/
theorem isFinite_widen (finite : v.isFinite = true) : (widen v).isFinite = true := by
  by_cases nonzero : v.magnitude = 0
  · have zero : v.shortest .away = ⟨0, 0⟩ := if_pos nonzero
    rw [widen_of_isFinite finite, zero]
    rfl
  obtain ⟨low, high, least, most⟩ := shortest_bounds finite nonzero
  refine Nearest.isFinite (by decide) ?_ (nearest_widen finite) ?_
  · rw [widen_of_isFinite finite]
    exact Format.roundDecimal_le _ _
  · have step : (2 : ℚ) ^ (25 + v.scaled.2) ≤ 2 ^ (129 : Int) :=
      zpow_le_zpow_right₀ (by norm_num) (by omega)
    have large : 2 * (2 : ℚ) ^ (129 : Int) < 2 ^ twoPow (Format.binary64.exponentBits - 1) := by
      rw [← zpow_one_add₀ (by norm_num), ← zpow_natCast]
      exact zpow_lt_zpow_right₀ (by norm_num) (by decide)
    linarith

/-- The wide number is zero only for zero. -/
theorem magnitude_widen_ne_zero (finite : v.isFinite = true) (nonzero : v.magnitude ≠ 0) :
    (widen v).magnitude ≠ 0 := by
  obtain ⟨low, high, least, most⟩ := shortest_bounds finite nonzero
  have near := nearest_widen finite
  refine near.magnitude_ne_zero (by decide) (lt_of_lt_of_le ?_ low)
  have bottom : Format.binary64.minExponent = -1074 := by decide
  exact zpow_lt_zpow_right₀ (by norm_num) (by omega)

/-- A unit of the last digit is far more than a unit of the wide number's last place. -/
theorem unit_widen_lt (finite : v.isFinite = true) (nonzero : v.magnitude ≠ 0) :
    10 * (2 : ℚ) ^ (widen v).scaled.2 < 10 ^ (v.shortest .away).exponent := by
  obtain ⟨low, high, least, most⟩ := shortest_bounds finite nonzero
  have finite' := isFinite_widen finite
  have nonzero' := magnitude_widen_ne_zero finite nonzero
  obtain ⟨bound, -⟩ := (nearest_widen finite).bounds finite' nonzero'
  have digit := unit_le_digit (by decide) (by decide) .away finite nonzero
  obtain ⟨-, -, filled, -⟩ := (widen v).scaled_spec
  have positive : (0 : ℚ) < 2 ^ v.scaled.2 := zpow_pos (by norm_num) _
  suffices small : 256 * (2 : ℚ) ^ (widen v).scaled.2 ≤ 2 ^ v.scaled.2 by
    have : (0 : ℚ) < 2 ^ (widen v).scaled.2 := zpow_pos (by norm_num) _
    linarith
  have power : (256 : ℚ) = 2 ^ (8 : Int) := by norm_num
  rw [power, ← zpow_add₀ (by norm_num)]
  rcases filled with subnormal | normal
  · have bottom : Format.binary64.minExponent = -1074 := by decide
    exact zpow_le_zpow_right₀ (by norm_num) (by omega)
  · have fraction : (2 : ℚ) ^ (52 + (widen v).scaled.2) ≤ (widen v).value := by
      rw [zpow_add₀ (by norm_num), value]
      exact mul_le_mul_of_nonneg_right (by exact_mod_cast normal) (zpow_pos (by norm_num) _).le
    have double : 2 * (2 : ℚ) ^ (25 + v.scaled.2) = 2 ^ (26 + v.scaled.2) := by
      rw [← zpow_one_add₀ (by norm_num)]
      congr 1
      omega
    have exponents : 52 + (widen v).scaled.2 ≤ 26 + v.scaled.2 :=
      (zpow_le_zpow_iff_right₀ (by norm_num : (1 : ℚ) < 2)).1 (by linarith)
    exact zpow_le_zpow_right₀ (by norm_num) (by omega)

/-- A decimal on a grid no finer than that of the shortest one that rounds to the wide
number has the value of the shortest one. -/
theorem value_eq_of_nearest_widen (finite : v.isFinite = true) (nonzero : v.magnitude ≠ 0) {d : Decimal}
    (near : (widen v).Nearest d.value) (grid : (v.shortest .away).exponent ≤ d.exponent) :
    (v.shortest .away).value = d.value := by
  have finite' := isFinite_widen finite
  have nonzero' := magnitude_widen_ne_zero finite nonzero
  have digit := unit_widen_lt finite nonzero
  have positive : (0 : ℚ) < 2 ^ (widen v).scaled.2 := zpow_pos (by norm_num) _
  exact value_eq_of_coarse finite' nonzero' (nearest_widen finite) near (by linarith) grid

/-- **The wide number has the same shortest decimal.** -/
theorem shortest_widen (finite : v.isFinite = true) : (widen v).shortest .away = v.shortest .away := by
  by_cases nonzero : v.magnitude = 0
  · have zero : v.shortest .away = ⟨0, 0⟩ := if_pos nonzero
    have wide : (widen v).magnitude = 0 := by
      rw [widen_of_isFinite finite, zero]
      rfl
    rw [shortest, if_pos wide, zero]
  have finite' := isFinite_widen finite
  have nonzero' := magnitude_widen_ne_zero finite nonzero
  have near := nearest_shortest (by decide) (by decide) .away finite
  have near' := nearest_shortest (by decide) (by decide) .away finite'
  have grid := coarsest (by decide) (by decide) .away finite' nonzero' (nearest_widen finite)
  have same := value_eq_of_nearest_widen finite nonzero near' grid
  -- Being equal, the decimal of the wide number rounds to the narrow one too.
  have grid' := coarsest (by decide) (by decide) .away finite nonzero (same ▸ near)
  exact Decimal.eq_of_value same.symm (by omega)

/-- A decimal that rounds to the wide number and is as short begins at no smaller place. -/
theorem magnitude_le_of_short (finite : v.isFinite = true) (nonzero : v.magnitude ≠ 0) {d : Decimal}
    (near : (widen v).Nearest d.value) (short : d.digits.length ≤ (v.shortest .away).digits.length) :
    (v.shortest .away).magnitude ≤ d.magnitude := by
  by_contra! smaller
  have finite' := isFinite_widen finite
  have nonzero' := magnitude_widen_ne_zero finite nonzero
  have here := nearest_widen finite
  have digit := unit_widen_lt finite nonzero
  have some := coefficient_ne_zero nonzero' ((readsBack_iff (by decide) (by decide) finite').2 near)
  have some' := coefficient_ne_zero nonzero' ((readsBack_iff (by decide) (by decide) finite').2 here)
  have one := d.length_digits_pos
  have one' := (v.shortest .away).length_digits_pos
  have place : d.magnitude = d.exponent + d.digits.length - 1 := rfl
  have place' : (v.shortest .away).magnitude =
      (v.shortest .away).exponent + (v.shortest .away).digits.length - 1 := rfl
  -- The shortest one is a power of ten, of one digit, and the other one is too far below it.
  have power := near.power here some some' smaller
  have same := value_eq_of_nearest_widen finite nonzero power (by show _ ≤ (v.shortest .away).magnitude; omega)
  have narrow := nearest_shortest (by decide) (by decide) .away finite
  rw [same] at narrow
  have single := coarsest (by decide) (by decide) .away finite nonzero narrow
  generalize v.shortest .away = s at *
  have single : s.magnitude ≤ s.exponent := single
  have below : 10 * d.value ≤ 9 * 10 ^ s.exponent := Decimal.value_le_of_digit (by omega) (by omega)
  have above : s.value = 10 ^ s.exponent := by
    rw [same, show s.magnitude = s.exponent by omega]
    simp [Decimal.value]
  obtain ⟨low, -⟩ := abs_le.1 (near.abs_sub_le finite' nonzero')
  obtain ⟨-, high⟩ := abs_le.1 (here.abs_sub_le finite' nonzero')
  linarith

/-- **No other decimal that is as short** rounds to the wide number. -/
theorem value_eq_of_short (finite : v.isFinite = true) (nonzero : v.magnitude ≠ 0) {d : Decimal}
    (near : (widen v).Nearest d.value) (short : d.digits.length ≤ (v.shortest .away).digits.length) :
    d.value = (v.shortest .away).value := by
  have front := magnitude_le_of_short finite nonzero near short
  have place : d.magnitude = d.exponent + d.digits.length - 1 := rfl
  have place' : (v.shortest .away).magnitude =
      (v.shortest .away).exponent + (v.shortest .away).digits.length - 1 := rfl
  have grid : (v.shortest .away).exponent ≤ d.exponent := by omega
  exact (value_eq_of_nearest_widen finite nonzero near grid).symm

end Binary32

end SqlSelect
