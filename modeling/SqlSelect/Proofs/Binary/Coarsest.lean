import SqlSelect.Proofs.Binary.Nearest
import SqlSelect.Proofs.Binary.Shortest

/-!
# The shortest decimal is the shortest

`Binary.searchGrids` tries the grids from the coarsest on and looks at two points of
each. That is enough: what rounds to a number is an interval around it, so a grid
with any point in the interval has one of those two there. So no decimal on a
coarser grid than the shortest one reads back (**`Binary.coarsest`**), and none has
fewer digits (**`Binary.fewest_digits`**).
-/

set_option autoImplicit false

namespace SqlSelect

namespace Decimal

/-- A decimal is at least the power of ten of its leading digit. -/
theorem zpow_magnitude_le {d : Decimal} (h : d.coefficient ≠ 0) : (10 : ℚ) ^ d.magnitude ≤ d.value := by
  rw [magnitude_eq_log h]
  exact Int.zpow_log_le_self (by decide) (value_pos h)

/-- A decimal is less than the power of ten before its leading digit. -/
theorem value_lt_zpow {d : Decimal} (h : d.coefficient ≠ 0) : d.value < (10 : ℚ) ^ (d.magnitude + 1) := by
  rw [magnitude_eq_log h]
  exact Int.lt_zpow_succ_log_self (by decide) _

end Decimal

namespace Binary

variable {f : Format} {x : Binary f} {tie : Tie}

/-- A number other than zero is at least one unit of its last place. -/
theorem unit_le_value (nonzero : x.magnitude ≠ 0) : (2 : ℚ) ^ x.scaled.2 ≤ x.value :=
  le_mul_of_one_le_left (zpow_pos (by norm_num) _).le (by exact_mod_cast scaled_pos nonzero)

/-- What rounds to a finite number other than zero is between half of it and twice of it. -/
theorem Nearest.bounds (finite : x.isFinite = true) (nonzero : x.magnitude ≠ 0) {a : ℚ}
    (near : x.Nearest a) : x.value ≤ 2 * a ∧ a ≤ 2 * x.value := by
  have unit := unit_le_value nonzero
  have positive := value_pos nonzero
  obtain ⟨low, high⟩ := abs_le.1 (near.abs_sub_le finite nonzero)
  constructor <;> linarith

/-- Reading back is to round to the number. -/
theorem readsBack_iff (hf : 1 < f.exponentBits) (hp : 0 < f.fractionBits) (finite : x.isFinite = true)
    {d : Decimal} : x.readsBack d = true ↔ x.Nearest d.value := by
  have below : x.magnitude < f.infinity := of_decide_eq_true finite
  rw [readsBack, beq_iff_eq, Format.roundDecimal_eq_iff hf hp below.le]

/-- Nothing but zero is rounded from zero. -/
theorem coefficient_ne_zero (nonzero : x.magnitude ≠ 0) {d : Decimal} (h : x.readsBack d = true) :
    d.coefficient ≠ 0 := by
  intro zero
  rw [readsBack, beq_iff_eq, Format.roundDecimal, if_pos zero] at h
  exact nonzero h.symm

/-! ## One grid -/

/-- A number is between two points of a grid. -/
theorem between_points (x : Binary f) (k : Int) :
    Decimal.value ⟨(x.inUnits k).1 / (x.inUnits k).2, k⟩ ≤ x.value ∧
      x.value < Decimal.value ⟨(x.inUnits k).1 / (x.inUnits k).2 + 1, k⟩ := by
  have positive : 0 < (x.inUnits k).2 := Nat.mul_pos (twoPow_pos _) (tenPow_pos _)
  have den : (0 : ℚ) < (x.inUnits k).2 := by exact_mod_cast positive
  have unit : (0 : ℚ) < 10 ^ k := zpow_pos (by norm_num) k
  rw [← x.value_inUnits k]
  generalize (x.inUnits k).1 = num at *
  generalize (x.inUnits k).2 = den at *
  constructor
  · refine mul_le_mul_of_nonneg_right ?_ unit.le
    exact Nat.cast_div_le
  · refine mul_lt_mul_of_pos_right ?_ unit
    rw [div_lt_iff₀ den]
    exact_mod_cast Nat.lt_mul_of_div_lt (Nat.lt_succ_self _) positive

/-- A grid of which neither neighbour of the number reads back has no point that does. -/
theorem not_nearest_of_onGrid? (hf : 1 < f.exponentBits) (hp : 0 < f.fractionBits)
    (finite : x.isFinite = true) {k : Int} (h : x.onGrid? tie k = none) (c : Nat) :
    ¬ x.Nearest (Decimal.value ⟨c, k⟩) := by
  intro near
  obtain ⟨low, high⟩ := x.between_points k
  unfold onGrid? at h
  simp only [] at h
  generalize (x.inUnits k).1 / (x.inUnits k).2 = below at *
  have ordered {a b : Nat} (hab : a ≤ b) : Decimal.value ⟨a, k⟩ ≤ Decimal.value ⟨b, k⟩ :=
    mul_le_mul_of_nonneg_right (by exact_mod_cast hab) (zpow_pos (by norm_num) k).le
  split at h
  · cases h
  · cases h
  · cases h
  · next lower upper =>
    rcases Nat.lt_or_ge below c with above | above
    · have point := x.nearest_value.between near high.le (ordered above)
      rw [(readsBack_iff hf hp finite).2 point] at upper
      cases upper
    · have point := near.between x.nearest_value (ordered above) low
      rw [(readsBack_iff hf hp finite).2 point] at lower
      cases lower

/-! ## The search -/

/-- The search ends at the first grid that suits. -/
theorem searchGrids_spec (x : Binary f) (tie : Tie) (steps : Nat) (k : Int) :
    (x.searchGrids tie k steps).exponent ≤ k ∧
      ∀ j, (x.searchGrids tie k steps).exponent < j → j ≤ k → x.onGrid? tie j = none := by
  induction steps generalizing k with
  | zero => exact ⟨le_refl _, fun j low high => absurd low (not_lt.2 high)⟩
  | succ steps ih =>
    rw [searchGrids]
    split
    · exact ⟨le_refl _, fun j low high => absurd low (not_lt.2 high)⟩
    · next none =>
      obtain ⟨below, earlier⟩ := ih (k - 1)
      refine ⟨by omega, fun j low high => ?_⟩
      rcases high.lt_or_eq with high | rfl
      · exact earlier j low (by omega)
      · exact none

/-- A number has no digit before those places. -/
theorem value_lt_wholePlaces (x : Binary f) : x.value < 10 ^ (x.wholePlaces : Int) := by
  obtain ⟨-, high⟩ := x.between_points 0
  have digits : (x.inUnits 0).1 / (x.inUnits 0).2 < 10 ^ x.wholePlaces :=
    (Nat.length_toDigits_le_iff (by decide) Nat.length_toDigits_pos).1 (le_refl _)
  refine lt_of_lt_of_le high ?_
  rw [Decimal.value, zpow_zero, mul_one, zpow_natCast]
  exact_mod_cast digits

/-- **No coarser grid** than that of the shortest decimal has a point that rounds to
the number. -/
theorem coarsest (hf : 1 < f.exponentBits) (hp : 0 < f.fractionBits) (tie : Tie)
    (finite : x.isFinite = true) (nonzero : x.magnitude ≠ 0) {d : Decimal} (near : x.Nearest d.value) :
    d.exponent ≤ (x.shortest tie).exponent := by
  by_contra coarser
  obtain ⟨c, k⟩ := d
  rw [shortest, if_neg nonzero, not_le] at coarser
  obtain ⟨-, none⟩ := x.searchGrids_spec tie (x.wholePlaces - min 0 x.scaled.2).toNat x.wholePlaces
  rcases lt_or_ge (x.wholePlaces : Int) k with large | within
  · -- Beyond the places of the number, a point is zero or more than ten times the number.
    have positive := value_pos nonzero
    have unit := unit_le_value nonzero
    obtain ⟨low, high⟩ := abs_le.1 (near.abs_sub_le finite nonzero)
    have value : Decimal.value ⟨c, k⟩ = c * 10 ^ k := rfl
    rw [value] at low high
    rcases Nat.eq_zero_or_pos c with rfl | some
    · rw [Nat.cast_zero, zero_mul] at low
      linarith
    · have places := x.value_lt_wholePlaces
      have tens : (10 : ℚ) * 10 ^ (x.wholePlaces : Int) ≤ 10 ^ k := by
        rw [← zpow_one_add₀ (by norm_num)]
        exact zpow_le_zpow_right₀ (by norm_num) (by omega)
      have point : (10 : ℚ) ^ k ≤ c * 10 ^ k :=
        le_mul_of_one_le_left (zpow_pos (by norm_num) _).le (by exact_mod_cast some)
      linarith
  · exact not_nearest_of_onGrid? hf hp finite (none k coarser within) c near

theorem nearest_shortest (hf : 1 < f.exponentBits) (hp : 0 < f.fractionBits) (tie : Tie)
    (finite : x.isFinite = true) : x.Nearest (x.shortest tie).value :=
  (readsBack_iff hf hp finite).1 (readsBack_shortest hf tie finite)

/-- Between two decimals of different lengths before the point there is a power of ten. -/
theorem Nearest.power {d d' : Decimal} (near : x.Nearest d.value) (near' : x.Nearest d'.value)
    (some : d.coefficient ≠ 0) (some' : d'.coefficient ≠ 0) (smaller : d.magnitude < d'.magnitude) :
    x.Nearest (Decimal.value ⟨1, d'.magnitude⟩) := by
  have low := Decimal.value_lt_zpow some
  have high := Decimal.zpow_magnitude_le some'
  have ordered : (10 : ℚ) ^ (d.magnitude + 1) ≤ 10 ^ d'.magnitude :=
    zpow_le_zpow_right₀ (by norm_num) smaller
  have power : Decimal.value ⟨1, d'.magnitude⟩ = 10 ^ d'.magnitude := by simp [Decimal.value]
  rw [power]
  exact near.between near' (by linarith) high

/-- **No decimal with fewer digits** than the shortest one rounds to the number. -/
theorem fewest_digits (hf : 1 < f.exponentBits) (hp : 0 < f.fractionBits) (tie : Tie)
    (finite : x.isFinite = true) {d : Decimal} (near : x.Nearest d.value) : (x.shortest tie).digits.length ≤ d.digits.length := by
  have one := d.length_digits_pos
  by_cases nonzero : x.magnitude = 0
  · have zero : x.shortest tie = ⟨0, 0⟩ := if_pos nonzero
    rw [zero]
    exact one
  have grid := coarsest hf hp tie finite nonzero near
  have here := nearest_shortest hf hp tie finite
  have some := coefficient_ne_zero nonzero ((readsBack_iff hf hp finite).2 near)
  have some' := coefficient_ne_zero nonzero ((readsBack_iff hf hp finite).2 here)
  rcases lt_or_ge d.magnitude (x.shortest tie).magnitude with smaller | larger
  · have single : (x.shortest tie).magnitude ≤ (x.shortest tie).exponent :=
      coarsest hf hp tie finite nonzero (near.power here some some' smaller)
    simp only [Decimal.magnitude] at single
    omega
  · simp only [Decimal.magnitude] at larger
    omega

end Binary

end SqlSelect
