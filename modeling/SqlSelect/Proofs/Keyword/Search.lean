import Mathlib
import SqlSelect.Keyword

/-!
# Looking up reserved words

Halving finds a word in an ascending table exactly if the word is there
(`isBetween_iff`). The table of reserved words is ascending and in upper case, so
`isReserved` says whether some reserved word has the same letters, whatever
their case (`isReserved_iff`).
-/

set_option autoImplicit false

namespace SqlSelect.Keyword

/-- The entries of a table come in ascending order. -/
def Ascending (table : Array String) : Prop :=
  ∀ i j : Nat, ∀ a b : String, i < j → table[i]? = some a → table[j]? = some b → a < b

/-- A list is ascending if each entry is smaller than the next one. -/
theorem ascending_of_isChain {table : Array String}
    (h : table.toList.IsChain (· < ·)) : Ascending table := by
  have pairwise := List.isChain_iff_pairwise.1 h
  intro i j a b hij ha hb
  rw [← Array.getElem?_toList] at ha hb
  obtain ⟨hi, rfl⟩ := List.getElem?_eq_some_iff.1 ha
  obtain ⟨hj, rfl⟩ := List.getElem?_eq_some_iff.1 hb
  exact List.pairwise_iff_getElem.1 pairwise i j hi hj hij

/-- **Halving** finds the words between two places, and no others. -/
theorem isBetween_iff {table : Array String} (sorted : Ascending table) (word : String)
    (low high : Nat) (bound : high ≤ table.size) :
    isBetween table word low high = true ↔
      ∃ i, low ≤ i ∧ i < high ∧ table[i]? = some word := by
  fun_induction isBetween table word low high with
  | case1 low high h middle hm =>
    have := Array.getElem?_eq_none_iff.1 hm
    omega
  | case2 low high h middle hm =>
    exact iff_of_true rfl ⟨middle, by omega, by omega, hm⟩
  | case3 low high h middle entry hm ne less ih =>
    rw [ih bound]
    constructor
    · rintro ⟨i, hl, hh, hi⟩
      exact ⟨i, by omega, hh, hi⟩
    · rintro ⟨i, hl, hh, hi⟩
      refine ⟨i, ?_, hh, hi⟩
      -- A place up to the middle holds the middle entry or a smaller one.
      by_contra hle
      rcases Nat.lt_or_eq_of_le (by omega : i ≤ middle) with lt | rfl
      · exact lt_asymm less (sorted i middle word entry lt hi hm)
      · exact ne (Option.some.inj (hm.symm.trans hi))
  | case4 low high h middle entry hm ne notLess ih =>
    rw [ih (by omega)]
    constructor
    · rintro ⟨i, hl, hh, hi⟩
      exact ⟨i, hl, by omega, hi⟩
    · rintro ⟨i, hl, hh, hi⟩
      refine ⟨i, hl, ?_, hi⟩
      by_contra hge
      rcases Nat.lt_or_eq_of_le (by omega : middle ≤ i) with lt | rfl
      · exact notLess (sorted middle i entry word lt hm hi)
      · exact ne (Option.some.inj (hm.symm.trans hi))
  | case5 low high h =>
    apply iff_of_false (by simp)
    rintro ⟨i, hl, hh, -⟩
    omega

/-- The table is in order, which the search relies on. -/
theorem reserved_ascending : Ascending reserved :=
  ascending_of_isChain (by decide +kernel)

theorem isUpper_reserved : ∀ entry ∈ reserved.toList, entry.toList.all Char.isUpper = true := by
  decide +kernel

theorem toUpper_of_isUpper {c : Char} (h : c.isUpper = true) : c.toUpper = c := by
  simp only [Char.isUpper, decide_eq_true_eq] at h
  rw [Char.toUpper, dif_neg]
  exact fun low => absurd (UInt32.le_trans low.1 h.2) (by decide)

/-- The entries of the table are in capitals. -/
theorem upper_reserved : ∀ entry ∈ reserved, upper entry = entry := by
  intro entry h
  have all := isUpper_reserved entry (Array.mem_toList_iff.2 h)
  rw [List.all_eq_true] at all
  rw [upper, List.map_congr_left (fun c hc => toUpper_of_isUpper (all c hc)), List.map_id',
    String.ofList_toList]

theorem isAscii_reserved : ∀ entry ∈ reserved, isAscii entry = true := by
  intro entry h
  have all := isUpper_reserved entry (Array.mem_toList_iff.2 h)
  rw [isAscii, List.all_eq_true]
  intro c hc
  have upper := List.all_eq_true.1 all c hc
  simp only [Char.isUpper, decide_eq_true_eq] at upper
  have : c.toNat ≤ 'Z'.toNat := upper.2
  have : 'Z'.toNat = 90 := rfl
  rw [decide_eq_true_eq]
  omega

theorem mem_reserved_iff {word : String} :
    word ∈ reserved ↔ ∃ i, 0 ≤ i ∧ i < reserved.size ∧ reserved[i]? = some word := by
  rw [Array.mem_iff_getElem?]
  constructor
  · rintro ⟨i, hi⟩
    obtain ⟨h, -⟩ := Array.getElem?_eq_some_iff.1 hi
    exact ⟨i, Nat.zero_le i, h, hi⟩
  · rintro ⟨i, -, -, hi⟩
    exact ⟨i, hi⟩

theorem toUpper_lt {c : Char} (h : c.toUpper.toNat < 128) : c.toNat < 128 := by
  by_contra hc
  rw [Char.toUpper] at h
  split at h
  · next hl =>
    have : c.toNat ≤ 'z'.toNat := hl.2
    have : 'z'.toNat = 122 := rfl
    omega
  · exact hc h

/-- Capitals that are ASCII come from ASCII alone. -/
theorem isAscii_of_upper {word : String} (h : isAscii (upper word) = true) :
    isAscii word = true := by
  simp only [isAscii, upper, String.toList_ofList, List.all_map, List.all_eq_true,
    Function.comp_apply, decide_eq_true_eq] at h ⊢
  exact fun c hc => toUpper_lt (h c hc)

/-- A word is reserved if the table has it in upper case. -/
theorem isReserved_iff_mem {word : String} :
    isReserved word = true ↔ upper word ∈ reserved := by
  rw [isReserved, Bool.and_eq_true,
    isBetween_iff reserved_ascending (upper word) 0 reserved.size (Nat.le_refl _),
    ← mem_reserved_iff]
  constructor
  · exact fun h => h.2
  · exact fun h => ⟨isAscii_of_upper (isAscii_reserved _ h), h⟩

/-- **Reserved words** are those that some entry of the table equals, letter by
letter and whatever the case. -/
theorem isReserved_iff {word : String} :
    isReserved word = true ↔ ∃ entry ∈ reserved, upper entry = upper word := by
  rw [isReserved_iff_mem]
  constructor
  · exact fun h => ⟨upper word, h, upper_reserved _ h⟩
  · rintro ⟨entry, h, e⟩
    rw [upper_reserved entry h] at e
    exact e ▸ h

end SqlSelect.Keyword
