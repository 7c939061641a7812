import Mathlib
import SqlSelect.Identifier
import SqlSelect.Proofs.Keyword.Search

/-!
# Names without regard to case

`SameButCase` says of two texts that they differ in the case of ASCII letters at most,
character by character. Writing a word in upper case takes out just this difference
(`upper_eq_iff`), so looking up a word finds it exactly if the table of reserved words has
it in some case. Whether the characters of a name let it stand bare does not depend on the
case either (`SameButCase.isSafe_eq`), and so neither does whether a name is quoted
(**`Keyword.isReserved_ignoring_case`**).
-/

set_option autoImplicit false

namespace SqlSelect

/-! ## Characters -/

/-- The characters are the same, or they are one ASCII letter in its two cases. -/
def SameLetter (c d : Char) : Prop :=
  c = d ∨ (c.isUpper = true ∧ d.toNat = c.toNat + 32) ∨ (d.isUpper = true ∧ c.toNat = d.toNat + 32)

instance (c d : Char) : Decidable (SameLetter c d) := inferInstanceAs (Decidable (_ ∨ _))

theorem isUpper_iff {c : Char} : c.isUpper = true ↔ 65 ≤ c.toNat ∧ c.toNat ≤ 90 := by
  rw [Char.isUpper, decide_eq_true_eq]
  exact Iff.rfl

theorem isLower_iff {c : Char} : c.isLower = true ↔ 97 ≤ c.toNat ∧ c.toNat ≤ 122 := by
  rw [Char.isLower, Bool.and_eq_true, decide_eq_true_eq, decide_eq_true_eq]
  exact Iff.rfl

theorem toNat_toUpper (c : Char) : c.toUpper.toNat = if c.isLower then c.toNat - 32 else c.toNat := by
  have range : ('a'.val ≤ c.val ∧ c.val ≤ 'z'.val) ↔ c.isLower = true := isLower_iff.symm
  have shift : ('A'.val - 'a'.val).toNat = 2 ^ 32 - 32 := rfl
  by_cases lower : c.isLower = true
  · rw [if_pos lower, Char.toUpper, dif_pos (range.2 lower), ← Char.toNat_val, UInt32.toNat_add, shift,
      Char.toNat_val]
    have bounds := isLower_iff.1 lower
    omega
  · rw [if_neg lower, Char.toUpper, dif_neg (mt range.1 lower)]

/-- Characters are the same in upper case if they differ in their case at most. -/
theorem toUpper_eq_iff {c d : Char} : c.toUpper = d.toUpper ↔ SameLetter c d := by
  rw [← Char.toNat_inj, toNat_toUpper, toNat_toUpper, SameLetter, ← Char.toNat_inj]
  simp only [isUpper_iff, isLower_iff]
  split <;> split <;> omega

namespace SameLetter

variable {c d : Char}

/-- Characters that differ are letters, both of them. -/
theorem eq_or_isAlpha (h : SameLetter c d) : c = d ∨ (c.isAlpha = true ∧ d.isAlpha = true) := by
  simp only [SameLetter, Char.isAlpha, Bool.or_eq_true, isUpper_iff, isLower_iff] at h ⊢
  rcases h with same | small | capital
  · exact .inl same
  · exact .inr (by omega)
  · exact .inr (by omega)

/-- The case of a letter does not decide whether it may begin a name. -/
theorem isStart_eq (h : SameLetter c d) : Identifier.isStart c = Identifier.isStart d := by
  rcases h.eq_or_isAlpha with rfl | ⟨alpha, alpha'⟩
  · rfl
  · rw [Identifier.isStart, Identifier.isStart, alpha, alpha']
    simp only [Bool.or_true]

/-- Nor whether it may be in one. -/
theorem isPart_eq (h : SameLetter c d) : Identifier.isPart c = Identifier.isPart d := by
  rcases h.eq_or_isAlpha with rfl | ⟨alpha, alpha'⟩
  · rfl
  · rw [Identifier.isPart, Identifier.isPart, Char.isAlphanum, Char.isAlphanum, alpha, alpha']
    simp only [Bool.true_or, Bool.or_true]

end SameLetter

/-! ## Texts -/

/-- The texts differ in the case of ASCII letters at most. -/
def SameButCase (a b : String) : Prop := List.Forall₂ SameLetter a.toList b.toList

instance (a b : String) : Decidable (SameButCase a b) :=
  inferInstanceAs (Decidable (List.Forall₂ SameLetter a.toList b.toList))

namespace Keyword

/-- **Upper case** takes out the case of letters, and nothing else. -/
theorem upper_eq_iff {a b : String} : upper a = upper b ↔ SameButCase a b := by
  rw [upper, upper, String.ofList_inj, ← List.forall₂_eq_eq_eq, List.forall₂_map_left_iff,
    List.forall₂_map_right_iff]
  simp only [toUpper_eq_iff]
  exact Iff.rfl

/-- Words that differ in case alone are reserved together. -/
theorem isReserved_congr {a b : String} (h : SameButCase a b) : isReserved a = isReserved b := by
  rw [Bool.eq_iff_iff, isReserved_iff_mem, isReserved_iff_mem, upper_eq_iff.2 h]

theorem isAscii_of_isReserved {word : String} (h : isReserved word = true) : isAscii word = true :=
  isAscii_of_upper (isAscii_reserved _ (isReserved_iff_mem.1 h))

end Keyword

namespace SameButCase

variable {a b : String}

theorem all_isPart_eq {cs ds : List Char} (h : List.Forall₂ SameLetter cs ds) :
    cs.all Identifier.isPart = ds.all Identifier.isPart := by
  induction h with
  | nil => rfl
  | cons first _ ih => rw [List.all_cons, List.all_cons, first.isPart_eq, ih]

/-- Either name may stand bare by its characters if the other one may. -/
theorem isSafe_eq (h : SameButCase a b) : Identifier.isSafe a = Identifier.isSafe b := by
  unfold SameButCase at h
  rw [Identifier.isSafe, Identifier.isSafe]
  generalize a.toList = cs at h
  generalize b.toList = ds at h
  cases h with
  | nil => rfl
  | cons first rest => simp only [first.isStart_eq, all_isPart_eq rest]

/-- Names that differ in case alone are quoted together. -/
theorem needsQuotes_eq (h : SameButCase a b) : Identifier.needsQuotes a = Identifier.needsQuotes b := by
  rw [Identifier.needsQuotes, Identifier.needsQuotes, h.isSafe_eq, Keyword.isReserved_congr h]

end SameButCase

/-- **Looking up a reserved word** by halving finds what the table says: the words that some
entry equals but for the case of ASCII letters, so none with another character. Names that
differ in this alone have to be quoted or not, both of them, and stand bare or between
backticks together. -/
theorem Keyword.isReserved_ignoring_case :
    (∀ word : String, isReserved word = true ↔ ∃ entry ∈ reserved, SameButCase entry word) ∧
    (∀ word : String, ∀ c ∈ word.toList, 128 ≤ c.toNat → isReserved word = false) ∧
    ∀ a b : String, SameButCase a b →
      Identifier.needsQuotes a = Identifier.needsQuotes b ∧
        ((Identifier.sql a = a ∧ Identifier.sql b = b) ∨
          (Identifier.sql a = "\x60" ++ Identifier.escape a ++ "\x60" ∧
            Identifier.sql b = "\x60" ++ Identifier.escape b ++ "\x60")) := by
  refine ⟨fun word => ?_, fun word c member beyond => ?_, fun a b same => ?_⟩
  · rw [isReserved_iff]
    simp only [upper_eq_iff]
  · by_contra found
    have ascii := isAscii_of_isReserved (Bool.not_eq_false _ ▸ found)
    rw [isAscii, List.all_eq_true] at ascii
    have within : c.toNat < 128 := of_decide_eq_true (ascii c member)
    omega
  · have needs := same.needsQuotes_eq
    refine ⟨needs, ?_⟩
    cases quoted : Identifier.needsQuotes a with
    | false =>
      have bare : ∀ name, Identifier.needsQuotes name = false → Identifier.sql name = name :=
        fun name h => by rw [Identifier.sql, h, if_neg Bool.false_ne_true]
      exact .inl ⟨bare a quoted, bare b (needs ▸ quoted)⟩
    | true =>
      refine .inr ⟨?_, ?_⟩
      · rw [Identifier.sql, if_pos quoted]
      · rw [Identifier.sql, if_pos (needs ▸ quoted)]

/-- A reserved word in two spellings; and the long s, which is an S in upper case, but not by
ASCII. -/
theorem Keyword.isReserved_ignoring_case_spelt :
    SameButCase "PREWHERE" "PreWhere" ∧ isReserved "PreWhere" = true ∧
      (128 ≤ '\u017f'.toNat ∧ isReserved "\u017fet" = false) ∧
      SameButCase "PreWhere" "prewhere" ∧
      Identifier.needsQuotes "PreWhere" = Identifier.needsQuotes "prewhere" ∧
      ((Identifier.sql "PreWhere" = "PreWhere" ∧ Identifier.sql "prewhere" = "prewhere") ∨
        (Identifier.sql "PreWhere" = "\x60" ++ Identifier.escape "PreWhere" ++ "\x60" ∧
          Identifier.sql "prewhere" = "\x60" ++ Identifier.escape "prewhere" ++ "\x60")) := by
  obtain ⟨found, beyond, together⟩ := isReserved_ignoring_case
  have entry : SameButCase "PREWHERE" "PreWhere" := by decide +kernel
  have same : SameButCase "PreWhere" "prewhere" := by decide +kernel
  have long : 128 ≤ '\u017f'.toNat := by decide
  exact ⟨entry, (found "PreWhere").2 ⟨"PREWHERE", by decide +kernel, entry⟩,
    ⟨long, beyond "\u017fet" '\u017f' (by decide +kernel) long⟩, same, together _ _ same⟩

end SqlSelect
