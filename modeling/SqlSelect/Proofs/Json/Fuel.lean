import Mathlib
import SqlSelect.Json.Reader

/-!
# Enough steps

No function of the reader leaves more text than it was given (`leaves` and the
lemmas before it), so three steps for each character are enough: with more of them it
reads the same (`readValue_of_le`, `readMember_of_le`).
-/

set_option autoImplicit false

namespace SqlSelect.Json

/-- What is left after a reading, if anything can be read there, is no longer than that. -/
def Within {α : Type} (n : Nat) (r : Reading α) : Prop :=
  ∀ rest ∈ r.2, rest.length ≤ n

theorem within_none {α : Type} (n : Nat) (x : α) : Within n (x, none) := by
  simp [Within]

theorem within_some {α : Type} {n : Nat} {x : α} {rest : List Char} :
    Within n (x, some rest) ↔ rest.length ≤ n := by
  simp [Within]

theorem Within.mono {α : Type} {m n : Nat} {r : Reading α} (h : Within m r) (le : m ≤ n) : Within n r :=
  fun rest hr => (h rest hr).trans le

theorem length_skipBlanks (cs : List Char) : (skipBlanks cs).length ≤ cs.length :=
  List.length_dropWhile_le _ _

/-- A character that is taken after blanks shortens the text. -/
theorem length_of_skipBlanks {cs rest : List Char} {c : Char} (h : skipBlanks cs = c :: rest) :
    rest.length + 1 ≤ cs.length := by
  have front := length_skipBlanks cs
  rwa [h] at front

theorem length_span (p : Char → Bool) (cs : List Char) : (cs.span p).2.length ≤ cs.length := by
  rw [List.span_eq_takeWhile_dropWhile]
  exact List.length_dropWhile_le _ _

/-! ## Scalars -/

theorem length_afterWord {word cs rest : List Char} (h : afterWord word cs = .ok rest) :
    rest.length ≤ cs.length := by
  induction word generalizing cs with
  | nil =>
    obtain rfl := Except.ok.inj h
    exact le_refl _
  | cons w word ih =>
    cases cs with
    | nil => cases h
    | cons c cs =>
      rw [afterWord] at h
      split at h
      · exact (ih h).trans (Nat.le_succ _)
      · cases h

theorem within_null (cs : List Char) : Within cs.length (readNull cs) := by
  unfold readNull
  split
  · next rest h => exact within_some.2 (length_afterWord h)
  · exact within_none _ _

theorem within_boolean (b : Bool) (letters cs : List Char) :
    Within cs.length (readBoolean b letters cs) := by
  unfold readBoolean
  split
  · next rest h => exact within_some.2 (length_afterWord h)
  · exact within_none _ _

theorem within_exponent (n : Numeral) (cs : List Char) : Within cs.length (readExponent n cs) := by
  unfold readExponent
  split
  next negative rest sign =>
  have shorter : rest.length ≤ cs.length := by
    split at sign <;> cases sign <;> simp
  have left := length_span Char.isDigit rest
  simp only []
  split
  · exact within_none _ _
  · exact within_some.2 (left.trans shorter)

theorem within_scale (n : Numeral) (cs : List Char) : Within cs.length (readScale n cs) := by
  unfold readScale
  split
  · exact (within_exponent n _).mono (Nat.le_succ _)
  · exact (within_exponent n _).mono (Nat.le_succ _)
  · exact within_some.2 (le_refl _)

theorem within_fraction (n : Numeral) (cs : List Char) : Within cs.length (readFraction n cs) := by
  unfold readFraction
  split
  · next rest =>
    have left := length_span Char.isDigit rest
    simp only []
    split
    · exact within_none _ _
    · exact (within_scale _ _).mono (left.trans (Nat.le_succ _))
  · exact within_scale n cs

theorem within_unsigned (negative : Bool) (cs : List Char) :
    Within cs.length (readUnsigned negative cs) := by
  have left := length_span Char.isDigit cs
  unfold readUnsigned
  simp only []
  split
  · exact within_none _ _
  · exact within_none _ _
  · exact (within_fraction _ _).mono left

theorem within_number (cs : List Char) : Within cs.length (readNumber cs) := by
  unfold readNumber
  split
  · exact (within_unsigned true _).mono (Nat.le_succ _)
  · exact within_unsigned false cs

theorem within_close (s : TextState) (rest : List Char) : Within rest.length (s.close rest) := by
  unfold TextState.close
  split <;> exact within_some.2 (le_refl _)

theorem within_text (s : TextState) (cs : List Char) : Within cs.length (readText s cs) := by
  fun_induction readText s cs with
  | case2 s rest => exact (within_close s rest).mono (Nat.le_succ _)
  | case4 s a b c d rest unit _ ih =>
    refine ih.mono ?_
    simp only [List.length_cons]
    omega
  | case7 s c rest _ _ _ _ ih =>
    refine ih.mono ?_
    simp only [List.length_cons]
    omega
  | case10 s c rest _ _ _ _ _ _ ih => exact ih.mono (Nat.le_succ _)
  | _ => exact within_none _ _

/-- A scalar leaves no more than it was given, its first character included. -/
theorem within_scalar (c : Char) (rest : List Char) : Within (rest.length + 1) (readScalar c rest) := by
  have text := within_text {} rest
  have one : rest.length ≤ rest.length + 1 := Nat.le_succ _
  unfold readScalar
  split
  · exact fun left h => text.mono one left h
  split
  · exact (within_null rest).mono one
  split
  · exact (within_boolean true _ rest).mono one
  split
  · exact (within_boolean false _ rest).mono one
  split
  · exact within_number (c :: rest)
  · exact within_none _ _

theorem within_name (c : Char) (rest : List Char) : Within rest.length (readName c rest) := by
  unfold readName
  split
  · exact within_text {} rest
  · exact within_none _ _

/-! ## Values -/

/-- What the functions of the reader leave with that much fuel. -/
structure Leaves (fuel : Nat) : Prop where
  value : ∀ cs, Within cs.length (readValue fuel cs)
  items : ∀ cs, Within cs.length (readItems fuel cs)
  item : ∀ cs, Within cs.length (readItem fuel cs)
  members : ∀ cs, Within cs.length (readMembers fuel cs)
  member : ∀ c rest, Within rest.length (readMember fuel c rest)

namespace Leaves

variable {fuel : Nat}

theorem value_succ (ih : Leaves fuel) (cs : List Char) : Within cs.length (readValue (fuel + 1) cs) := by
  rw [readValue]
  split
  · exact within_none _ _
  · next rest h =>
    exact fun left hl => (ih.items rest).mono (Nat.le_of_succ_le (length_of_skipBlanks h)) left hl
  · next rest h =>
    exact fun left hl => (ih.members rest).mono (Nat.le_of_succ_le (length_of_skipBlanks h)) left hl
  · next c rest _ _ h => exact (within_scalar c rest).mono (length_of_skipBlanks h)

theorem items_succ (ih : Leaves fuel) (cs : List Char) : Within cs.length (readItems (fuel + 1) cs) := by
  rw [readItems]
  split
  · exact within_none _ _
  · next rest h => exact within_some.2 (Nat.le_of_succ_le (length_of_skipBlanks h))
  · exact (ih.item _).mono (length_skipBlanks cs)

/-- Step: an item and those after it leave no more than they were given. -/
theorem item_succ (ih : Leaves fuel) (cs : List Char) : Within cs.length (readItem (fuel + 1) cs) := by
  have here := ih.value cs
  rw [readItem]
  split
  · exact within_none _ _
  · next item rest h =>
    rw [h, within_some] at here
    split
    · exact within_none _ _
    · next rest h => exact within_some.2 ((Nat.le_of_succ_le (length_of_skipBlanks h)).trans here)
    · next rest h =>
      split
      · exact within_none _ _
      · have later := (length_skipBlanks rest).trans (Nat.le_of_succ_le (length_of_skipBlanks h))
        exact fun left hl => (ih.item _).mono (later.trans here) left hl
    · exact within_none _ _

theorem members_succ (ih : Leaves fuel) (cs : List Char) : Within cs.length (readMembers (fuel + 1) cs) := by
  rw [readMembers]
  split
  · exact within_none _ _
  · next rest h => exact within_some.2 (Nat.le_of_succ_le (length_of_skipBlanks h))
  · next c rest _ h => exact (ih.member c rest).mono (Nat.le_of_succ_le (length_of_skipBlanks h))

/-- Step: a member and those after it leave no more than they were given. -/
theorem member_succ (ih : Leaves fuel) (c : Char) (cs : List Char) :
    Within cs.length (readMember (fuel + 1) c cs) := by
  have here := within_name c cs
  rw [readMember]
  split
  · exact within_none _ _
  · next name rest h =>
    rw [h, within_some] at here
    split
    · exact within_none _ _
    · next rest h =>
      have front := length_of_skipBlanks h
      have content := ih.value rest
      split
      · exact within_none _ _
      · next value rest h =>
        rw [h, within_some] at content
        split
        · exact within_none _ _
        · next rest h =>
          have last := length_of_skipBlanks h
          exact within_some.2 (by omega)
        · next rest h =>
          have next := length_of_skipBlanks h
          split
          · exact within_none _ _
          · exact within_none _ _
          · next c rest _ h =>
            have later := length_of_skipBlanks h
            exact fun left hl => (ih.member c rest).mono (by omega) left hl
        · exact within_none _ _
    · exact within_none _ _

end Leaves

/-- **What a reader leaves** is no longer than what it was given, with any fuel. -/
theorem leaves (fuel : Nat) : Leaves fuel := by
  induction fuel with
  | zero => constructor <;> intros <;> exact within_none _ _
  | succ fuel ih => exact ⟨ih.value_succ, ih.items_succ, ih.item_succ, ih.members_succ, ih.member_succ⟩

/-- With that much fuel, the functions of the reader do as with one more, on the texts
for which it is enough. -/
structure Steady (fuel : Nat) : Prop where
  value : ∀ cs, 3 * cs.length + 1 ≤ fuel → readValue (fuel + 1) cs = readValue fuel cs
  items : ∀ cs, 3 * cs.length + 3 ≤ fuel → readItems (fuel + 1) cs = readItems fuel cs
  item : ∀ cs, 3 * cs.length + 2 ≤ fuel → readItem (fuel + 1) cs = readItem fuel cs
  members : ∀ cs, 3 * cs.length + 2 ≤ fuel → readMembers (fuel + 1) cs = readMembers fuel cs
  member : ∀ c rest, 3 * rest.length + 2 ≤ fuel →
    readMember (fuel + 1) c rest = readMember fuel c rest

namespace Steady

variable {fuel : Nat}

theorem value_succ (ih : Steady fuel) (cs : List Char) (enough : 3 * cs.length + 1 ≤ fuel + 1) :
    readValue (fuel + 2) cs = readValue (fuel + 1) cs := by
  rw [readValue, readValue]
  split
  · rfl
  · next rest h =>
    have front := length_of_skipBlanks h
    rw [ih.items rest (by omega)]
  · next rest h =>
    have front := length_of_skipBlanks h
    rw [ih.members rest (by omega)]
  · rfl

theorem items_succ (ih : Steady fuel) (cs : List Char) (enough : 3 * cs.length + 3 ≤ fuel + 1) :
    readItems (fuel + 2) cs = readItems (fuel + 1) cs := by
  have front := length_skipBlanks cs
  rw [readItems, readItems]
  split
  · rfl
  · rfl
  · exact ih.item _ (by omega)

theorem item_succ (ih : Steady fuel) (cs : List Char) (enough : 3 * cs.length + 2 ≤ fuel + 1) :
    readItem (fuel + 2) cs = readItem (fuel + 1) cs := by
  have here := (leaves fuel).value cs
  rw [readItem, readItem, ih.value cs (by omega)]
  split
  · rfl
  · next item rest h =>
    rw [h, within_some] at here
    split
    · rfl
    · rfl
    · next rest h =>
      have front := length_of_skipBlanks h
      have later := length_skipBlanks rest
      split
      · rfl
      · rw [ih.item _ (by omega)]
    · rfl

theorem members_succ (ih : Steady fuel) (cs : List Char) (enough : 3 * cs.length + 2 ≤ fuel + 1) :
    readMembers (fuel + 2) cs = readMembers (fuel + 1) cs := by
  rw [readMembers, readMembers]
  split
  · rfl
  · rfl
  · next c rest _ h =>
    have front := length_of_skipBlanks h
    exact ih.member c rest (by omega)

theorem member_succ (ih : Steady fuel) (c : Char) (cs : List Char) (enough : 3 * cs.length + 2 ≤ fuel + 1) :
    readMember (fuel + 2) c cs = readMember (fuel + 1) c cs := by
  have here := within_name c cs
  rw [readMember, readMember]
  split
  · rfl
  · next name rest h =>
    rw [h, within_some] at here
    split
    · rfl
    · next rest h =>
      have front := length_of_skipBlanks h
      have content := (leaves fuel).value rest
      rw [ih.value rest (by omega)]
      split
      · rfl
      · next value rest h =>
        rw [h, within_some] at content
        split
        · rfl
        · rfl
        · next rest h =>
          have next := length_of_skipBlanks h
          split
          · rfl
          · rfl
          · next c rest _ h =>
            have later := length_of_skipBlanks h
            rw [ih.member c rest (by omega)]
        · rfl
    · rfl

end Steady

/-- **Fuel that is enough** is enough: one unit more makes no difference. -/
theorem steady (fuel : Nat) : Steady fuel := by
  induction fuel with
  | zero => constructor <;> intros <;> omega
  | succ fuel ih => exact ⟨ih.value_succ, ih.items_succ, ih.item_succ, ih.members_succ, ih.member_succ⟩

/-- **Three steps for each character are enough** for a value. -/
theorem readValue_of_le {fuel more : Nat} {cs : List Char} (enough : 3 * cs.length + 1 ≤ fuel)
    (le : fuel ≤ more) : readValue more cs = readValue fuel cs := by
  induction le with
  | refl => rfl
  | step le ih => rw [(steady _).value cs (enough.trans le), ih]

/-- They are for members. -/
theorem readMember_of_le {fuel more : Nat} {c : Char} {rest : List Char}
    (enough : 3 * rest.length + 2 ≤ fuel) (le : fuel ≤ more) :
    readMember more c rest = readMember fuel c rest := by
  induction le with
  | refl => rfl
  | step le ih => rw [(steady _).member c rest (enough.trans le), ih]

end SqlSelect.Json
