import SqlSelect.Json.Number
import SqlSelect.Json.Printer
import SqlSelect.Json.Reader
import SqlSelect.Proofs.Decimal.Digits

/-!
# Scalars read back

The text of a string or a number reads back as it was written
(`readText_quote`, `readNumber_text`). For a number that takes a numeral without
superfluous zeros in front, as integers and floats have it.
-/

set_option autoImplicit false

namespace SqlSelect

/-! ## Numerals -/

/-- A numeral with digits where they belong, and no superfluous zero in front. -/
structure Numeral.Written (n : Numeral) : Prop extends n.Readable where
  leading : ∀ d ds, n.whole ≠ '0' :: d :: ds

/-- The digits of a number have no superfluous zero in front. -/
theorem toDigits_ne_zero_cons (n : Nat) (d : Char) (ds : List Char) :
    Nat.toDigits 10 n ≠ '0' :: d :: ds := by
  induction n using Nat.strongRecOn generalizing d ds with
  | ind n ih =>
    intro h
    by_cases small : n < 10
    · rw [Nat.toDigits_of_lt_base small] at h
      simp at h
    · have front := Nat.toDigits_of_base_le (by decide) (Nat.not_lt.1 small)
      rw [front] at h
      cases hq : Nat.toDigits 10 (n / 10) with
      | nil => exact Nat.toDigits_ne_nil hq
      | cons c cs =>
        rw [hq, List.cons_append] at h
        obtain ⟨rfl, h⟩ := List.cons.inj h
        cases cs with
        | cons c' cs => exact ih (n / 10) (Nat.div_lt_self (by omega) (by decide)) c' cs hq
        | nil =>
          -- One digit zero in front means that nothing was in front.
          have value : Nat.ofDigitChars 10 (Nat.toDigits 10 (n / 10)) 0 = n / 10 :=
            Nat.ofDigitChars_ten_toDigits
          rw [hq] at value
          have zero : Nat.ofDigitChars 10 ['0'] 0 = 0 := by decide
          omega

theorem Numeral.written_ofInt (n : Int) : (Numeral.ofInt n).Written where
  toReadable := readable_ofInt n
  leading := toDigits_ne_zero_cons _

/-- A decimal in scientific form has one digit before the point. -/
theorem Decimal.written_scientific (negative : Bool) (d : Decimal) :
    (d.scientific negative).Written where
  toReadable := readable_scientific negative d
  leading c cs h := by
    have one : (d.scientific negative).whole.length ≤ 1 := by
      rw [scientific, List.length_take]
      omega
    rw [h] at one
    simp at one

/-- A decimal other than `0` times a power of ten is written without zeros in front. -/
theorem Decimal.written_positional (negative : Bool) {d : Decimal}
    (h : d.coefficient = 0 → d.exponent ≤ 0) : (d.positional negative).Written where
  toReadable := readable_positional negative d
  leading c cs := by
    have digits := toDigits_ne_zero_cons d.coefficient
    have pos := d.length_digits_pos
    unfold positional
    split
    · next he =>
      intro hw
      have hw' : d.digits ++ List.replicate d.exponent.toNat '0' = '0' :: c :: cs := hw
      cases hd : d.digits with
      | nil =>
        rw [hd] at pos
        simp at pos
      | cons c₁ cs₁ =>
        rw [hd, List.cons_append] at hw'
        obtain ⟨rfl, hrest⟩ := List.cons.inj hw'
        cases cs₁ with
        | cons c₂ cs₂ => exact digits c₂ cs₂ hd
        | nil =>
          have zero : d.coefficient = 0 := by
            have value : Nat.ofDigitChars 10 d.digits 0 = d.coefficient := Nat.ofDigitChars_ten_toDigits
            rw [hd] at value
            rw [← value]
            decide
          have exponent : d.exponent.toNat = 0 := by
            have := h zero
            omega
          rw [exponent] at hrest
          simp at hrest
    · simp only []
      split
      · next hp =>
        intro hw
        have hw' : d.digits.take (d.digits.length - (-d.exponent).toNat) = '0' :: c :: cs := hw
        have front : '0' :: c :: cs <+: d.digits := hw' ▸ List.take_prefix _ _
        obtain ⟨rest, hrest⟩ := front
        exact digits c (cs ++ rest) hrest.symm
      · intro hw
        cases hw

namespace Json

/-! ## Numbers -/

/-- A text that does not go on with a number, as what follows a value. -/
def Ends (rest : List Char) : Prop :=
  ∀ c ∈ rest.head?, c.isDigit = false ∧ c ≠ '.' ∧ c ≠ 'e' ∧ c ≠ 'E'

theorem ends_nil : Ends [] := by simp [Ends]

theorem ends_cons {c : Char} {rest : List Char} (h : c = ',' ∨ c = ']' ∨ c = '\x7d') :
    Ends (c :: rest) := by
  rcases h with rfl | rfl | rfl <;> simp [Ends]

theorem ends_blank {c : Char} {rest : List Char} (h : isBlank c = true) : Ends (c :: rest) := by
  simp only [isBlank, Bool.or_eq_true, decide_eq_true_eq] at h
  rcases h with ((rfl | rfl) | rfl) | rfl <;> simp [Ends]

/-- Digits are taken up to where something else begins. -/
theorem span_digits {ds rest : List Char} (h : ∀ c ∈ ds, c.isDigit = true)
    (hr : ∀ c ∈ rest.head?, c.isDigit = false) : (ds ++ rest).span Char.isDigit = (ds, rest) := by
  obtain ⟨taken, dropped⟩ := takeWhile_digits rest h hr
  rw [List.span_eq_takeWhile_dropWhile, taken, dropped]

def exponentChars (n : Numeral) : List Char :=
  ((n.exponent.map Numeral.exponentText).getD "").toList

theorem toList_exponentText (e : Int) : (Numeral.exponentText e).toList =
    'e' :: (if e < 0 then '-' else '+') :: Nat.toDigits 10 e.natAbs := by
  by_cases h : e < 0 <;> simp [Numeral.exponentText, h]

/-- The sign of an exponent, if it has one. -/
def exponentSign : Option Bool → List Char
  | none => []
  | some negative => [if negative then '-' else '+']

/-- An exponent after its mark: perhaps a sign, and digits. -/
theorem readExponent_digits (n : Numeral) (sign : Option Bool) {ds rest : List Char}
    (digits : ∀ c ∈ ds, c.isDigit = true) (filled : ds ≠ []) (h : Ends rest) :
    readExponent n (exponentSign sign ++ (ds ++ rest)) =
      (.number { n with
        exponent := some (if sign.getD false then -(Nat.ofDigitChars 10 ds 0 : Int)
          else Nat.ofDigitChars 10 ds 0) }, some rest) := by
  have read := span_digits digits fun c hc => (h c hc).1
  have filled' : ds.isEmpty = false := List.isEmpty_eq_false_iff.2 filled
  cases sign with
  | some negative =>
    cases negative <;>
      simp only [exponentSign, List.cons_append, List.nil_append, readExponent, read, filled',
        Bool.false_eq_true, ↓reduceIte, Option.getD_some]
  | none =>
    have front : ∀ c cs, ds ++ rest = c :: cs → c.isDigit = true := by
      intro c cs hc
      obtain ⟨d, ds', rfl⟩ := List.exists_cons_of_ne_nil filled
      rw [← (List.cons.inj hc).1]
      exact digits d List.mem_cons_self
    rw [exponentSign, List.nil_append]
    unfold readExponent
    split
    next negative left plain =>
    split at plain
    · next hc => exact absurd (front _ _ hc) (by decide)
    · next hc => exact absurd (front _ _ hc) (by decide)
    · obtain ⟨rfl, rfl⟩ := Prod.mk.inj plain
      simp only [read, filled', Bool.false_eq_true, ↓reduceIte, Option.getD_none]

/-- Without an exponent, a number ends where its fraction does. -/
theorem readScale_ends (n : Numeral) {rest : List Char} (h : Ends rest) :
    readScale n rest = (.number n, some rest) := by
  unfold readScale
  split
  · exact absurd rfl (h 'e' (by simp)).2.2.1
  · exact absurd rfl (h 'E' (by simp)).2.2.2
  · rfl

/-- An exponent as it is written is read back. -/
theorem readScale_exponentChars (n : Numeral) {rest : List Char} (h : Ends rest) :
    readScale { n with exponent := none } (exponentChars n ++ rest) = (.number n, some rest) := by
  obtain ⟨negative, whole, fraction, exponent⟩ := n
  cases exponent with
  | none => exact readScale_ends _ h
  | some e =>
    have value : Nat.ofDigitChars 10 (Nat.toDigits 10 e.natAbs) 0 = e.natAbs :=
      Nat.ofDigitChars_ten_toDigits
    have size : (if decide (e < 0) then -(e.natAbs : Int) else e.natAbs) = e := by
      simp only [decide_eq_true_eq]
      split <;> omega
    have sign : exponentSign (some (decide (e < 0))) = [if e < 0 then '-' else '+'] := by
      simp [exponentSign]
    have digits : ∀ c ∈ Nat.toDigits 10 e.natAbs, c.isDigit = true := isDigit_toDigits
    have read := readExponent_digits { negative, whole, fraction, exponent := none }
      (some (decide (e < 0))) digits Nat.toDigits_ne_nil h
    rw [sign, value, Option.getD_some, size] at read
    rw [exponentChars, Option.map_some, Option.getD_some, toList_exponentText]
    exact read

/-- A text neither goes on with digits nor begins a fraction. -/
def Stops (cs : List Char) : Prop := ∀ c ∈ cs.head?, c.isDigit = false ∧ c ≠ '.'

theorem stops_of_ends {rest : List Char} (h : Ends rest) : Stops rest :=
  fun c hc => ⟨(h c hc).1, (h c hc).2.1⟩

theorem stops_exponentChars (n : Numeral) {rest : List Char} (h : Ends rest) :
    Stops (exponentChars n ++ rest) := by
  obtain ⟨negative, whole, fraction, exponent⟩ := n
  cases exponent with
  | none => exact stops_of_ends h
  | some e =>
    rw [exponentChars, Option.map_some, Option.getD_some, toList_exponentText]
    simp [Stops]

def fractionChars (n : Numeral) : List Char :=
  if n.fraction.isEmpty then [] else '.' :: n.fraction

section

variable {n : Numeral} {cs : List Char} {r : Reading Value}

/-- A fraction, if there is one, and what is read after it. -/
theorem readFraction_fractionChars (hn : n.Readable) (stops : Stops cs)
    (scale : readScale { n with exponent := none } cs = r) :
    readFraction { n with fraction := [], exponent := none } (fractionChars n ++ cs) = r := by
  unfold fractionChars
  cases hf : n.fraction with
  | nil =>
    have same : ({ n with exponent := none } : Numeral) = { n with fraction := [], exponent := none } := by
      rw [hf]
    rw [same] at scale
    rw [List.isEmpty_nil, if_pos rfl, List.nil_append]
    unfold readFraction
    split
    · next hc => exact absurd rfl (stops '.' (by simp)).2
    · exact scale
  | cons d ds =>
    have read := span_digits hn.fraction fun c hc => (stops c hc).1
    rw [hf] at read
    simp only [List.isEmpty_cons, Bool.false_eq_true, ↓reduceIte, List.cons_append, readFraction]
    rw [List.cons_append] at read
    rw [read]
    simp only [List.isEmpty_cons, Bool.false_eq_true, ↓reduceIte]
    have same : ({ n with exponent := none } : Numeral) =
        { n with fraction := d :: ds, exponent := none } := by
      rw [hf]
    rwa [same] at scale

theorem not_isDigit_fractionChars (n : Numeral) (stops : Stops cs) :
    ∀ c ∈ (fractionChars n ++ cs).head?, c.isDigit = false := by
  unfold fractionChars
  split
  · exact fun c hc => (stops c hc).1
  · simp

/-- The digits before the point, and what is read after them. -/
theorem readUnsigned_whole (hn : n.Written) (stops : Stops cs)
    (scale : readScale { n with exponent := none } cs = r) :
    readUnsigned n.negative (n.whole ++ (fractionChars n ++ cs)) = r := by
  have read := span_digits hn.whole (not_isDigit_fractionChars n stops)
  have fraction := readFraction_fractionChars hn.toReadable stops scale
  unfold readUnsigned
  rw [read]
  simp only []
  split
  · next hw => exact absurd hw hn.whole_ne_nil
  · next d ds hw => exact absurd hw (hn.leading d ds)
  · exact fraction

/-- **A number up to its exponent**, and what is read after it. -/
theorem readNumber_append (hn : n.Written) (stops : Stops cs)
    (scale : readScale { n with exponent := none } cs = r) :
    readNumber ((if n.negative then ['-'] else []) ++ (n.whole ++ (fractionChars n ++ cs))) = r := by
  have unsigned := readUnsigned_whole hn stops scale
  cases hs : n.negative with
  | true =>
    rw [hs] at unsigned
    simpa only [↓reduceIte, List.singleton_append, readNumber] using unsigned
  | false =>
    rw [hs] at unsigned
    simp only [Bool.false_eq_true, ↓reduceIte, List.nil_append]
    unfold readNumber
    split
    · next rest hr =>
      obtain ⟨c, ds, hw⟩ := List.exists_cons_of_ne_nil hn.whole_ne_nil
      have hc : c.isDigit = true := hn.whole c (by rw [hw]; simp)
      rw [hw, List.cons_append] at hr
      rw [(List.cons.inj hr).1] at hc
      exact absurd hc (by decide)
    · exact unsigned

end

/-- A numeral is its sign, its whole part, its fraction and its exponent in a row. -/
theorem toList_text_eq (n : Numeral) : n.text.toList =
    (if n.negative then ['-'] else []) ++ (n.whole ++ (fractionChars n ++ exponentChars n)) := by
  simp only [Numeral.text, String.toList_append, String.toList_ofList, List.append_assoc,
    apply_ite String.toList, fractionChars, exponentChars]
  rfl

/-- **A number** reads back as it was written. -/
theorem readNumber_text {n : Numeral} (hn : n.Written) {rest : List Char} (h : Ends rest) :
    readNumber (n.text.toList ++ rest) = (.number n, some rest) := by
  have read := readNumber_append hn (stops_exponentChars n h) (readScale_exponentChars n h)
  rw [toList_text_eq]
  simpa only [List.append_assoc] using read

/-! ## Strings -/

/-- A control character is read back from its four digits. -/
theorem codeUnit?_hexDigit : ∀ n < 32,
    codeUnit? '0' '0' (hexDigit (n / 16)) (hexDigit (n % 16)) = some n := by
  decide

theorem readText_push (cs rest : List Char) (c : Char) (h : c ≠ '\x22') (hb : c ≠ '\x5c')
    (hc : ¬ c.toNat < 0x20) :
    readText { characters := cs } (c :: rest) = readText { characters := c :: cs } rest := by
  rw [readText.eq_def]
  split
  all_goals simp_all [TextState.push, TextState.settle]

/-- Step: an escaped character is read back. -/
theorem readText_escapeChar (cs rest : List Char) (c : Char) :
    readText { characters := cs } (escapeChar c ++ rest) =
      readText { characters := c :: cs } rest := by
  unfold escapeChar
  split
  · next h => subst h; rfl
  split
  · next h => subst h; rfl
  split
  · next h => subst h; rfl
  split
  · next h => subst h; rfl
  split
  · next h => subst h; rfl
  split
  · next h => subst h; rfl
  split
  · next h => subst h; rfl
  split
  · next h =>
    have unit := codeUnit?_hexDigit c.toNat h
    have low : ¬ (0xdc00 ≤ c.toNat ∧ c.toNat ≤ 0xdfff) := by omega
    have high : ¬ (0xd800 ≤ c.toNat ∧ c.toNat ≤ 0xdbff) := by omega
    simp only [List.cons_append, List.nil_append, readText, unit]
    simp [TextState.pushUnit, TextState.settle, low, high]
  · next hq hb _ _ _ _ _ hc => exact readText_push cs rest c hq hb hc

/-- An escaped string is read back up to its closing quote. -/
theorem readText_escape (s cs rest : List Char) :
    readText { characters := cs } (s.flatMap escapeChar ++ '\x22' :: rest) =
      (.ok (String.ofList (cs.reverse ++ s)), some rest) := by
  induction s generalizing cs with
  | nil =>
    rw [List.flatMap_nil, List.nil_append, readText, List.append_nil]
    rfl
  | cons c s ih =>
    rw [List.flatMap_cons, List.append_assoc, readText_escapeChar, ih]
    simp

theorem toList_quote (s : String) :
    (quote s).toList = '\x22' :: (s.toList.flatMap escapeChar ++ ['\x22']) := by
  simp [quote]

/-- **A string** reads back as it was written. -/
theorem readText_quote (s : String) (rest : List Char) :
    readText {} (s.toList.flatMap escapeChar ++ '\x22' :: rest) = (.ok s, some rest) := by
  rw [readText_escape]
  simp

end Json

end SqlSelect
