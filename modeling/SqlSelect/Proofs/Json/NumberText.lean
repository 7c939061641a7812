import SqlSelect.Proofs.Json.Fuel
import SqlSelect.Proofs.Json.ReadBack

/-!
# Numbers as they are spelt

A `NumberText` is a number in any spelling that JSON has for one. It is read as the
numeral it spells, in front of anything that may follow a value
(`NumberText.readValue_text`), so it can be put in front of the members of an object
(**`NumberText.read_front`**). An integer has one spelling only, its digits
(`NumberText.text_eq_ofInt`).
-/

set_option autoImplicit false

namespace SqlSelect

/-! ## Digits -/

/-- A digit is the character of its value. -/
theorem digitChar_of_isDigit {c : Char} (h : c.isDigit = true) :
    c.toNat - '0'.toNat < 10 ∧ Nat.digitChar (c.toNat - '0'.toNat) = c := by
  have zero : '0'.toNat = 48 := rfl
  have nine : '9'.toNat = 57 := rfl
  have chars : ∀ n < 10, Nat.digitChar n = Char.ofNat ('0'.toNat + n) := by decide
  obtain ⟨low, high⟩ := Char.isDigit_iff_toNat.1 h
  have small : c.toNat - '0'.toNat < 10 := by omega
  refine ⟨small, ?_⟩
  rw [chars _ small, Nat.add_sub_cancel' low, Char.ofNat_toNat]

/-- **Digits without a superfluous zero** in front are the digits of the number they denote. -/
theorem toDigits_ofDigitChars {ds : List Char} (filled : ds ≠ []) (digits : ∀ c ∈ ds, c.isDigit = true)
    (leading : ∀ d ds', ds ≠ '0' :: d :: ds') : Nat.toDigits 10 (Nat.ofDigitChars 10 ds 0) = ds := by
  induction ds using List.reverseRecOn with
  | nil => exact absurd rfl filled
  | append_singleton ds d ih =>
    obtain ⟨small, last⟩ := digitChar_of_isDigit (digits d (by simp))
    have value : Nat.ofDigitChars 10 (ds ++ [d]) 0 =
        10 * Nat.ofDigitChars 10 ds 0 + (d.toNat - '0'.toNat) := by
      rw [Nat.ofDigitChars_append]
      rfl
    rw [value]
    by_cases single : ds = []
    · subst single
      rw [Nat.ofDigitChars_nil, Nat.mul_zero, Nat.zero_add, Nat.toDigits_of_lt_base small, last]
      rfl
    · have here := ih single (fun c hc => digits c (List.mem_append_left _ hc)) fun c cs h => by
        rw [h] at leading
        exact leading c (cs ++ [d]) rfl
      have positive : 0 < Nat.ofDigitChars 10 ds 0 := by
        refine Nat.pos_of_ne_zero fun zero => ?_
        rw [zero] at here
        exact leading d [] (by rw [← here]; rfl)
      rw [← Nat.toDigits_append_toDigits (by decide) positive small, here, Nat.toDigits_of_lt_base small,
        last]

namespace Json

/-! ## Spellings -/

/-- The exponent of a number as it is spelt: the mark may be a capital, and a sign may
be missing. -/
structure ExponentText where
  capital : Bool
  sign : Option Bool
  digits : List Char
  digits_ne_nil : digits ≠ []
  isDigit : ∀ c ∈ digits, c.isDigit = true

namespace ExponentText

def value (e : ExponentText) : Int :=
  if e.sign.getD false then -(Nat.ofDigitChars 10 e.digits 0 : Int) else Nat.ofDigitChars 10 e.digits 0

/-- The characters of the exponent. -/
def text (e : ExponentText) : String :=
  (if e.capital then "E" else "e") ++ String.ofList (exponentSign e.sign) ++ String.ofList e.digits

end ExponentText

/-- A number as it is spelt: no superfluous zero in front, and digits after a point and
in an exponent, if there is one. There is a point if `fraction` has digits. -/
structure NumberText where
  negative : Bool
  whole : List Char
  fraction : List Char
  exponent : Option ExponentText
  whole_ne_nil : whole ≠ []
  isDigit_whole : ∀ c ∈ whole, c.isDigit = true
  leading : ∀ d ds, whole ≠ '0' :: d :: ds
  isDigit_fraction : ∀ c ∈ fraction, c.isDigit = true

namespace NumberText

/-- The characters of the number. -/
def text (t : NumberText) : String :=
  (if t.negative then "-" else "") ++ String.ofList t.whole ++
    (if t.fraction.isEmpty then "" else "." ++ String.ofList t.fraction) ++
    (t.exponent.map ExponentText.text).getD ""

/-- The numeral that the text spells. -/
def numeral (t : NumberText) : Numeral where
  negative := t.negative
  whole := t.whole
  fraction := t.fraction
  exponent := t.exponent.map ExponentText.value

/-- The numeral of a number text is one that JSON allows. -/
theorem written_numeral (t : NumberText) : t.numeral.Written where
  whole_ne_nil := t.whole_ne_nil
  whole := t.isDigit_whole
  fraction := t.isDigit_fraction
  leading := t.leading

def exponentText (t : NumberText) : List Char :=
  ((t.exponent.map ExponentText.text).getD "").toList

theorem toList_text (t : NumberText) : t.text.toList =
    (if t.negative then ['-'] else []) ++ (t.whole ++ (fractionChars t.numeral ++ t.exponentText)) := by
  simp only [text, String.toList_append, String.toList_ofList, List.append_assoc,
    apply_ite String.toList, fractionChars, exponentText, numeral]
  rfl

/-! ## Integers -/

/-- The integer that the text denotes, if it is an integer. -/
def value (t : NumberText) : Int := t.numeral.integer

variable {t : NumberText}

theorem text_of_whole (plain : t.fraction = [] ∧ t.exponent = none) :
    t.text = (if t.negative then "-" else "") ++ String.ofList t.whole := by
  simp [text, plain.1, plain.2]

/-- The digits are those of the number that they denote. -/
theorem toDigits_wholeValue (t : NumberText) : Nat.toDigits 10 t.numeral.wholeValue = t.whole :=
  toDigits_ofDigitChars t.whole_ne_nil t.isDigit_whole t.leading

/-- The only text of an integer that is no integer is `-0`. -/
theorem text_eq_minusZero (plain : t.fraction = [] ∧ t.exponent = none) :
    t.text = "-0" ↔ t.negative = true ∧ t.numeral.wholeValue = 0 := by
  have digits := t.toDigits_wholeValue
  rw [text_of_whole plain]
  constructor
  · intro h
    have chars := congrArg String.toList h
    rw [String.toList_append, String.toList_ofList] at chars
    cases hs : t.negative with
    | true =>
      rw [hs] at chars
      have zero : t.whole = ['0'] := (List.cons.inj chars).2
      exact ⟨rfl, by rw [Numeral.wholeValue, numeral, zero]; rfl⟩
    | false =>
      rw [hs] at chars
      have minus : t.whole = ['-', '0'] := chars
      have digit := t.isDigit_whole '-' (by rw [minus]; exact List.mem_cons_self)
      exact absurd digit (by decide)
  · rintro ⟨negative, zero⟩
    rw [zero] at digits
    rw [negative, ← digits]
    decide

/-- An integer has one spelling, unless it is `-0`. -/
theorem text_eq_ofInt (plain : t.fraction = [] ∧ t.exponent = none) (h : t.text ≠ "-0") :
    t.text = (Numeral.ofInt t.value).text := by
  have size : t.value.natAbs = t.numeral.wholeValue := by
    unfold value Numeral.integer
    split <;> omega
  have sign : t.value < 0 ↔ t.negative = true := by
    rw [ne_eq, text_eq_minusZero plain] at h
    have here : t.numeral.negative = t.negative := rfl
    rw [value, Numeral.integer, here]
    cases hs : t.negative with
    | true =>
      have positive : t.numeral.wholeValue ≠ 0 := fun zero => h ⟨hs, zero⟩
      simp only [↓reduceIte, iff_true]
      omega
    | false =>
      simp only [Bool.false_eq_true, ↓reduceIte, iff_false]
      omega
  rw [text_of_whole plain, Numeral.text_ofInt, size, toDigits_wholeValue]
  simp only [sign]

/-- The spelling of an integer. -/
def ofInt (n : Int) : NumberText where
  negative := n < 0
  whole := Nat.toDigits 10 n.natAbs
  fraction := []
  exponent := none
  whole_ne_nil := Nat.toDigits_ne_nil
  isDigit_whole := isDigit_toDigits
  leading := toDigits_ne_zero_cons _
  isDigit_fraction := by simp

@[simp] theorem value_ofInt (n : Int) : (ofInt n).value = n :=
  Numeral.integer_ofInt n

@[simp] theorem text_ofInt (n : Int) : (ofInt n).text = (Numeral.ofInt n).text := by
  simp [text, Numeral.text, ofInt, Numeral.ofInt]

/-! ## Reading -/

theorem toList_exponentText (e : ExponentText) :
    e.text.toList = (if e.capital then 'E' else 'e') :: (exponentSign e.sign ++ e.digits) := by
  cases h : e.capital <;> simp [ExponentText.text, h]

theorem stops_exponentText (t : NumberText) {rest : List Char} (h : Ends rest) :
    Stops (t.exponentText ++ rest) := by
  unfold exponentText
  cases t.exponent with
  | none => exact stops_of_ends h
  | some e =>
    rw [Option.map_some, Option.getD_some, toList_exponentText]
    cases e.capital <;> simp [Stops]

/-- An exponent in any spelling is read as the numeral has it. -/
theorem readScale_exponentText (t : NumberText) {rest : List Char} (h : Ends rest) :
    readScale { t.numeral with exponent := none } (t.exponentText ++ rest) =
      (.number t.numeral, some rest) := by
  unfold exponentText numeral
  cases t.exponent with
  | none => exact readScale_ends _ h
  | some e =>
    have read := readExponent_digits { t.numeral with exponent := none } e.sign e.isDigit
      e.digits_ne_nil h
    simp only [Option.map_some, Option.getD_some, toList_exponentText, List.cons_append,
      List.append_assoc]
    cases e.capital <;> exact read

/-- A number is read in front of whatever may follow a value. -/
theorem readNumber_text (t : NumberText) {rest : List Char} (h : Ends rest) :
    readNumber (t.text.toList ++ rest) = (.number t.numeral, some rest) := by
  have read := readNumber_append t.written_numeral (t.stops_exponentText h) (t.readScale_exponentText h)
  rw [toList_text]
  simp only [List.append_assoc]
  exact read

/-- In front of whatever may follow a value, it is read as the numeral. -/
theorem readValue_text (t : NumberText) {rest : List Char} (h : Ends rest) (fuel : Nat) :
    readValue (fuel + 1) (t.text.toList ++ rest) = (.number t.numeral, some rest) := by
  obtain ⟨c, cs, ht, front⟩ := exists_front t.whole_ne_nil t.isDigit_whole t.negative
    (fractionChars t.numeral ++ t.exponentText)
  rw [← toList_text] at ht
  rw [← t.readNumber_text h, ht, List.cons_append, readValue_number front]

end NumberText

/-! ## Members -/

/-- Whatever is read of a member, it is something. -/
theorem readMember_ne_nil (fuel : Nat) (c : Char) (rest : List Char) :
    (readMember fuel c rest).1 ≠ [] := by
  cases fuel with
  | zero => exact List.cons_ne_nil _ _
  | succ fuel =>
    rw [readMember]
    split
    · exact List.cons_ne_nil _ _
    split
    · exact List.cons_ne_nil _ _
    · split
      · exact List.cons_ne_nil _ _
      split
      · exact List.cons_ne_nil _ _
      · exact List.cons_ne_nil _ _
      · split <;> exact List.cons_ne_nil _ _
      · exact List.cons_ne_nil _ _
    · exact List.cons_ne_nil _ _

namespace NumberText

/-- The text of a member with that number, to stand before other members or none. -/
def member (t : NumberText) (name : String) (others : Bool) : String :=
  quote name ++ ":" ++ t.text ++ (if others then "," else "")

theorem toList_member (t : NumberText) (name : String) (others : Bool) (body : List Char) :
    (t.member name others).toList ++ body = '\x22' :: (name.toList.flatMap escapeChar ++ '\x22' :: ':' ::
      (t.text.toList ++ ((if others then [','] else []) ++ body))) := by
  cases others <;> simp [member, toList_quote]

/-- Before the end of an object, a number ends. -/
theorem ends_of_skipBlanks {body rest : List Char} (h : skipBlanks body = '\x7d' :: rest) : Ends body := by
  cases body with
  | nil => cases h
  | cons c cs =>
    by_cases blank : isBlank c = true
    · exact ends_blank blank
    · rw [skipBlanks, List.dropWhile_cons_of_neg blank] at h
      rw [(List.cons.inj h).1]
      exact ends_cons (.inr (.inr rfl))

/-- The members of an object with one more in front. -/
theorem readMembers_front (t : NumberText) (name : String) {body : List Char}
    {members : List (Name × Value)} {r : Option (List Char)} {fuel more : Nat}
    (read : readMembers fuel body = (members, r)) (enough : 3 * body.length + 2 ≤ fuel)
    (named : ∀ m ∈ members, ∃ s, m.1 = .ok s) (le : fuel + 2 ≤ more) :
    readMembers more ((t.member name !members.isEmpty).toList ++ body) =
      ((.ok name, .number t.numeral) :: members, r) := by
  obtain ⟨fuel, rfl⟩ : ∃ k, fuel = k + 1 := ⟨fuel - 1, by omega⟩
  obtain ⟨more, rfl⟩ : ∃ k, more = k + 3 := ⟨more - 3, by omega⟩
  have mark (cs : List Char) : skipBlanks ('\x22' :: cs) = '\x22' :: cs := rfl
  have colon (cs : List Char) : skipBlanks (':' :: cs) = ':' :: cs := rfl
  have comma (cs : List Char) : skipBlanks (',' :: cs) = ',' :: cs := rfl
  rw [readMembers] at read
  rw [toList_member, readMembers, mark]
  change readMember (more + 2) '\x22' _ = _
  rw [readMember, readName, if_pos rfl, readText_quote]
  simp only [colon]
  split at read
  · -- Nothing at all: there is no member's name.
    obtain ⟨rfl, -⟩ := Prod.mk.inj read
    obtain ⟨s, hs⟩ := named _ List.mem_cons_self
    cases hs
  · next rest h =>
    obtain ⟨rfl, rfl⟩ := Prod.mk.inj read
    have ends := ends_of_skipBlanks h
    simp only [List.isEmpty_nil, Bool.not_true, Bool.false_eq_true, ↓reduceIte, List.nil_append,
      t.readValue_text ends, h]
  · next c rest other h =>
    have some : members.isEmpty = false := by
      have filled := readMember_ne_nil fuel c rest
      rw [read] at filled
      exact List.isEmpty_eq_false_iff.2 filled
    have ends : Ends (',' :: body) := ends_cons (.inl rfl)
    have front := length_of_skipBlanks h
    have within : 3 * rest.length + 2 ≤ fuel := by omega
    have later : readMember (more + 1) c rest = (members, r) := by
      rw [readMember_of_le within (by omega), read]
    simp only [some, Bool.not_false, ↓reduceIte, List.singleton_append, t.readValue_text ends, comma, h,
      later]

/-- An object is read from a brace on, with blanks before it or none. -/
theorem read_object {blanks : String} (blank : ∀ c ∈ blanks.toList, isBlank c = true) (body : String) :
    ∃ fuel, fuel = 3 * (blanks.toList.length + body.toList.length) + 5 ∧
      Document.read (blanks ++ "\x7b" ++ body) =
        ⟨.object (readMembers fuel body.toList).1,
          !(skipBlanks ((readMembers fuel body.toList).2.getD [])).isEmpty⟩ := by
  refine ⟨_, rfl, ?_⟩
  have text : (blanks ++ "\x7b" ++ body).toList = blanks.toList ++ '\x7b' :: body.toList := by
    simp [String.toList_append]
  have front : skipBlanks (blanks.toList ++ '\x7b' :: body.toList) = '\x7b' :: body.toList := by
    rw [skipBlanks, List.dropWhile_append_of_pos blank]
    rfl
  have length : 3 * ((blanks.toList ++ '\x7b' :: body.toList).length + 1) =
      3 * (blanks.toList.length + body.toList.length) + 5 + 1 := by
    rw [List.length_append, List.length_cons]
    omega
  simp only [Document.read, text, length]
  rw [readValue, front]
  rfl

/-- **A number of any spelling** can be put into an object, in front of what is there. -/
theorem read_front (t : NumberText) (name : String) {blanks body : String}
    (blank : ∀ c ∈ blanks.toList, isBlank c = true) {members : List (Name × Value)}
    (named : ∀ m ∈ members, ∃ s, m.1 = .ok s) {trailing : Bool}
    (read : Document.read (blanks ++ "\x7b" ++ body) = ⟨.object members, trailing⟩) :
    Document.read (blanks ++ "\x7b" ++ (t.member name (!members.isEmpty) ++ body)) =
      ⟨.object ((.ok name, .number t.numeral) :: members), trailing⟩ := by
  obtain ⟨fuel, steps, here⟩ := read_object blank body
  obtain ⟨more, steps', there⟩ := read_object blank (t.member name (!members.isEmpty) ++ body)
  rw [here] at read
  obtain ⟨object, rest⟩ := Document.mk.inj read
  have before : readMembers fuel body.toList = (members, (readMembers fuel body.toList).2) :=
    Prod.ext (Value.object.inj object) rfl
  have longer : (t.member name (!members.isEmpty) ++ body).toList.length =
      (t.member name (!members.isEmpty)).toList.length + body.toList.length := by
    rw [String.toList_append, List.length_append]
  have mark : 0 < (t.member name (!members.isEmpty)).toList.length := by
    have text := t.toList_member name (!members.isEmpty) []
    rw [List.append_nil] at text
    rw [text]
    exact Nat.succ_pos _
  have enough : fuel + 2 ≤ more := by omega
  have front := t.readMembers_front name before (by omega) named enough
  rw [there, String.toList_append, front, ← rest]

end NumberText

end Json

end SqlSelect
