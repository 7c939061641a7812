import SqlSelect.Proofs.Binary.Widening
import SqlSelect.Proofs.Descriptor.RoundTrip

/-!
# The spellings of a float

A float is spelt in a statement with all its places written out
(`Literal.floatSql`), in a descriptor as a JSON number or, if it is not finite, as
the word that the statement has. Every spelling of a finite float denotes a
quantity that rounds to it and to no other, the sign of zero included
(**`Literal.float_spellings`**). A 32-bit number is spelt by its own shortest
decimal, which widening keeps (**`Literal.sql_narrow`**).
-/

set_option autoImplicit false

namespace SqlSelect

/-! ## Numerals as texts -/

/-- The text with a point in it: it is completed by `.0` if there is none. -/
def withPoint (text : String) : String :=
  if '.' ∈ text.toList then text else text ++ ".0"

namespace Numeral

/-- Of the numerals without superfluous zeros, no two have the same text. -/
theorem text_injective {n m : Numeral} (hn : n.Written) (hm : m.Written) (h : n.text = m.text) : n = m := by
  have left := Json.readNumber_text hn Json.ends_nil
  have right := Json.readNumber_text hm Json.ends_nil
  rw [h, right] at left
  injection left with left
  injection left with left
  exact left.symm

theorem ne_point {c : Char} (h : c.isDigit = true) : c ≠ '.' := by
  rintro rfl
  exact absurd h (by decide)

/-- Without an exponent, there is a point in the text exactly if there is a fraction. -/
theorem point_mem_text {n : Numeral} (hn : n.Readable) (plain : n.exponent = none) :
    '.' ∈ n.text.toList ↔ n.fraction ≠ [] := by
  have whole : '.' ∉ n.whole := fun h => ne_point (hn.whole _ h) rfl
  have sign : '.' ∉ (if n.negative then ['-'] else []) := by split <;> decide
  have exponent : Json.exponentChars n = [] := by
    rw [Json.exponentChars, plain]
    rfl
  rw [Json.toList_text_eq, exponent, Json.fractionChars]
  cases n.fraction <;> simp [whole, sign]

end Numeral

namespace Decimal

/-- The number of digits. Zero has none that counts. -/
def figures (d : Decimal) : Nat :=
  if d.coefficient = 0 then 0 else d.digits.length

/-- The decimal written out, with a point only before a fraction. -/
def display (negative : Bool) (d : Decimal) : Numeral :=
  if 0 ≤ d.exponent then { negative, whole := d.digits ++ List.replicate d.exponent.toNat '0' }
  else d.positional negative

theorem readable_display (negative : Bool) (d : Decimal) : (d.display negative).Readable := by
  have readable := d.readable_positional negative
  unfold positional at readable
  unfold display
  split at readable
  · next whole =>
    rw [if_pos whole]
    exact { readable with fraction := by simp }
  · next fraction =>
    rw [if_neg fraction, positional, if_neg fraction]
    exact readable

theorem exponent_display (negative : Bool) (d : Decimal) : (d.display negative).exponent = none := by
  unfold display
  split
  · rfl
  · exact d.exponent_positional negative

/-- To write all places out is to complete the text of the decimal by a point. -/
theorem text_positional (negative : Bool) (d : Decimal) :
    (d.positional negative).text = withPoint (d.display negative).text := by
  have point := Numeral.point_mem_text (d.readable_display negative) (d.exponent_display negative)
  unfold withPoint
  by_cases whole : 0 ≤ d.exponent
  · have fraction : (d.display negative).fraction = [] := by rw [display, if_pos whole]
    rw [if_neg (by simp [point, fraction])]
    simp [display, positional, whole, Numeral.text]
  · have same : d.display negative = d.positional negative := if_neg whole
    rw [if_pos (by rw [point, same]; exact d.fraction_positional negative), same]

/-- A decimal that is displayed keeps its quantity. -/
theorem value_quantity_display (negative : Bool) (d : Decimal) :
    (d.display negative).quantity.value = d.value := by
  unfold display
  split
  · next whole =>
    obtain ⟨n, hn⟩ := Int.eq_ofNat_of_zero_le whole
    simp only [Numeral.quantity, List.append_nil, value, hn, Int.toNat_natCast, Nat.ofDigitChars_append,
      ofDigitChars_digits, Nat.ofDigitChars_replicate_zero, Option.getD_none, List.length_nil]
    push_cast
    rw [zpow_natCast]
    ring
  · exact d.value_quantity_positional negative

theorem negative_display (negative : Bool) (d : Decimal) : (d.display negative).negative = negative := by
  unfold display
  split
  · rfl
  · exact d.negative_positional negative

end Decimal

namespace Binary

variable {f : Format} {x : Binary f}

/-- No decimal that rounds to the float has fewer figures than the shortest. -/
theorem fewest_figures (hf : 1 < f.exponentBits) (hp : 0 < f.fractionBits) (tie : Tie)
    (finite : x.isFinite = true) {d : Decimal} (near : x.Nearest d.value) :
    (x.shortest tie).figures ≤ d.figures := by
  by_cases zero : x.magnitude = 0
  · have none : x.shortest tie = ⟨0, 0⟩ := if_pos zero
    rw [none]
    exact Nat.zero_le _
  · have some := coefficient_ne_zero zero ((readsBack_iff hf hp finite).2 near)
    rw [Decimal.figures, Decimal.figures, if_neg some]
    split
    · exact Nat.zero_le _
    · exact fewest_digits hf hp tie finite near

/-- What a numeral is read as is the only number that its quantity rounds to. -/
theorem roundsTo_ofNumeral (hf : 1 < f.exponentBits) (hp : 0 < f.fractionBits) {n : Numeral}
    (finite : x.isFinite = true) (read : ofNumeral f n = x) (y : Binary f) :
    y.RoundsTo n.negative n.quantity.value ↔ y = x := by
  have near : x.Nearest n.quantity.value := by
    rw [← read]
    exact nearest_of_roundDecimal hf hp rfl
  have sign : n.negative = x.negative := by
    rw [← read]
    rfl
  rw [sign]
  exact roundsTo_iff finite near

/-- The shortest decimal of a finite number is written without superfluous zeros. -/
theorem written_shortest (hf : 1 < f.exponentBits) (tie : Tie) (finite : x.isFinite = true) :
    ((x.shortest tie).positional x.negative).Written := by
  refine Decimal.written_positional _ fun zero => ?_
  rw [shortest_of_coefficient hf finite zero]

end Binary

namespace Binary32

open Binary

variable {v w : Binary32}

theorem negative_widen (finite : v.isFinite = true) : (widen v).negative = v.negative := by
  rw [widen_of_isFinite finite]
  rfl

/-- No other decimal with as few digits rounds to the wide number. -/
theorem value_eq_of_figures (finite : v.isFinite = true) {d : Decimal} (near : (widen v).Nearest d.value)
    (short : d.figures ≤ (v.shortest .away).figures) : d.value = (v.shortest .away).value := by
  by_cases zero : v.magnitude = 0
  · have none : v.shortest .away = ⟨0, 0⟩ := if_pos zero
    have empty : d.coefficient = 0 := by
      by_contra some
      rw [none, Decimal.figures, if_neg some] at short
      exact absurd d.length_digits_pos (not_lt.2 short)
    rw [none, Decimal.value_eq_zero.2 empty, Decimal.value_eq_zero.2 rfl]
  · have finite' := isFinite_widen finite
    have nonzero' := magnitude_widen_ne_zero finite zero
    have some := coefficient_ne_zero nonzero' ((readsBack_iff (by decide) (by decide) finite').2 near)
    refine value_eq_of_short finite zero near ?_
    rw [Decimal.figures, if_neg some] at short
    refine short.trans ?_
    unfold Decimal.figures
    split
    · exact Nat.zero_le _
    · exact le_refl _

end Binary32

namespace Literal

open Binary

/-! ## 32-bit numbers -/

/-- The text of a 32-bit number has the places of its own shortest decimal. -/
theorem sql_toLiteral {v : Binary32} (finite : v.isFinite = true) :
    (toLiteral v).sql = ((v.shortest .away).positional v.negative).text := by
  have text : (toLiteral v).sql = floatSql v.widen := rfl
  rw [text, floatSql, if_pos (Binary32.isFinite_widen finite), positional,
    Binary32.shortest_widen finite, Binary32.negative_widen finite]

/-- Finite 32-bit numbers with the same text are the same, bit for bit. -/
theorem eq_of_sql_toLiteral {v w : Binary32} (hv : v.isFinite = true) (hw : w.isFinite = true)
    (same : (toLiteral v).sql = (toLiteral w).sql) : v = w := by
  rw [sql_toLiteral hv, sql_toLiteral hw] at same
  have written := Numeral.text_injective (written_shortest (by decide) .away hv)
    (written_shortest (by decide) .away hw) same
  rw [← ofNumeral_positional (by decide) .away hv, written]
  exact ofNumeral_positional (by decide) .away hw

/-- **A 32-bit number keeps its own decimal text.** With its shortest decimal, it is
the only number that this one rounds to, and no decimal with fewer digits rounds to
it. What the text of that decimal is read as in 64 bits has the same shortest
decimal, and no other with as few digits. So the literal is the text of that
decimal, with a point in it, and different numbers have different texts. -/
theorem sql_narrow (v : Binary32) (finite : v.isFinite = true) :
    let d := v.shortest .away
    ((∀ x : Binary32, x.RoundsTo v.negative d.value ↔ x = v) ∧
        ∀ d' : Decimal, v.Nearest d'.value → d.figures ≤ d'.figures) ∧
      (Binary.ofNumeral .binary64 (d.display v.negative) = v.widen ∧
        ∀ x : Binary64, x.RoundsTo v.negative d.value ↔ x = v.widen) ∧
      (v.widen.shortest .away = d ∧
        ∀ d' : Decimal, v.widen.Nearest d'.value → d'.figures ≤ d.figures → d'.value = d.value) ∧
      (toLiteral v).sql = withPoint (d.display v.negative).text ∧
      ∀ w : Binary32, w.isFinite = true → w ≠ v → (toLiteral w).sql ≠ (toLiteral v).sql := by
  intro d
  have narrow : v.Nearest d.value := nearest_shortest (by decide) (by decide) .away finite
  have wide : v.widen.Nearest d.value := Binary32.nearest_widen finite
  have sign := Binary32.negative_widen finite
  refine ⟨⟨fun x => roundsTo_iff finite narrow, fun d' near => ?_⟩, ⟨?_, fun x => ?_⟩,
    ⟨Binary32.shortest_widen finite, fun d' near => Binary32.value_eq_of_figures finite near⟩, ?_,
    fun w finite' other same => other (eq_of_sql_toLiteral finite' finite same)⟩
  · exact fewest_figures (by decide) (by decide) .away finite near
  · have rounded := Format.roundDecimal_congr .binary64 (d.value_quantity_display v.negative)
    rw [Binary32.widen_of_isFinite finite]
    simp only [Binary.ofNumeral, Binary.ofDecimal, rounded, Decimal.negative_display, d]
  · rw [← sign]
    exact roundsTo_iff (Binary32.isFinite_widen finite) wide
  · rw [sql_toLiteral finite]
    exact d.text_positional v.negative

/-- The 32-bit number next to a tenth: its text is `0.1`, that of no other number. -/
theorem sql_narrow_tenth :
    let tenth : Binary32 := .ofBits .binary32 0x3dcccccd
    let next : Binary32 := .ofBits .binary32 0x3dccccce
    tenth.isFinite = true ∧ next.isFinite = true ∧ (toLiteral tenth).sql = "0.1" ∧
      tenth.widen.shortest .away = tenth.shortest .away ∧
      (toLiteral next).sql ≠ (toLiteral tenth).sql := by
  intro tenth next
  obtain ⟨-, -, ⟨same, -⟩, text, distinct⟩ := sql_narrow tenth (by decide)
  have shown : withPoint (((tenth.shortest .away).display tenth.negative).text) = "0.1" := by
    decide +kernel
  exact ⟨by decide, by decide, text.trans shown, same, distinct next (by decide) (by decide)⟩

/-! ## 64-bit numbers -/

/-- The text of a finite float is that of its shortest decimal with all places written out. -/
theorem sql_of_isFinite {v : Binary64} (finite : v.isFinite = true) :
    (Literal.float v).sql = ((v.shortest .away).positional v.negative).text :=
  if_pos finite

/-- An integer is written with digits and a sign only. -/
theorem mem_text_ofInt {n : Int} : ∀ c ∈ (Numeral.ofInt n).text.toList, c = '-' ∨ c.isDigit = true := by
  intro c hc
  rw [Numeral.text_ofInt, String.toList_append, String.toList_ofList] at hc
  rcases List.mem_append.1 hc with sign | digit
  · left
    split at sign <;> simp at sign
    exact sign
  · exact .inr (isDigit_toDigits c digit)

/-- A float has a character that is neither a digit nor a sign. -/
theorem exists_mem_floatSql (v : Binary64) : ∃ c ∈ (floatSql v).toList, c = '.' ∨ c = 'n' := by
  unfold floatSql
  split
  · have point := (Numeral.point_mem_text (Decimal.readable_positional v.negative (v.shortest .away))
      (Decimal.exponent_positional _ _)).2 (Decimal.fraction_positional _ _)
    exact ⟨'.', point, .inl rfl⟩
  · refine ⟨'n', ?_, .inr rfl⟩
    unfold nonFinite
    split
    · decide
    · split <;> decide

/-- A float shows a point or a word, which no integer does. -/
theorem sql_float_ne_integer (v : Binary64) (n : Int64) : (Literal.float v).sql ≠ (Literal.integer n).sql := by
  intro same
  obtain ⟨c, here, hc⟩ := exists_mem_floatSql v
  have text : floatSql v = (Numeral.ofInt n.toInt).text := same
  rw [text] at here
  rcases hc with rfl | rfl <;> rcases mem_text_ofInt _ here with sign | digit
  · cases sign
  · cases digit
  · cases sign
  · cases digit

/-- The descriptor of a float is an object with the one member `float`. -/
theorem encode_float (v : Binary64) : Descriptor.encode (Literal.float v) =
    "\x7b\x22float\x22:" ++ (Descriptor.encodeFloat v).compact ++ "\x7d" := by
  have front : "\x7b" ++ Json.quote "float" ++ ":" = "\x7b\x22float\x22:" := by decide
  show "\x7b" ++ Json.quote "float" ++ ":" ++ (Descriptor.encodeFloat v).compact ++ "\x7d" = _
  rw [front]

/-- It decodes to the float, and to the one not-a-number if it is none. -/
theorem decode_encode_float (v : Binary64) :
    Descriptor.decode Literal (Descriptor.encode (Literal.float v)) = .ok (.float v.canonical) := by
  have sound := Descriptor.sound_encodeLiteral (.float v)
  have flat : (Descriptor.encodeFloat v).nesting = 0 := by
    unfold Descriptor.encodeFloat
    split <;> rfl
  have nesting : (Descriptor.encodeLiteral (.float v)).nesting = 1 := by
    rw [Descriptor.encodeLiteral, Descriptor.encodeVariant, Descriptor.nesting_single, flat]
  have back := Descriptor.decodeText_compact sound
    (Descriptor.decodeLiteral_encodeLiteral Descriptor.maxDepth
      (Json.FloatReader.roundsCorrectly_nearest _))
  rw [sound.opened_compact, nesting, if_pos (by decide)] at back
  exact back

/-- **The spellings of a float denote the same value.** The text of a finite float
has digits on both sides of a point and no superfluous zero in front, and the
quantity that it denotes rounds to the float and to no other, bit for bit; so does
the quantity of the JSON number. A float that is not finite has the same word in
both, which is decoded to the float, or to the one not-a-number. No float has the
text of an integer. -/
theorem float_spellings (v : Binary64) :
    (v.isFinite = true →
      (∃ whole fraction : List Char,
        (Literal.float v).sql.toList = (if v.negative then ['-'] else []) ++ whole ++ '.' :: fraction ∧
          whole ≠ [] ∧ fraction ≠ [] ∧ (∀ c ∈ whole ++ fraction, c.isDigit = true) ∧
          (∀ c cs, whole ≠ '0' :: c :: cs) ∧
          ∀ x : Binary64, x.RoundsTo v.negative
            (Nat.ofDigitChars 10 (whole ++ fraction) 0 / 10 ^ fraction.length) ↔ x = v) ∧
      ∃ n : Numeral, n.Written ∧
        Descriptor.encode (Literal.float v) = "\x7b\x22float\x22:" ++ n.text ++ "\x7d" ∧
        ∀ x : Binary64, x.RoundsTo n.negative n.quantity.value ↔ x = v) ∧
    (v.isFinite = false →
      Descriptor.encode (Literal.float v) =
          "\x7b\x22float\x22:" ++ Json.quote (Literal.float v).sql ++ "\x7d" ∧
        Descriptor.decode Literal (Descriptor.encode (Literal.float v)) =
          .ok (.float (if v.isNaN then .nan .binary64 else v))) ∧
    ∀ n : Int64, (Literal.float v).sql ≠ (Literal.integer n).sql := by
  refine ⟨fun finite => ⟨?_, ?_⟩, fun other => ⟨?_, ?_⟩, sql_float_ne_integer v⟩
  · have written := written_shortest (by decide) .away finite
    have rounds := roundsTo_ofNumeral (by decide) (by decide) finite
      (ofNumeral_positional (by decide) .away finite)
    have plain := (v.shortest .away).exponent_positional v.negative
    have point := (v.shortest .away).fraction_positional v.negative
    have sign := (v.shortest .away).negative_positional v.negative
    rw [sql_of_isFinite finite]
    generalize (v.shortest .away).positional v.negative = n at *
    refine ⟨n.whole, n.fraction, ?_, written.whole_ne_nil, point,
      List.forall_mem_append.2 ⟨written.whole, written.fraction⟩, written.leading, fun x => ?_⟩
    · rw [Json.toList_text_eq, Json.fractionChars, Json.exponentChars, plain, sign]
      simp [point]
    · rw [← rounds, sign]
      simp [Numeral.quantity, plain, Decimal.value, div_eq_mul_inv]
  · have rounds := roundsTo_ofNumeral (by decide) (by decide) finite
      (Descriptor.ofNumeral_floatNumeral finite)
    refine ⟨_, Descriptor.written_floatNumeral finite, ?_, rounds⟩
    rw [encode_float, Descriptor.encodeFloat, if_pos finite]
    rfl
  · have word : (Literal.float v).sql = nonFinite v := if_neg (by simp [other])
    rw [encode_float, Descriptor.encodeFloat, if_neg (by simp [other]), word]
    rfl
  · rw [decode_encode_float]
    rfl

/-- A number with an exponent in its JSON form alone, and a not-a-number other than the
one that is read. -/
theorem float_spellings_apart :
    let large : Binary64 := .ofBits .binary64 0x4341c37937e08000
    let other : Binary64 := .ofBits .binary64 0xfff8000000000001
    large.isFinite = true ∧
      (Literal.float large).sql = "10000000000000000.0" ∧
      (∃ n : Numeral, n.Written ∧
        Descriptor.encode (Literal.float large) = "\x7b\x22float\x22:" ++ n.text ++ "\x7d" ∧
        ∀ x : Binary64, x.RoundsTo n.negative n.quantity.value ↔ x = large) ∧
      Descriptor.encode (Literal.float large) = "\x7b\x22float\x22:1e+16\x7d" ∧
      other.isFinite = false ∧
      Descriptor.decode Literal (Descriptor.encode (Literal.float other)) =
        .ok (.float (.nan .binary64)) := by
  intro large other
  obtain ⟨finite, -, -⟩ := float_spellings large
  obtain ⟨-, none, -⟩ := float_spellings other
  exact ⟨by decide, by decide +kernel, (finite (by decide)).2, by decide +kernel, by decide,
    (none (by decide)).2⟩

end Literal

end SqlSelect
