import SqlSelect.Descriptor.Text
import SqlSelect.Proofs.Binary.Shortest
import SqlSelect.Proofs.Descriptor.Bounded
import SqlSelect.Proofs.Descriptor.Canonical
import SqlSelect.Proofs.Descriptor.Number

/-!
# Scalars and literals decode to what was encoded

An integer in its range and a float that is not finite come back from their
encodings; of all that are not numbers one comes back. A finite float comes back
if what it is written as is read correctly rounded (`RoundsCorrectly`). Every
encoding is sound, so its text can be read.
-/

set_option autoImplicit false

namespace SqlSelect.Json.FloatReader

/-- What each of the finite floats is written as is read as the float next to it. The
nearest reader does so for all floats, another one perhaps for some only. -/
def RoundsCorrectly [FloatReader] (xs : List Binary64) : Prop :=
  ∀ x ∈ xs, x.isFinite = true →
    read (Number.floatNumeral x) = .ofNumeral .binary64 (Number.floatNumeral x)

theorem roundsCorrectly_append [FloatReader] {xs ys : List Binary64} :
    RoundsCorrectly (xs ++ ys) ↔ RoundsCorrectly xs ∧ RoundsCorrectly ys :=
  List.forall_mem_append

/-- The nearest reader rounds all floats correctly. -/
theorem roundsCorrectly_nearest (xs : List Binary64) : @RoundsCorrectly .nearest xs :=
  fun _ _ _ => rfl

end SqlSelect.Json.FloatReader

namespace SqlSelect.Descriptor

open SqlSelect.Json (FloatReader Name Number Value Sound)

/-! ## Numbers -/

theorem decodeInt64_encoded [FloatReader] (n : Int64) : decodeInt64 (.number (.ofInt n.toInt)) = .ok n := by
  rw [decodeInt64_number, Numeral.integer_ofInt]
  exact ⟨Numeral.isInteger_ofInt _, ⟨n.le_toInt, n.toInt_lt⟩, n.ofInt_toInt⟩

theorem decodeUInt64_encoded [FloatReader] (n : UInt64) : decodeUInt64 (.number (.ofInt n.toNat)) = .ok n := by
  have below : (n.toNat : Int) < 2 ^ 64 := by exact_mod_cast n.toNat_lt
  have sign : (Numeral.ofInt n.toNat).negative = false :=
    decide_eq_false (Int.not_lt.2 (Int.natCast_nonneg n.toNat))
  rw [decodeUInt64_number, Numeral.integer_ofInt]
  exact ⟨rfl, sign, below, by rw [Int.toNat_natCast, UInt64.ofNat_toNat]⟩

/-! ## Floats -/

/-- A float is never written as an integer: it has a point or an exponent. -/
theorem integer?_floatNumeral (x : Binary64) : Number.integer? (Number.floatNumeral x) = none := by
  have fraction : (Number.floatNumeral x).isWhole = false := by
    unfold Number.floatNumeral
    simp only []
    split
    · rw [Numeral.isWhole, List.isEmpty_eq_false_iff.2 (Decimal.fraction_positional _ _)]
      rfl
    · simp [Numeral.isWhole, Decimal.scientific]
  rw [Number.integer?, fraction]
  rfl

/-- The float next to what a float is written as is that float. -/
theorem ofNumeral_floatNumeral {x : Binary64} (h : x.isFinite = true) :
    Binary.ofNumeral .binary64 (Number.floatNumeral x) = x := by
  unfold Number.floatNumeral
  simp only []
  split
  · exact Binary.ofNumeral_positional (by decide) .toEven h
  · exact Binary.ofNumeral_scientific (by decide) .toEven h

/-- A finite float is read back, if its numeral is read correctly rounded. -/
theorem readNumeral_floatNumeral [FloatReader] {x : Binary64}
    (rounds : FloatReader.RoundsCorrectly [x]) (h : x.isFinite = true) :
    readNumeral (Number.floatNumeral x) = .ok (.float x) := by
  have read := (rounds x List.mem_cons_self h).trans (ofNumeral_floatNumeral h)
  simp only [readNumeral, Number.ofNumeral, integer?_floatNumeral, read, h, ↓reduceIte]

/-- A float is written as a JSON number may be, without superfluous zeros in front. -/
theorem written_floatNumeral {x : Binary64} (h : x.isFinite = true) :
    (Number.floatNumeral x).Written := by
  have coefficient : (x.shortest .toEven).coefficient = 0 → (x.shortest .toEven).exponent ≤ 0 := by
    intro hc
    rw [Binary.shortest_of_coefficient (by decide) h hc]
  unfold Number.floatNumeral
  simp only []
  split
  · exact Decimal.written_positional _ coefficient
  · exact Decimal.written_scientific _ _

/-- **A float** decodes from its encoding, a number or a word, in any room. -/
theorem decodeFloat_encodeFloat [FloatReader] (room : Nat) {x : Binary64}
    (rounds : FloatReader.RoundsCorrectly [x]) : decodeFloat room (encodeFloat x) = .ok x.canonical := by
  cases hf : x.isFinite with
  | true =>
    have read := readNumeral_floatNumeral rounds hf
    have below : x.magnitude < Format.binary64.infinity := of_decide_eq_true hf
    have number : x.isNaN = false := decide_eq_false (by omega)
    rw [encodeFloat, hf, if_pos rfl, Binary.canonical, number]
    simp only [decodeFloat, readWhole, read, bind, Except.bind]
    rfl
  | false =>
    have above : ¬ x.magnitude < Format.binary64.infinity := of_decide_eq_false hf
    rw [encodeFloat, hf, Literal.nonFinite, Binary.canonical]
    cases hn : x.isNaN with
    | true => rfl
    | false =>
      have notAbove : ¬ Format.binary64.infinity < x.magnitude := of_decide_eq_false hn
      have infinite : x = .infinity .binary64 x.negative := by
        obtain ⟨negative, magnitude, lt⟩ := x
        have magnitude : magnitude = Format.binary64.infinity := by
          simp only at above notAbove
          omega
        subst magnitude
        rfl
      rw [infinite]
      cases x.negative <;> rfl

/-! ## Names -/

theorem findVariant_literal (i : LiteralTag) : findVariant LiteralTag (Named.name i) = .ok i := by
  cases i <;> rfl

theorem findVariant_expr (i : ExprTag) : findVariant ExprTag (Named.name i) = .ok i := by
  cases i with
  | plain tag => cases tag <;> rfl
  | record tag => cases tag <;> rfl

theorem findVariant_operator (i : BinaryOperator) :
    findVariant BinaryOperator (Named.name i) = .ok i := by
  cases i <;> rfl

theorem findVariant_aggregate (i : AggregateFunction) :
    findVariant AggregateFunction (Named.name i) = .ok i := by
  cases i <;> rfl

theorem findVariant_direction (i : Direction) : findVariant Direction (Named.name i) = .ok i := by
  cases i <;> rfl

/-! ## Literals -/

theorem nesting_single (name : String) (content : Value) :
    (Value.single name content).nesting = content.nesting + 1 := by
  simp [Value.single, Value.nesting, Value.nestingMembers]

/-- **A literal** decodes from its encoding in the room that this needs. -/
theorem decodeLiteral_encodeLiteral [FloatReader] (room : Nat) {value : Literal}
    (rounds : FloatReader.RoundsCorrectly value.floats) : decodeLiteral room (encodeLiteral value) =
      bounded room (encodeLiteral value).nesting value.canonical := by
  cases value with
  | integer n =>
    rw [encodeLiteral, encodeVariant, nesting_single]
    apply decodeVariant_single (findVariant_literal _)
    intro m _
    simp only [decodeInt64_encoded]
    exact (bounded_zero m _).symm
  | float x =>
    have flat : (encodeFloat x).nesting = 0 := by
      unfold encodeFloat
      split <;> rfl
    rw [encodeLiteral, encodeVariant, nesting_single, flat]
    apply decodeVariant_single (findVariant_literal _)
    intro m _
    simp only [decodeFloat_encodeFloat m rounds]
    exact (bounded_zero m _).symm
  | string s =>
    rw [encodeLiteral, encodeVariant, nesting_single]
    exact decodeVariant_single (findVariant_literal _) fun m _ => (bounded_zero m _).symm
  | boolean b =>
    rw [encodeLiteral, encodeVariant, nesting_single]
    exact decodeVariant_single (findVariant_literal _) fun m _ => (bounded_zero m _).symm
  | null => exact (bounded_zero room _).symm

/-! ## Encodings are sound -/

theorem sound_record {members : List (String × Value)} (h : ∀ m ∈ members, Sound m.2) :
    Sound (.record members) := by
  refine .object ?_ ?_
  · intro m hm
    obtain ⟨m', -, rfl⟩ := List.mem_map.1 hm
    exact ⟨m'.1, rfl⟩
  · intro m hm
    obtain ⟨m', hm', rfl⟩ := List.mem_map.1 hm
    exact h m' hm'

/-- Names with sound contents make a sound record. -/
theorem sound_zip {names : List String} {contents : List Value} (h : ∀ v ∈ contents, Sound v) :
    Sound (.record (names.zip contents)) :=
  sound_record fun _ hm => h _ (List.of_mem_zip hm).2

theorem sound_variant {ι : Type} [Named ι] (i : ι) {content : Value} (h : Sound content) :
    Sound (encodeVariant i content) := by
  have single : ∀ m ∈ [(Named.name i, content)], Sound m.2 := by simpa using h
  exact sound_record single

theorem sound_encodeFloat (x : Binary64) : Sound (encodeFloat x) := by
  unfold encodeFloat
  split
  · next h => exact .number (written_floatNumeral h)
  · exact .text

/-- The encoding of a literal can be read back from its text. -/
theorem sound_encodeLiteral (value : Literal) : Sound (encodeLiteral value) := by
  cases value with
  | integer n => exact sound_variant _ (.number (Numeral.written_ofInt _))
  | float x => exact sound_variant _ (sound_encodeFloat x)
  | string s => exact sound_variant _ .text
  | boolean b => exact sound_variant _ .boolean
  | null => exact .text

end SqlSelect.Descriptor
