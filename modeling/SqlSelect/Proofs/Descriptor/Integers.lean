import SqlSelect.Proofs.Descriptor.Number
import SqlSelect.Proofs.Descriptor.Presentation
import SqlSelect.Proofs.Json.NumberText

/-!
# Integers in descriptors

A number is an integer if it is written as one and fits: no fraction, no exponent, not
`-0`, and within the range of the place where it stands (`FitsInt64`, `FitsUInt64`).
There it is what its digits denote and is shown by the same digits; every other number
is refused. So it is for a literal, and for a count that is added to the descriptor of a
query (**`decode_number_text`**).
-/

set_option autoImplicit false

namespace SqlSelect

namespace Descriptor

open SqlSelect.Json (Document FloatReader Name NumberText Value)

/-- What is not decoded is refused with an error. -/
theorem exists_error {ε α : Type} {r : Except ε α} (h : ∀ x, r ≠ .ok x) : ∃ e, r = .error e := by
  cases r with
  | error e => exact ⟨e, rfl⟩
  | ok x => exact absurd rfl (h x)

/-! ## Literals -/

theorem decode_integer [FloatReader] {text : String} {content : Value} {x : Literal}
    (read : Document.read text = ⟨.single "integer" content, false⟩) :
    decode Literal text = .ok x ↔ ∃ value, decodeInt64 content = .ok value ∧ .integer value = x := by
  have decoded : decode Literal text = decodeLiteral maxDepth (.single "integer" content) :=
    decodeText_of_read read
  have held : decodeLiteral maxDepth (.single "integer" content) = .integer <$> decodeInt64 content := by
    change (do
      let x ← Literal.integer <$> decodeInt64 content
      endOfVariant []
      return x) = _
    cases decodeInt64 content <;> rfl
  rw [decoded, held, map_eq_ok]

/-! ## Queries -/

variable {text : String} {members : List (Name × Value)} {q : Query}

/-- The descriptor of a query is an object whose members make its draft. -/
theorem decode_query_object [FloatReader] (read : Document.read text = ⟨.object members, false⟩) :
    decode Query text = .ok q ↔
      ∃ d, queryRecord.Gathers (decodeQueryMember 126) members .empty d ∧ assembleQuery d = q := by
  have decoded : decode Query text = decodeQuery maxDepth (.object members) := decodeText_of_read read
  have opened : decodeQuery maxDepth (.object members) =
      assembleQuery <$> queryRecord.decodeMembers (decodeQueryMember 126) members .empty := rfl
  rw [decoded, opened, map_eq_ok]
  simp only [Record.decodeMembers_eq_ok]

/-- The second text is of the object that the first one is of, with a new member somewhere
in it: a number of that spelling. -/
def Adds (name : String) (t : NumberText) (text text' : String) : Prop :=
  ∃ before after : List (Name × Value),
    Document.read text = ⟨.object (before ++ after), false⟩ ∧
      Document.read text' = ⟨.object (before ++ (.ok name, .number t.numeral) :: after), false⟩ ∧
      ∀ m ∈ before ++ after, m.1 ≠ .ok name

/-- What a new member adds to a query: its own slot holds what its value decodes to, and
all others what they held before. -/
theorem decode_added [FloatReader] {t : NumberText} {text' : String} {i : QueryMember}
    (adds : Adds (Named.name i) t text text') (decoded : decode Query text = .ok q) :
    q.slot i = i.absent ∧ ∀ q' : Query, decode Query text' = .ok q' ↔
      ∃ x, decodeQueryMember 126 i (.number t.numeral) = .ok x ∧ q'.slot i = x ∧
        ∀ j, j ≠ i → q'.slot j = q.slot j := by
  obtain ⟨before, after, read, read', absent⟩ := adds
  obtain ⟨d, made, rfl⟩ := (decode_query_object read).1 decoded
  have known : queryRecord.member? (.ok (Named.name i), .number t.numeral) = some i :=
    queryRecord_known i
  have absent : ∀ m ∈ before ++ after, queryRecord.member? m ≠ some i := by
    rintro ⟨name, v⟩ hm found
    cases name with
    | error flaw => cases found
    | ok s => exact absent _ hm (congrArg Except.ok (name_of_findIn? found).symm)
  have empty : d i = none := made.kept i absent
  refine ⟨by rw [slot_assembleQuery, empty]; rfl, fun q' => ?_⟩
  rw [decode_query_object read']
  simp only [Record.gathers_insert known absent]
  constructor
  · rintro ⟨_, ⟨x, d', value, made', rfl⟩, rfl⟩
    obtain rfl : d = d' := by
      have run := Record.decodeMembers_eq_ok.2 made
      rw [Record.decodeMembers_eq_ok.2 made'] at run
      exact (Except.ok.inj run).symm
    refine ⟨x, value, ?_, fun j other => ?_⟩
    · rw [slot_assembleQuery, Draft.set_self, Option.getD_some]
    · rw [slot_assembleQuery, slot_assembleQuery, Draft.set_of_ne d x (Ne.symm other)]
  · rintro ⟨x, value, here, others⟩
    refine ⟨d.set i x, ⟨x, d, value, made, rfl⟩, slot_ext fun j => ?_⟩
    rw [slot_assembleQuery]
    by_cases same : i = j
    · subst same
      rw [Draft.set_self, Option.getD_some, here]
    · rw [Draft.set_of_ne d x same, others j (Ne.symm same), slot_assembleQuery]

end Descriptor

/-! ## Statements -/

namespace Query

variable {q : Query}

/-- The counts are the last clauses. -/
theorem statementOver_counts (q : Query) (table : String) :
    q.statementOver table = { q with limit := none, offset := none }.statementOver table ++
      countClause " LIMIT " q.limit ++ countClause " OFFSET " q.offset := by
  unfold statementOver
  simp only [countClause, String.append_empty]

/-- Whether there is a statement depends on the table and on what is selected, not on the
counts. -/
theorem statement_alike (q q' : Query) (table : q'.namedTable = q.namedTable)
    (selects : q'.selects = q.selects) :
    (∃ e, q.statement = .error e ∧ q'.statement = .error e) ∨
      ∃ table, q.statement = .ok (q.statementOver table) ∧
        q'.statement = .ok (q'.statementOver table) := by
  rw [statement, statement, table, selects]
  cases q.namedTable with
  | none => exact .inl ⟨_, rfl, rfl⟩
  | some table =>
    by_cases missing : q.selects.isEmpty = true
    · exact .inl ⟨_, if_pos missing, if_pos missing⟩
    · exact .inr ⟨table, if_neg missing, if_neg missing⟩

/-- A limit where there was none is one more clause, before the offset. -/
theorem statement_setLimit (unlimited : q.limit = none) (n : UInt64) :
    (∃ e, q.statement = .error e ∧ { q with limit := some n }.statement = .error e) ∨
      ∃ front, q.statement = .ok (front ++ countClause " OFFSET " q.offset) ∧
        { q with limit := some n }.statement = .ok (front ++ " LIMIT " ++
          (Numeral.ofInt n.toNat).text ++ countClause " OFFSET " q.offset) := by
  rcases statement_alike q { q with limit := some n } rfl rfl with failed | ⟨table, before, after⟩
  · exact .inl failed
  · rw [statementOver_counts, unlimited, countClause, String.append_empty] at before
    rw [statementOver_counts, countClause, ← String.append_assoc] at after
    exact .inr ⟨_, before, after⟩

/-- An offset where there was none is one more clause at the end. -/
theorem statement_setOffset (unset : q.offset = none) (n : UInt64) :
    (∃ e, q.statement = .error e ∧ { q with offset := some n }.statement = .error e) ∨
      ∃ sql, q.statement = .ok sql ∧
        { q with offset := some n }.statement =
          .ok (sql ++ " OFFSET " ++ (Numeral.ofInt n.toNat).text) := by
  rcases statement_alike q { q with offset := some n } rfl rfl with failed | ⟨table, before, after⟩
  · exact .inl failed
  · rw [statementOver_counts, unset] at before
    rw [statementOver_counts] at after
    refine .inr ⟨_, before, after.trans ?_⟩
    simp only [countClause, String.append_empty, String.append_assoc]

end Query

namespace Json.NumberText

/-- An optional minus and digits only, not `-0`, within the range of a signed word. -/
structure FitsInt64 (t : NumberText) : Prop where
  fraction : t.fraction = []
  exponent : t.exponent = none
  nonzero : t.text ≠ "-0"
  range : -2 ^ 63 ≤ t.value ∧ t.value < 2 ^ 63

/-- Digits only, within the range of an unsigned word. -/
structure FitsUInt64 (t : NumberText) : Prop where
  fraction : t.fraction = []
  exponent : t.exponent = none
  positive : t.negative = false
  range : t.value < 2 ^ 64

variable {t : NumberText}

theorem isWhole_numeral : t.numeral.isWhole = true ↔ t.fraction = [] ∧ t.exponent = none := by
  simp [Numeral.isWhole, numeral]

/-- A text is of an integer if it has neither fraction nor exponent and is not `-0`. -/
theorem isInteger_numeral :
    t.numeral.IsInteger ↔ (t.fraction = [] ∧ t.exponent = none) ∧ t.text ≠ "-0" := by
  constructor
  · rintro ⟨whole, nonzero⟩
    have plain := isWhole_numeral.1 whole
    exact ⟨plain, fun h => nonzero ((text_eq_minusZero plain).1 h)⟩
  · rintro ⟨plain, nonzero⟩
    exact ⟨isWhole_numeral.2 plain, fun h => nonzero ((text_eq_minusZero plain).2 h)⟩

/-- The plain digits of an integer fit a signed word if the integer does. -/
theorem fitsInt64_ofInt {n : Int} : (ofInt n).FitsInt64 ↔ -2 ^ 63 ≤ n ∧ n < 2 ^ 63 := by
  have integer : (ofInt n).numeral.IsInteger := Numeral.isInteger_ofInt n
  constructor
  · intro fits
    rw [← value_ofInt n]
    exact fits.range
  · intro range
    rw [← value_ofInt n] at range
    exact ⟨rfl, rfl, (isInteger_numeral.1 integer).2, range⟩

theorem fitsUInt64_ofInt {n : Int} : (ofInt n).FitsUInt64 ↔ 0 ≤ n ∧ n < 2 ^ 64 := by
  have sign : (ofInt n).negative = false ↔ 0 ≤ n := by
    rw [ofInt, decide_eq_false_iff_not, Int.not_lt]
  constructor
  · intro fits
    have range := fits.range
    rw [value_ofInt] at range
    exact ⟨sign.1 fits.positive, range⟩
  · rintro ⟨low, high⟩
    rw [← value_ofInt n] at high
    exact ⟨rfl, rfl, sign.2 low, high⟩

end Json.NumberText

namespace Descriptor

open SqlSelect.Json (Document FloatReader Name NumberText Value)

/-- A number that stands for an integer literal. -/
theorem decode_integer_text [FloatReader] (t : NumberText) {x : Literal} :
    decode Literal ("\x7b\x22integer\x22:" ++ t.text ++ "\x7d") = .ok x ↔
      t.FitsInt64 ∧ .integer (.ofInt t.value) = x := by
  have empty : Document.read ("" ++ "\x7b" ++ "\x7d") = ⟨.object [], false⟩ := rfl
  have read := t.read_front "integer" (by simp) (by simp) empty
  have text : "" ++ "\x7b" ++ (t.member "integer" (!(List.isEmpty (α := Name × Value) [])) ++ "\x7d") =
      "\x7b\x22integer\x22:" ++ t.text ++ "\x7d" := by
    have front : "\x7b" ++ Json.quote "integer" ++ ":" = "\x7b\x22integer\x22:" := by decide
    rw [← front, NumberText.member]
    simp [String.append_assoc]
  rw [text] at read
  rw [decode_integer read]
  simp only [decodeInt64_number, NumberText.isInteger_numeral]
  constructor
  · rintro ⟨_, ⟨⟨⟨fraction, exponent⟩, nonzero⟩, range, rfl⟩, rfl⟩
    exact ⟨⟨fraction, exponent, nonzero, range⟩, rfl⟩
  · rintro ⟨⟨fraction, exponent, nonzero, range⟩, rfl⟩
    exact ⟨_, ⟨⟨⟨fraction, exponent⟩, nonzero⟩, range, rfl⟩, rfl⟩

/-- The digits of a literal are those of the number it was read from. -/
theorem sql_integer {t : NumberText} (fits : t.FitsInt64) :
    (Int64.ofInt t.value).toInt = t.value ∧ (Literal.integer (.ofInt t.value)).sql = t.text := by
  have value : (Int64.ofInt t.value).toInt = t.value :=
    Int64.toInt_ofInt_of_le fits.range.1 fits.range.2
  refine ⟨value, ?_⟩
  rw [Literal.sql, value, NumberText.text_eq_ofInt ⟨fits.fraction, fits.exponent⟩ fits.nonzero]

/-- A number that stands for a count. -/
theorem decodeUInt64_text [FloatReader] {t : NumberText} {n : UInt64} :
    decodeUInt64 (.number t.numeral) = .ok n ↔ t.FitsUInt64 ∧ .ofNat t.value.toNat = n := by
  rw [decodeUInt64_number, NumberText.isWhole_numeral]
  constructor
  · rintro ⟨⟨fraction, exponent⟩, positive, range, rfl⟩
    exact ⟨⟨fraction, exponent, positive, range⟩, rfl⟩
  · rintro ⟨⟨fraction, exponent, positive, range⟩, rfl⟩
    exact ⟨⟨fraction, exponent⟩, positive, range, rfl⟩

/-- The digits of a count are those of the number it was read from. -/
theorem text_count {t : NumberText} (fits : t.FitsUInt64) :
    ((UInt64.ofNat t.value.toNat).toNat : Int) = t.value ∧
      (Numeral.ofInt (UInt64.ofNat t.value.toNat).toNat).text = t.text := by
  have plain : t.fraction = [] ∧ t.exponent = none := ⟨fits.fraction, fits.exponent⟩
  have nonzero : t.text ≠ "-0" := by
    rw [ne_eq, NumberText.text_eq_minusZero plain, fits.positive]
    simp
  have integer := NumberText.isInteger_numeral.2 ⟨plain, nonzero⟩
  have low : 0 ≤ t.value := integer.nonneg_iff.2 fits.positive
  have value : ((UInt64.ofNat t.value.toNat).toNat : Int) = t.value := by
    have high : t.value < UInt64.size := fits.range
    rw [UInt64.toNat_ofNat_of_lt' (by omega), Int.toNat_of_nonneg low]
  exact ⟨value, by rw [value, ← NumberText.text_eq_ofInt plain nonzero]⟩

/-! ## Counts that are added -/

section

variable {t : NumberText} {text text' : String} {q q' : Query}

/-- A count that is added for a slot: `f` gives the query with a count in it. -/
theorem decode_count [FloatReader] {i : QueryMember} {f : UInt64 → Query}
    (held : ∀ x, decodeQueryMember 126 i (.number t.numeral) = .ok x ↔
      ∃ n, decodeUInt64 (.number t.numeral) = .ok n ∧ (f n).slot i = x)
    (others : ∀ n j, j ≠ i → (f n).slot j = q.slot j) (adds : Adds (Named.name i) t text text')
    (decoded : decode Query text = .ok q) :
    decode Query text' = .ok q' ↔ t.FitsUInt64 ∧ f (.ofNat t.value.toNat) = q' := by
  rw [(decode_added adds decoded).2]
  simp only [held, decodeUInt64_text]
  constructor
  · rintro ⟨_, ⟨_, ⟨fits, rfl⟩, rfl⟩, here, there⟩
    refine ⟨fits, slot_ext fun j => ?_⟩
    by_cases same : j = i
    · subst same
      exact here.symm
    · rw [others _ j same, there j same]
  · rintro ⟨fits, rfl⟩
    exact ⟨_, ⟨_, ⟨fits, rfl⟩, rfl⟩, rfl, others _⟩

/-- A limit that is added to a query. -/
theorem decode_limit [FloatReader] (adds : Adds "limit" t text text') (decoded : decode Query text = .ok q) :
    decode Query text' = .ok q' ↔
      t.FitsUInt64 ∧ { q with limit := some (.ofNat t.value.toNat) } = q' := by
  refine decode_count (i := .limit) (f := fun n => { q with limit := some n }) (fun x => map_eq_ok)
    (fun n j other => ?_) adds decoded
  cases j <;> first | rfl | exact absurd rfl other

/-- An offset that is added to a query. -/
theorem decode_offset [FloatReader] (adds : Adds "offset" t text text') (decoded : decode Query text = .ok q) :
    decode Query text' = .ok q' ↔
      t.FitsUInt64 ∧ { q with offset := some (.ofNat t.value.toNat) } = q' := by
  refine decode_count (i := .offset) (f := fun n => { q with offset := some n }) (fun x => map_eq_ok)
    (fun n j other => ?_) adds decoded
  cases j <;> first | rfl | exact absurd rfl other

/-- A number in front of the members of an object is added to it. -/
theorem adds_front [FloatReader] {blanks body : String} {members : List (Name × Value)} (t : NumberText) (name : String)
    (blank : ∀ c ∈ blanks.toList, Json.isBlank c = true)
    (decoded : decode Query (blanks ++ "\x7b" ++ body) = .ok q)
    (read : Document.read (blanks ++ "\x7b" ++ body) = ⟨.object members, false⟩)
    (new : ∀ m ∈ members, m.1 ≠ .ok name) :
    Adds name t (blanks ++ "\x7b" ++ body)
      (blanks ++ "\x7b" ++ (t.member name (!members.isEmpty) ++ body)) := by
  obtain ⟨d, made, -⟩ := (decode_query_object read).1 decoded
  exact ⟨[], members, read, t.read_front name blank made.readable read, new⟩

end

/-- **Integers in descriptors are what their digits say.** A number of any spelling, put for
an integer literal, is decoded exactly if it is written with digits only, perhaps after
a minus, is not `-0`, and fits a signed word; the literal is shown as that very text. Added
to the descriptor of a query for its limit or its offset, it is decoded exactly if it is
written with digits only and fits an unsigned word; the statement has one more clause
with that very text. Every other number is an error. -/
theorem decode_number_text [FloatReader] (t : NumberText) :
    ((t.FitsInt64 → ∃ n : Int64, n.toInt = t.value ∧ (Literal.integer n).sql = t.text ∧
        decode Literal ("\x7b\x22integer\x22:" ++ t.text ++ "\x7d") = .ok (.integer n)) ∧
      (¬ t.FitsInt64 →
        ∃ e, decode Literal ("\x7b\x22integer\x22:" ++ t.text ++ "\x7d") = .error e)) ∧
    (∀ (text text' : String) (q : Query), decode Query text = .ok q → Adds "limit" t text text' →
      (t.FitsUInt64 → ∃ n : UInt64, n.toNat = t.value ∧
        decode Query text' = .ok { q with limit := some n } ∧
        ((∃ e, q.statement = .error e ∧ { q with limit := some n }.statement = .error e) ∨
          ∃ front, q.statement = .ok (front ++ Query.countClause " OFFSET " q.offset) ∧
            { q with limit := some n }.statement =
              .ok (front ++ " LIMIT " ++ t.text ++ Query.countClause " OFFSET " q.offset))) ∧
      (¬ t.FitsUInt64 → ∃ e, decode Query text' = .error e)) ∧
    (∀ (text text' : String) (q : Query), decode Query text = .ok q → Adds "offset" t text text' →
      (t.FitsUInt64 → ∃ n : UInt64, n.toNat = t.value ∧
        decode Query text' = .ok { q with offset := some n } ∧
        ((∃ e, q.statement = .error e ∧ { q with offset := some n }.statement = .error e) ∨
          ∃ sql, q.statement = .ok sql ∧
            { q with offset := some n }.statement = .ok (sql ++ " OFFSET " ++ t.text))) ∧
      (¬ t.FitsUInt64 → ∃ e, decode Query text' = .error e)) ∧
    ∀ (name blanks body : String) (members : List (Name × Value)) (q : Query),
      (∀ c ∈ blanks.toList, Json.isBlank c = true) →
      decode Query (blanks ++ "\x7b" ++ body) = .ok q →
      Document.read (blanks ++ "\x7b" ++ body) = ⟨.object members, false⟩ →
      (∀ m ∈ members, m.1 ≠ .ok name) →
      Adds name t (blanks ++ "\x7b" ++ body)
        (blanks ++ "\x7b" ++ (Json.quote name ++ ":" ++ t.text ++
          (if members.isEmpty then "" else ",") ++ body)) := by
  refine ⟨⟨fun fits => ?_, fun other => ?_⟩, fun text text' q decoded adds => ⟨fun fits => ?_, fun other => ?_⟩,
    fun text text' q decoded adds => ⟨fun fits => ?_, fun other => ?_⟩,
    fun name blanks body members q blank decoded read new => ?_⟩
  · obtain ⟨value, shown⟩ := sql_integer fits
    exact ⟨_, value, shown, (decode_integer_text t).2 ⟨fits, rfl⟩⟩
  · exact exists_error fun x h => other ((decode_integer_text t).1 h).1
  · obtain ⟨value, shown⟩ := text_count fits
    have unlimited : q.limit = none := (decode_added (i := .limit) adds decoded).1
    have clauses := Query.statement_setLimit unlimited (.ofNat t.value.toNat)
    rw [shown] at clauses
    exact ⟨_, value, (decode_limit adds decoded).2 ⟨fits, rfl⟩, clauses⟩
  · exact exists_error fun x h => other ((decode_limit adds decoded).1 h).1
  · obtain ⟨value, shown⟩ := text_count fits
    have unset : q.offset = none := (decode_added (i := .offset) adds decoded).1
    have clauses := Query.statement_setOffset unset (.ofNat t.value.toNat)
    rw [shown] at clauses
    exact ⟨_, value, (decode_offset adds decoded).2 ⟨fits, rfl⟩, clauses⟩
  · exact exists_error fun x h => other ((decode_offset adds decoded).1 h).1
  · have front := adds_front t name blank decoded read new
    cases filled : members.isEmpty with
    | true =>
      rw [filled] at front
      exact front
    | false =>
      rw [filled] at front
      exact front

/-- The least literal, which fits no count; the greatest count, which fits no literal; and
an integer with an exponent, which is neither. -/
theorem decode_number_text_bounds :
    (∃ n : Int64, n.toInt = -2 ^ 63 ∧ (Literal.integer n).sql = "-9223372036854775808" ∧
      decode Literal "\x7b\x22integer\x22:-9223372036854775808\x7d" = .ok (.integer n)) ∧
    (∃ e, decode Literal "\x7b\x22integer\x22:18446744073709551615\x7d" = .error e) ∧
    (∃ n : UInt64, (n.toNat : Int) = 2 ^ 64 - 1 ∧
      decode Query "\x7b\x22limit\x22:18446744073709551615,\x22table\x22:\x22t\x22\x7d" =
        .ok { table := some "t", limit := some n }) ∧
    (∃ e, decode Query "\x7b\x22offset\x22:-9223372036854775808,\x22table\x22:\x22t\x22\x7d" = .error e) ∧
    (∃ e, decode Query "\x7b\x22offset\x22:1e2,\x22table\x22:\x22t\x22\x7d" = .error e) := by
  have least : (NumberText.ofInt (-2 ^ 63)).text = "-9223372036854775808" := by decide
  have most : (NumberText.ofInt (2 ^ 64 - 1)).text = "18446744073709551615" := by decide
  have digits : ∀ c ∈ ['2'], c.isDigit = true := List.all_eq_true.1 rfl
  let hundred : NumberText :=
    { NumberText.ofInt 1 with exponent := some ⟨false, none, ['2'], by simp, digits⟩ }
  have read : Document.read ("" ++ "\x7b" ++ "\x22table\x22:\x22t\x22\x7d") =
      ⟨.object [(.ok "table", .text "t")], false⟩ := by
    cbv
  have decoded : decode Query ("" ++ "\x7b" ++ "\x22table\x22:\x22t\x22\x7d") =
      .ok { table := some "t" } :=
    decodeText_of_read read
  have added (t : NumberText) (name : String) (new : Except.ok "table" ≠ (.ok name : Name)) :=
    (decode_number_text t).2.2.2 name "" _ _ _ (by simp) decoded read (by simpa using new)
  refine ⟨?_, ?_, ?_, ?_, ?_⟩
  · have accepted := (decode_number_text (.ofInt (-2 ^ 63))).1.1 (NumberText.fitsInt64_ofInt.2 (by decide))
    rw [least, NumberText.value_ofInt] at accepted
    exact accepted
  · have refused := (decode_number_text (.ofInt (2 ^ 64 - 1))).1.2 fun fits =>
      absurd (NumberText.fitsInt64_ofInt.1 fits) (by decide)
    rw [most] at refused
    exact refused
  · have adds := added (.ofInt (2 ^ 64 - 1)) "limit" (by decide)
    rw [most] at adds
    obtain ⟨n, value, accepted, -⟩ := ((decode_number_text (.ofInt (2 ^ 64 - 1))).2.1 _ _ _ decoded adds).1
      (NumberText.fitsUInt64_ofInt.2 (by decide))
    rw [NumberText.value_ofInt] at value
    exact ⟨n, value, accepted⟩
  · have adds := added (.ofInt (-2 ^ 63)) "offset" (by decide)
    rw [least] at adds
    exact ((decode_number_text (.ofInt (-2 ^ 63))).2.2.1 _ _ _ decoded adds).2 fun fits =>
      absurd (NumberText.fitsUInt64_ofInt.1 fits) (by decide)
  · exact ((decode_number_text hundred).2.2.1 _ _ _ decoded (added hundred "offset" (by decide))).2
      fun fits => absurd fits.exponent (by simp [hundred])

end Descriptor

end SqlSelect
