import SqlSelect.Proofs.Descriptor.Encoded
import SqlSelect.Proofs.Descriptor.Room

/-!
# Descriptors decode to what was encoded

Decoding undoes encoding, for expressions and queries, up to the depth that a
descriptor may have and no further (`decode_encode`). The proof follows the
expression: each part decodes in the room that its encoding needs
(`decodeExpr_encodeExpr`), and then the whole does.
-/

set_option autoImplicit false

namespace SqlSelect.Descriptor

open SqlSelect.Json (Document FloatReader Name Number Sound Value opened)

/-! ## Encodings are sound -/

mutual

/-- **The encoding of an expression** can be read back from its text. -/
theorem sound_encodeExpr : (e : Expr) → Sound (encodeExpr e)
  | .literal value => by
    rw [encodeExpr]
    exact sound_variant _ (sound_encodeLiteral value)
  | .field name => by
    rw [encodeExpr]
    exact sound_variant _ .text
  | .binary left op right => by
    rw [encodeExpr]
    refine sound_variant _ (sound_zip ?_)
    simp only [List.forall_mem_cons]
    exact ⟨sound_encodeExpr left, .text, sound_encodeExpr right, by simp⟩
  | .not operand => by
    rw [encodeExpr]
    exact sound_variant _ (sound_encodeExpr operand)
  | .count operand => by
    rw [encodeExpr]
    exact sound_variant _ (sound_encodeOption operand)
  | .aggregate function operand => by
    rw [encodeExpr]
    refine sound_variant _ (sound_zip ?_)
    simp only [List.forall_mem_cons]
    exact ⟨.text, sound_encodeExpr operand, by simp⟩
  | .call name arguments => by
    rw [encodeExpr]
    refine sound_variant _ (sound_zip ?_)
    simp only [List.forall_mem_cons]
    exact ⟨.text, .array (sound_encodeList arguments), by simp⟩
  | .array items => by
    rw [encodeExpr]
    exact sound_variant _ (.array (sound_encodeList items))
  | .tuple items => by
    rw [encodeExpr]
    exact sound_variant _ (.array (sound_encodeList items))
  | .isIn operand candidates => by
    rw [encodeExpr]
    refine sound_variant _ (sound_zip ?_)
    simp only [List.forall_mem_cons]
    exact ⟨sound_encodeExpr operand, .array (sound_encodeList candidates), by simp⟩
  | .between operand low high => by
    rw [encodeExpr]
    refine sound_variant _ (sound_zip ?_)
    simp only [List.forall_mem_cons]
    exact ⟨sound_encodeExpr operand, sound_encodeExpr low, sound_encodeExpr high, by simp⟩
  | .isNull operand negated => by
    rw [encodeExpr]
    refine sound_variant _ (sound_zip ?_)
    simp only [List.forall_mem_cons]
    exact ⟨sound_encodeExpr operand, .boolean, by simp⟩
  | .case subject branches otherwise => by
    rw [encodeExpr]
    refine sound_variant _ (sound_zip ?_)
    simp only [List.forall_mem_cons]
    exact ⟨sound_encodeOption subject, .array (sound_encodeBranches branches),
      sound_encodeOption otherwise, by simp⟩
  | .cast operand type => by
    rw [encodeExpr]
    refine sound_variant _ (sound_zip ?_)
    simp only [List.forall_mem_cons]
    exact ⟨sound_encodeExpr operand, .text, by simp⟩
  | .aliased operand name => by
    rw [encodeExpr]
    refine sound_variant _ (sound_zip ?_)
    simp only [List.forall_mem_cons]
    exact ⟨sound_encodeExpr operand, .text, by simp⟩

theorem sound_encodeList : (es : List Expr) → ∀ v ∈ encodeList es, Sound v
  | [] => by simp [encodeList]
  | e :: rest => by
    rw [encodeList]
    exact List.forall_mem_cons.2 ⟨sound_encodeExpr e, sound_encodeList rest⟩

theorem sound_encodeOption : (e : Option Expr) → Sound (encodeOption e)
  | none => by
    rw [encodeOption]
    exact .null
  | some e => by
    rw [encodeOption]
    exact sound_encodeExpr e

theorem sound_encodeBranches : (bs : List (Expr × Expr)) → ∀ v ∈ encodeBranches bs, Sound v
  | [] => by simp [encodeBranches]
  | (condition, result) :: rest => by
    have pair : ∀ v ∈ [encodeExpr condition, encodeExpr result], Sound v := by
      simp only [List.forall_mem_cons]
      exact ⟨sound_encodeExpr condition, sound_encodeExpr result, by simp⟩
    rw [encodeBranches]
    exact List.forall_mem_cons.2 ⟨.array pair, sound_encodeBranches rest⟩

end

theorem sound_encodeOrderBy (entry : OrderBy) : Sound (encodeOrderBy entry) := by
  apply sound_zip
  simp only [List.forall_mem_cons]
  exact ⟨sound_encodeExpr entry.expr, .text, by simp⟩

theorem sound_encodeCount (count : Option UInt64) : Sound (encodeCount count) := by
  cases count with
  | none => exact .null
  | some n => exact .number (Numeral.written_ofInt _)

/-- **The encoding of a query** can be read back from its text. -/
theorem sound_encodeQuery (q : Query) : Sound (encodeQuery q) := by
  have table : Sound (encodeTable q.table) := by
    cases q.table with
    | none => exact .null
    | some name => exact .text
  have orders : ∀ v ∈ q.orderBys.map encodeOrderBy, Sound v := by
    rw [List.forall_mem_map]
    exact fun entry _ => sound_encodeOrderBy entry
  apply sound_zip
  simp only [List.forall_mem_cons]
  exact ⟨table, .array (sound_encodeList _), .array (sound_encodeList _), .array (sound_encodeList _),
    .array (sound_encodeList _), .array orders, sound_encodeCount _, sound_encodeCount _, .boolean,
    by simp⟩

/-! ## Expressions -/

/-- The record of a variant knows its members by their names. -/
theorem findIn?_members : ∀ (tag : RecordTag), ∀ i ∈ tag.members,
    Named.findIn? tag.members (Named.name i) = some i := by
  intro tag
  cases tag <;> decide

theorem nodup_members (tag : RecordTag) : tag.members.Nodup := by
  cases tag <;> decide

section

variable [FloatReader]

/-- The decoder of what a variant holds that holds one value. -/
def decodePlain (room : Nat) : PlainTag → Decoder Expr
  | .literal => fun v => .literal <$> decodeLiteral room v
  | .field => fun v => .field <$> decodeString v
  | .not => fun v => .not <$> decodeExpr room v
  | .count => fun v => .count <$> decodeOption (decodeExpr room) v
  | .array => fun v => .array <$> decodeList room (fun m _ => decodeExpr m) v
  | .tuple => fun v => .tuple <$> decodeList room (fun m _ => decodeExpr m) v

/-- A variant that holds one value decodes if the value does. -/
theorem decodeExpr_plain (tag : PlainTag) {content : Value} {e : Expr}
    (h : ∀ m, decodePlain m tag content = bounded m content.nesting e) (room : Nat) :
    decodeExpr room (encodePlain tag content) =
      bounded room (encodePlain tag content).nesting e := by
  rw [decodeExpr, encodePlain, encodeVariant, nesting_single]
  apply decodeVariant_single (findVariant_expr _)
  intro m _
  rw [← h m]
  cases tag <;> rfl

/-- A variant that holds a record decodes if each of its members does. -/
theorem decodeExpr_record (tag : RecordTag) (entries : List (Entry ExprMember.Content)) {e : Expr}
    (names : entries.map Sigma.fst = tag.members)
    (reads : ∀ m, ∀ entry ∈ entries, decodeExprMember m (fun k _ => decodeExpr k) entry.1 entry.2.2 =
      bounded m entry.2.2.nesting entry.2.1)
    (whole : tag.assemble (Entry.fill entries .empty) = .ok e) (room : Nat) :
    decodeExpr room (encodeVariant (ExprTag.record tag) (.object (Entry.members entries))) =
      bounded room (encodeVariant (ExprTag.record tag) (.object (Entry.members entries))).nesting e := by
  have known : ∀ entry ∈ entries,
      Named.findIn? tag.record.members (Named.name entry.1) = some entry.1 := by
    intro entry he
    exact findIn?_members tag entry.1 (names ▸ List.mem_map_of_mem he)
  rw [decodeExpr, encodeVariant, nesting_single]
  apply decodeVariant_single (findVariant_expr _)
  intro m _
  have record : tag.record.decode m (fun k _ => decodeExprMember k fun j _ => decodeExpr j)
      (.object (Entry.members entries)) =
        bounded m (Value.nesting (.object (Entry.members entries))) (Entry.fill entries .empty) :=
    decode_bounded known (names ▸ nodup_members tag) fun k _ => reads k
  have done : tag.assemble (Entry.fill entries .empty) = bounded m 0 e := by
    rw [whole, bounded_zero]
  simp only [record]
  apply (bind_bounded done).trans
  rw [Nat.max_zero]

mutual

/-- **An expression** decodes from its encoding in the room that this needs, if the
floats in it are read correctly rounded. -/
theorem decodeExpr_encodeExpr : (e : Expr) → FloatReader.RoundsCorrectly e.floats → ∀ room,
    decodeExpr room (encodeExpr e) = bounded room (encodeExpr e).nesting e.canonical
  | .literal value, rounds, room => by
    rw [Expr.floats] at rounds
    rw [encodeExpr, Expr.canonical]
    apply decodeExpr_plain .literal
    intro m
    simp only [decodePlain, decodeLiteral_encodeLiteral m rounds]
    exact map_bounded _
  | .field name, _, room => by
    rw [encodeExpr, Expr.canonical]
    apply decodeExpr_plain .field
    intro m
    exact (bounded_zero m (Expr.field name)).symm
  | .binary left op right, rounds, room => by
    rw [Expr.floats, FloatReader.roundsCorrectly_append] at rounds
    rw [encodeExpr, Expr.canonical]
    refine decodeExpr_record .binary [⟨.left, left.canonical, encodeExpr left⟩,
      ⟨.op, op, encodeName op⟩, ⟨.right, right.canonical, encodeExpr right⟩] rfl (fun m => ?_) rfl room
    simp only [List.forall_mem_cons]
    exact ⟨decodeExpr_encodeExpr left rounds.1 m, decodeName_encodeName (findVariant_operator op) m,
      decodeExpr_encodeExpr right rounds.2 m, by simp⟩
  | .not operand, rounds, room => by
    rw [Expr.floats] at rounds
    rw [encodeExpr, Expr.canonical]
    apply decodeExpr_plain .not
    intro m
    simp only [decodePlain, decodeExpr_encodeExpr operand rounds m]
    exact map_bounded _
  | .count operand, rounds, room => by
    rw [Expr.floats] at rounds
    rw [encodeExpr, Expr.canonical]
    apply decodeExpr_plain .count
    intro m
    simp only [decodePlain, decodeOption_encodeOption operand rounds m]
    exact map_bounded _
  | .aggregate function operand, rounds, room => by
    rw [Expr.floats] at rounds
    rw [encodeExpr, Expr.canonical]
    refine decodeExpr_record .aggregate [⟨.func, function, encodeName function⟩,
      ⟨.arg, operand.canonical, encodeExpr operand⟩] rfl (fun m => ?_) rfl room
    simp only [List.forall_mem_cons]
    exact ⟨decodeName_encodeName (findVariant_aggregate function) m,
      decodeExpr_encodeExpr operand rounds m, by simp⟩
  | .call name arguments, rounds, room => by
    rw [Expr.floats] at rounds
    rw [encodeExpr, Expr.canonical]
    refine decodeExpr_record .function [⟨.name, name, .text name⟩,
      ⟨.args, listCanonical arguments, .array (encodeList arguments)⟩] rfl (fun m => ?_) rfl room
    simp only [List.forall_mem_cons]
    exact ⟨(bounded_zero m name).symm, decodeList_of_mapM (mapM_encodeList arguments rounds) m, by simp⟩
  | .array items, rounds, room => by
    rw [Expr.floats] at rounds
    rw [encodeExpr, Expr.canonical]
    apply decodeExpr_plain .array
    intro m
    simp only [decodePlain, decodeList_of_mapM (mapM_encodeList items rounds)]
    exact map_bounded _
  | .tuple items, rounds, room => by
    rw [Expr.floats] at rounds
    rw [encodeExpr, Expr.canonical]
    apply decodeExpr_plain .tuple
    intro m
    simp only [decodePlain, decodeList_of_mapM (mapM_encodeList items rounds)]
    exact map_bounded _
  | .isIn operand candidates, rounds, room => by
    rw [Expr.floats, FloatReader.roundsCorrectly_append] at rounds
    rw [encodeExpr, Expr.canonical]
    refine decodeExpr_record .isIn [⟨.expr, operand.canonical, encodeExpr operand⟩,
      ⟨.list, listCanonical candidates, .array (encodeList candidates)⟩] rfl (fun m => ?_) rfl room
    simp only [List.forall_mem_cons]
    exact ⟨decodeExpr_encodeExpr operand rounds.1 m, decodeList_of_mapM (mapM_encodeList candidates rounds.2) m,
      by simp⟩
  | .between operand low high, rounds, room => by
    rw [Expr.floats, FloatReader.roundsCorrectly_append, FloatReader.roundsCorrectly_append] at rounds
    rw [encodeExpr, Expr.canonical]
    refine decodeExpr_record .between [⟨.expr, operand.canonical, encodeExpr operand⟩,
      ⟨.low, low.canonical, encodeExpr low⟩, ⟨.high, high.canonical, encodeExpr high⟩] rfl
      (fun m => ?_) rfl room
    simp only [List.forall_mem_cons]
    exact ⟨decodeExpr_encodeExpr operand rounds.1.1 m, decodeExpr_encodeExpr low rounds.1.2 m,
      decodeExpr_encodeExpr high rounds.2 m, by simp⟩
  | .isNull operand negated, rounds, room => by
    rw [Expr.floats] at rounds
    rw [encodeExpr, Expr.canonical]
    refine decodeExpr_record .isNull [⟨.expr, operand.canonical, encodeExpr operand⟩,
      ⟨.negated, negated, .boolean negated⟩] rfl (fun m => ?_) rfl room
    simp only [List.forall_mem_cons]
    exact ⟨decodeExpr_encodeExpr operand rounds m, (bounded_zero m negated).symm, by simp⟩
  | .case subject branches otherwise, rounds, room => by
    rw [Expr.floats, FloatReader.roundsCorrectly_append, FloatReader.roundsCorrectly_append] at rounds
    rw [encodeExpr, Expr.canonical]
    refine decodeExpr_record .case [⟨.subject, optionCanonical subject, encodeOption subject⟩,
      ⟨.branches, branchesCanonical branches, .array (encodeBranches branches)⟩,
      ⟨.default, optionCanonical otherwise, encodeOption otherwise⟩] rfl (fun m => ?_) rfl room
    simp only [List.forall_mem_cons]
    exact ⟨decodeOption_encodeOption subject rounds.1.1 m, decodeList_of_mapM (mapM_encodeBranches branches rounds.1.2) m,
      decodeOption_encodeOption otherwise rounds.2 m, by simp⟩
  | .cast operand type, rounds, room => by
    rw [Expr.floats] at rounds
    rw [encodeExpr, Expr.canonical]
    refine decodeExpr_record .cast [⟨.expr, operand.canonical, encodeExpr operand⟩,
      ⟨.dataType, type, .text type⟩] rfl (fun m => ?_) rfl room
    simp only [List.forall_mem_cons]
    exact ⟨decodeExpr_encodeExpr operand rounds m, (bounded_zero m type).symm, by simp⟩
  | .aliased operand name, rounds, room => by
    rw [Expr.floats] at rounds
    rw [encodeExpr, Expr.canonical]
    refine decodeExpr_record .aliased [⟨.expr, operand.canonical, encodeExpr operand⟩,
      ⟨.name, name, .text name⟩] rfl (fun m => ?_) rfl room
    simp only [List.forall_mem_cons]
    exact ⟨decodeExpr_encodeExpr operand rounds m, (bounded_zero m name).symm, by simp⟩

/-- Expressions decode one after the other in the room that they need together. -/
theorem mapM_encodeList : (es : List Expr) → FloatReader.RoundsCorrectly (listFloats es) → ∀ room,
    (encodeList es).mapM (decodeExpr room) =
      bounded room (Value.nestingItems (encodeList es)) (listCanonical es)
  | [], _, room => by
    rw [encodeList, listCanonical]
    exact (bounded_zero room []).symm
  | e :: rest, rounds, room => by
    rw [listFloats, FloatReader.roundsCorrectly_append] at rounds
    have later := mapM_encodeList rest rounds.2 room
    rw [encodeList, listCanonical, List.mapM_cons, decodeExpr_encodeExpr e rounds.1 room,
      Value.nestingItems]
    apply bind_bounded
    rw [later]
    exact map_bounded _

/-- An expression that may be absent decodes: none is encoded as `null`, and no expression
is. -/
theorem decodeOption_encodeOption : (e : Option Expr) →
    FloatReader.RoundsCorrectly (optionFloats e) → ∀ room, decodeOption (decodeExpr room) (encodeOption e) =
      bounded room (encodeOption e).nesting (optionCanonical e)
  | none, _, room => by
    rw [encodeOption, optionCanonical]
    exact (bounded_zero room none).symm
  | some e, rounds, room => by
    rw [optionFloats] at rounds
    have some : decodeOption (decodeExpr room) (encodeExpr e) =
        Option.some <$> decodeExpr room (encodeExpr e) := by
      cases e <;> rw [encodeExpr] <;> rfl
    rw [encodeOption, optionCanonical, some, decodeExpr_encodeExpr e rounds room]
    exact map_bounded _

/-- Branches decode one after the other, each from an array of two. -/
theorem mapM_encodeBranches : (bs : List (Expr × Expr)) →
    FloatReader.RoundsCorrectly (branchesFloats bs) → ∀ room, (encodeBranches bs).mapM (decodePair room (fun m _ => decodeExpr m) fun m _ => decodeExpr m) =
      bounded room (Value.nestingItems (encodeBranches bs)) (branchesCanonical bs)
  | [], _, room => by
    rw [encodeBranches, branchesCanonical]
    exact (bounded_zero room []).symm
  | (condition, result) :: rest, rounds, room => by
    rw [branchesFloats, FloatReader.roundsCorrectly_append, FloatReader.roundsCorrectly_append] at rounds
    have later := mapM_encodeBranches rest rounds.2 room
    have pair : decodePair room (fun m _ => decodeExpr m) (fun m _ => decodeExpr m)
        (.array [encodeExpr condition, encodeExpr result]) =
        bounded room (Value.nesting (.array [encodeExpr condition, encodeExpr result]))
          (condition.canonical, result.canonical) :=
      decodePair_bounded (fun m _ => decodeExpr_encodeExpr condition rounds.1.1 m)
        fun m _ => decodeExpr_encodeExpr result rounds.1.2 m
    rw [encodeBranches, branchesCanonical, List.mapM_cons, pair, Value.nestingItems]
    apply bind_bounded
    rw [later]
    exact map_bounded _

end

/-! ## Queries -/

def orderEntries (entry : OrderBy) : List (Entry OrderMember.Content) :=
  [⟨.expr, entry.expr.canonical, encodeExpr entry.expr⟩,
    ⟨.direction, entry.direction, encodeName entry.direction⟩]

/-- An `ORDER BY` entry decodes from its encoding in the room that this needs. -/
theorem decodeOrderBy_encodeOrderBy {entry : OrderBy}
    (rounds : FloatReader.RoundsCorrectly entry.expr.floats) (room : Nat) :
    decodeOrderBy room (encodeOrderBy entry) =
      bounded room (encodeOrderBy entry).nesting entry.canonical := by
  have known : ∀ e ∈ orderEntries entry,
      Named.findIn? orderRecord.members (Named.name e.1) = some e.1 := by
    simp only [orderEntries, List.forall_mem_cons]
    exact ⟨rfl, rfl, by simp⟩
  have distinct : ((orderEntries entry).map Sigma.fst).Nodup := by
    simp only [orderEntries, List.map_cons, List.map_nil]
    decide
  have reads : ∀ m, ∀ e ∈ orderEntries entry,
      decodeOrderMember m e.1 e.2.2 = bounded m e.2.2.nesting e.2.1 := by
    intro m
    simp only [orderEntries, List.forall_mem_cons]
    exact ⟨decodeExpr_encodeExpr entry.expr rounds m,
      decodeName_encodeName (findVariant_direction entry.direction) m, by simp⟩
  have record : orderRecord.decode room (fun m _ => decodeOrderMember m) (encodeOrderBy entry) =
      bounded room (encodeOrderBy entry).nesting (Entry.fill (orderEntries entry) .empty) :=
    decode_bounded known distinct fun m _ => reads m
  have expr : (Entry.fill (orderEntries entry) .empty).need .expr = .ok entry.expr.canonical := rfl
  rw [decodeOrderBy, record, ← Nat.max_zero (encodeOrderBy entry).nesting]
  apply bind_bounded
  rw [expr]
  exact (bounded_zero room entry.canonical).symm

theorem decodeCount_encodeCount (count : Option UInt64) (room : Nat) :
    decodeOption decodeUInt64 (encodeCount count) = bounded room (encodeCount count).nesting count := by
  cases count with
  | none => exact (bounded_zero room none).symm
  | some n =>
    have read : decodeOption decodeUInt64 (encodeCount (some n)) =
        some <$> decodeUInt64 (.number (.ofInt n.toNat)) := rfl
    rw [read, decodeUInt64_encoded]
    exact (bounded_zero room (some n)).symm

theorem decodeTable_encodeTable (table : Option String) (room : Nat) :
    decodeOption decodeString (encodeTable table) = bounded room (encodeTable table).nesting table := by
  cases table with
  | none => exact (bounded_zero room none).symm
  | some name => exact (bounded_zero room (some name)).symm

/-- The entries of an `ORDER BY` decode from the array of their encodings. -/
theorem decodeOrders_encoded {entries : List OrderBy}
    (rounds : FloatReader.RoundsCorrectly (entries.flatMap fun entry => entry.expr.floats))
    (room : Nat) :
    decodeList room (fun k _ => decodeOrderBy k) (.array (entries.map encodeOrderBy)) =
      bounded room (Value.nesting (.array (entries.map encodeOrderBy)))
        (entries.map OrderBy.canonical) := by
  have pairs : ∀ k, ∀ e ∈ entries.map (fun o => (encodeOrderBy o, o.canonical)),
      decodeOrderBy k e.1 = bounded k e.1.nesting e.2 := by
    intro k
    rw [List.forall_mem_map]
    intro o ho
    exact decodeOrderBy_encodeOrderBy (fun x hx => rounds x (List.mem_flatMap.2 ⟨o, ho, hx⟩)) k
  have together := decodeList_bounded pairs room
  rw [List.map_map, List.map_map] at together
  exact together

def queryEntries (q : Query) : List (Entry QueryMember.Content) :=
  [⟨.table, q.table, encodeTable q.table⟩,
    ⟨.selects, listCanonical q.selects, .array (encodeList q.selects)⟩,
    ⟨.wheres, listCanonical q.wheres, .array (encodeList q.wheres)⟩,
    ⟨.groupBys, listCanonical q.groupBys, .array (encodeList q.groupBys)⟩,
    ⟨.havings, listCanonical q.havings, .array (encodeList q.havings)⟩,
    ⟨.orderBys, q.orderBys.map OrderBy.canonical, .array (q.orderBys.map encodeOrderBy)⟩,
    ⟨.limit, q.limit, encodeCount q.limit⟩, ⟨.offset, q.offset, encodeCount q.offset⟩,
    ⟨.distinct, q.distinct, .boolean q.distinct⟩]

/-- **A query** decodes from its encoding in the room that this needs, if the floats in
it are read correctly rounded. -/
theorem decodeQuery_encodeQuery {q : Query} (rounds : FloatReader.RoundsCorrectly q.floats)
    (room : Nat) :
    decodeQuery room (encodeQuery q) = bounded room (encodeQuery q).nesting q.canonical := by
  simp only [Query.floats, FloatReader.roundsCorrectly_append] at rounds
  obtain ⟨⟨⟨⟨selects, wheres⟩, groupBys⟩, havings⟩, orderBys⟩ := rounds
  have known : ∀ e ∈ queryEntries q,
      Named.findIn? queryRecord.members (Named.name e.1) = some e.1 := by
    simp only [queryEntries, List.forall_mem_cons]
    exact ⟨rfl, rfl, rfl, rfl, rfl, rfl, rfl, rfl, rfl, by simp⟩
  have distinct : ((queryEntries q).map Sigma.fst).Nodup := by
    simp only [queryEntries, List.map_cons, List.map_nil]
    decide
  have list {es : List Expr} (rounds : FloatReader.RoundsCorrectly (listFloats es)) (m : Nat) :
      decodeList m (fun k _ => decodeExpr k) (.array (encodeList es)) =
        bounded m (Value.nesting (.array (encodeList es))) (listCanonical es) :=
    decodeList_of_mapM (mapM_encodeList es rounds) m
  have reads : ∀ m, ∀ e ∈ queryEntries q,
      decodeQueryMember m e.1 e.2.2 = bounded m e.2.2.nesting e.2.1 := by
    intro m
    simp only [queryEntries, List.forall_mem_cons]
    exact ⟨decodeTable_encodeTable q.table m, list selects m, list wheres m, list groupBys m,
      list havings m, decodeOrders_encoded orderBys m, decodeCount_encodeCount q.limit m,
      decodeCount_encodeCount q.offset m, (bounded_zero m q.distinct).symm, by simp⟩
  have record : queryRecord.decode room (fun m _ => decodeQueryMember m) (encodeQuery q) =
      bounded room (encodeQuery q).nesting (Entry.fill (queryEntries q) .empty) :=
    decode_bounded known distinct fun m _ => reads m
  rw [decodeQuery, record]
  exact map_bounded assembleQuery

end

/-! ## Texts -/

/-- A text that a sound value was written to decodes as the value does. -/
theorem decodeText_compact {α : Type} {decode : (room : Nat) → Decoder α} {v : Value} (h : Sound v)
    {x : α} (hx : decode maxDepth v = bounded maxDepth v.nesting x) :
    decodeText decode v.compact =
      if opened v.compact ≤ maxDepth then .ok x else .error (.unreadable .tooDeep) := by
  rw [decodeText_of_read h.read_compact, hx, h.opened_compact, bounded]

/-- **Decoding undoes encoding**, up to the depth that a descriptor may have;
beyond it there is the one error about depth. What comes back has the text of
what was encoded. Numbers are read correctly rounded here. -/
theorem decode_encode :
    (∀ e : Expr, decode Expr (encode e) =
        (if opened (encode e) ≤ 127 then .ok e.canonical else .error (.unreadable .tooDeep)) ∧
      e.canonical.sql = e.sql) ∧
    ∀ q : Query, decode Query (encode q) =
        (if opened (encode q) ≤ 127 then .ok q.canonical else .error (.unreadable .tooDeep)) ∧
      q.canonical.statement = q.statement :=
  ⟨fun e => ⟨decodeText_compact (sound_encodeExpr e)
      (decodeExpr_encodeExpr e (FloatReader.roundsCorrectly_nearest _) maxDepth), e.sql_canonical⟩,
    fun q => ⟨decodeText_compact (sound_encodeQuery q)
      (decodeQuery_encodeQuery (FloatReader.roundsCorrectly_nearest _) maxDepth),
      q.statement_canonical⟩⟩

end SqlSelect.Descriptor
