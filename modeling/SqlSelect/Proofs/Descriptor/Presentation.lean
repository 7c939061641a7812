import Mathlib
import SqlSelect.Proofs.Descriptor.Accepted
import SqlSelect.Proofs.Descriptor.RoundTrip
import SqlSelect.Proofs.Descriptor.Slots

/-!
# Presentation makes no difference

A descriptor may be rewritten in places without describing anything else: the
members of a record may be reordered, a member that holds its default may be left
out, a record may be written as an array, and a name as an object. `Respells` is one
such step, anywhere in a value, and a run of steps leads to texts that decode as the
encoding does (`decode_respelt`). A record that has a member twice is never decoded.
-/

set_option autoImplicit false

namespace SqlSelect.Descriptor

open SqlSelect.Json (Document FloatReader Name Sound Value opened)

/-! ## Spellings -/

namespace Shape

/-- The names of the members of a record, in order; none for any other shape. -/
def names : Shape → List String
  | .body tag => tag.members.map Named.name
  | .order => Named.names OrderMember
  | .query => Named.names QueryMember
  | _ => []

/-- The members of a record that mean the same if they are left out. -/
def defaults : Shape → List (String × Value)
  | .body .case => [("subject", .null), ("default", .null)]
  | .order => [("direction", .text "asc"), ("direction", .single "asc" .null)]
  | .query => [("table", .null), ("select", .array []), ("where", .array []),
      ("group_by", .array []), ("having", .array []), ("order_by", .array []), ("limit", .null),
      ("offset", .null), ("distinct", .boolean false)]
  | _ => []

/-- The members that may be missing at the end of an array. -/
def lackable : Shape → List String
  | .order => ["direction"]
  | .query => Named.names QueryMember
  | _ => []

/-- The variants that hold nothing. -/
def units : Shape → List String
  | .operator => Named.names BinaryOperator
  | .function => Named.names AggregateFunction
  | .direction => Named.names Direction
  | .literal => ["null"]
  | _ => []

end Shape

/-- The members of an object with the given names and contents. -/
abbrev membersOf (names : List String) (contents : List Value) : List (Name × Value) :=
  (names.zip contents).map fun m => (.ok m.1, m.2)

/-- One step from a spelling of a shape to another. -/
inductive Respells : Shape → Value → Value → Prop
  /-- The members of a record change places. -/
  | reorder {s : Shape} {members members' : List (Name × Value)} (record : s.names ≠ [])
      (same : members.Perm members') : Respells s (.object members) (.object members')
  /-- A member that holds its default is left out. -/
  | leaveOut {s : Shape} {name : String} {v : Value} {before after : List (Name × Value)}
      (default : (name, v) ∈ s.defaults) :
      Respells s (.object (before ++ (.ok name, v) :: after)) (.object (before ++ after))
  /-- A record is written as the array of what its members hold, up to the last of
  them or to where all others may be missing. -/
  | array {s : Shape} {members : List (Name × Value)} {contents : List Value}
      (record : s.names ≠ []) (fit : contents.length ≤ s.names.length)
      (lacking : ∀ name ∈ s.names.drop contents.length, name ∈ s.lackable)
      (same : members.Perm (membersOf s.names contents)) :
      Respells s (.object members) (.array contents)
  /-- A variant that holds nothing is written as an object. -/
  | unit {s : Shape} {name : String} (known : name ∈ s.units) :
      Respells s (.text name) (.single name .null)
  /-- A member of an object is respelt. -/
  | member {s part : Shape} {name : String} {v w : Value} {before after : List (Name × Value)}
      (shape : s.member? name = some part) (inner : Respells part v w) :
      Respells s (.object (before ++ (.ok name, v) :: after))
        (.object (before ++ (.ok name, w) :: after))
  /-- An item of an array is respelt. -/
  | item {s : Shape} {v w : Value} {before after : List Value}
      (inner : Respells (s.item before.length) v w) :
      Respells s (.array (before ++ v :: after)) (.array (before ++ w :: after))

/-- What a variant holds is respelt. -/
theorem Respells.single {s part : Shape} {name : String} {v w : Value}
    (shape : s.member? name = some part) (inner : Respells part v w) :
    Respells s (.single name v) (.single name w) :=
  @Respells.member s part name v w [] [] shape inner

section

variable [FloatReader]

/-- What a record is taken for: its draft is finished in some way. -/
def Record.Accepts {ι : Type} [Named ι] [DecidableEq ι] {τ : ι → Type} {α : Type} (r : Record ι)
    (member : Nat → (i : ι) → Decoder (τ i)) (finish : Draft τ → Except DecodeError α) (room : Nat)
    (v : Value) (x : α) : Prop :=
  ∃ d, r.decode room (fun m _ => member m) v = .ok d ∧ finish d = .ok x

namespace Record.Accepts

variable {ι : Type} [Named ι] [DecidableEq ι] {τ : ι → Type} {α : Type} {r : Record ι}
  {member : Nat → (i : ι) → Decoder (τ i)} {finish : Draft τ → Except DecodeError α} {room : Nat}
  {x : α}

/-- An object is accepted if its members make a draft that can be finished. -/
theorem object_iff {members : List (Name × Value)} :
    r.Accepts member finish room (.object members) x ↔
      ∃ m d, room = m + 1 ∧ r.Gathers (member m) members .empty d ∧ finish d = .ok x := by
  simp only [Accepts, decode_eq_ok, Value.object.injEq, reduceCtorEq, false_and, exists_false,
    or_false]
  constructor
  · rintro ⟨d, ⟨m, rfl, _, rfl, made⟩, whole⟩
    exact ⟨m, d, rfl, made, whole⟩
  · rintro ⟨m, d, rfl, made, whole⟩
    exact ⟨d, ⟨m, rfl, _, rfl, made⟩, whole⟩

/-- An array is accepted if its items make a draft that can be finished. -/
theorem array_iff {items : List Value} :
    r.Accepts member finish room (.array items) x ↔
      ∃ m d, room = m + 1 ∧ r.decodeItems (member m) r.members items .empty = .ok d ∧
        finish d = .ok x := by
  simp only [Accepts, decode_eq_ok, Value.array.injEq, reduceCtorEq, false_and, exists_false,
    false_or]
  constructor
  · rintro ⟨d, ⟨m, rfl, _, rfl, made⟩, whole⟩
    exact ⟨m, d, rfl, made, whole⟩
  · rintro ⟨m, d, rfl, made, whole⟩
    exact ⟨d, ⟨m, rfl, _, rfl, made⟩, whole⟩

theorem reorder {members members' : List (Name × Value)}
    (h : r.Accepts member finish room (.object members) x) (same : members.Perm members') :
    r.Accepts member finish room (.object members') x := by
  obtain ⟨m, d, rfl, made, whole⟩ := object_iff.1 h
  exact object_iff.2 ⟨m, d, rfl, made.perm same, whole⟩

/-- A member may be left out if the draft is finished in the same way without it. -/
theorem leaveOut {name : String} {v : Value} {before after : List (Name × Value)} {i : ι}
    (h : r.Accepts member finish room (.object (before ++ (.ok name, v) :: after)) x)
    (known : Named.findIn? r.members name = some i)
    (same : ∀ m d y, member m i v = .ok y → d i = some y →
      finish (Function.update d i none) = finish d) :
    r.Accepts member finish room (.object (before ++ after)) x := by
  obtain ⟨m, d, rfl, made, whole⟩ := object_iff.1 h
  have first : r.Gathers (member m) ((.ok name, v) :: (before ++ after)) .empty d :=
    made.perm List.perm_middle
  have known' : r.member? (.ok name, v) = some i := known
  obtain ⟨y, value, here⟩ := first.held _ List.mem_cons_self i known'
  refine object_iff.2 ⟨m, Function.update d i none, rfl, first.leave known', ?_⟩
  rw [same m d y value here, whole]

/-- A record may be written as an array. -/
theorem array {members : List (Name × Value)} {contents : List Value}
    (h : r.Accepts member finish room (.object members) x)
    (known : ∀ i ∈ r.members, Named.findIn? r.members (Named.name i) = some i)
    (fit : contents.length ≤ r.members.length)
    (lacking : ∀ i ∈ r.members.drop contents.length, r.mayLack i = true)
    (same : members.Perm (membersOf (r.members.map Named.name) contents)) :
    r.Accepts member finish room (.array contents) x := by
  obtain ⟨m, d, rfl, made, whole⟩ := object_iff.1 h
  exact array_iff.2 ⟨m, d, rfl, (made.perm same).items known fit lacking, whole⟩

/-- A member that is known decodes, and another value that decodes to the same may
stand in its place. -/
theorem member_decodes {name : String} {v : Value} {before after : List (Name × Value)} {i : ι}
    (h : r.Accepts member finish room (.object (before ++ (.ok name, v) :: after)) x)
    (known : Named.findIn? r.members name = some i) :
    ∃ m y, room = m + 1 ∧ member m i v = .ok y ∧ ∀ w, member m i w = .ok y →
      r.Accepts member finish room (.object (before ++ (.ok name, w) :: after)) x := by
  obtain ⟨m, d, rfl, made, whole⟩ := object_iff.1 h
  have known' : r.member? (.ok name, v) = some i := known
  obtain ⟨y, value, -⟩ := made.held (.ok name, v) (by simp) i known'
  refine ⟨m, y, rfl, value, fun w hw => object_iff.2 ⟨m, d, rfl, ?_, whole⟩⟩
  refine made.replace known' fun z hz => ?_
  rw [← hz, value, hw]

/-- A record that refuses unknown members knows each that is there. -/
theorem known_of_strict {name : String} {v : Value} {members : List (Name × Value)}
    (h : r.Accepts member finish room (.object members) x) (strict : r.strict = true)
    (mentioned : (.ok name, v) ∈ members) : ∃ i, Named.findIn? r.members name = some i := by
  obtain ⟨m, d, rfl, made, -⟩ := object_iff.1 h
  cases known : Named.findIn? r.members name with
  | some i => exact ⟨i, rfl⟩
  | none =>
    have ignored := made.ignored _ mentioned known
    rw [strict] at ignored
    exact absurd ignored.1 (by decide)

/-- An item decodes in its turn, and another that decodes to the same may stand in its
place. -/
theorem item_decodes {v : Value} {before after : List Value}
    (h : r.Accepts member finish room (.array (before ++ v :: after)) x) :
    ∃ m i y, room = m + 1 ∧ r.members[before.length]? = some i ∧ member m i v = .ok y ∧
      ∀ w, member m i w = .ok y →
        r.Accepts member finish room (.array (before ++ w :: after)) x := by
  obtain ⟨m, d, rfl, made, whole⟩ := array_iff.1 h
  obtain ⟨i, y, turn, value, replaced⟩ := decodeItems_item made
  exact ⟨m, i, y, rfl, turn, value, fun w hw => array_iff.2 ⟨m, d, rfl, replaced w hw, whole⟩⟩

end Record.Accepts

/-- The entry with the given members. -/
def assembleOrder (d : Draft OrderMember.Content) : Except DecodeError OrderBy :=
  return { expr := ← d.need .expr, direction := (d .direction).getD .asc }

section

variable {room : Nat} {v : Value}

theorem decodeBody_eq_ok {tag : RecordTag} {e : Expr} :
    (Shape.body tag).decode room v = .ok e ↔
      tag.record.Accepts Shape.exprMember tag.assemble room v e :=
  bind_eq_ok

theorem decodeOrderBy_eq_ok {entry : OrderBy} :
    decodeOrderBy room v = .ok entry ↔
      orderRecord.Accepts decodeOrderMember assembleOrder room v entry :=
  bind_eq_ok

theorem decodeQuery_eq_ok {q : Query} :
    decodeQuery room v = .ok q ↔
      queryRecord.Accepts decodeQueryMember (fun d => .ok (assembleQuery d)) room v q := by
  rw [decodeQuery, map_eq_ok]
  simp only [Record.Accepts, Except.ok.injEq]

theorem decodeList_shape {s : Shape} {xs : List s.Content} :
    (Shape.list s).decode room v = .ok xs ↔ ∃ m items, room = m + 1 ∧ v = .array items ∧
      List.Forall₂ (fun w x => s.decode m w = .ok x) items xs :=
  decodeList_eq_ok

theorem decodePair_shape {s : Shape} {p : s.Content × s.Content} :
    (Shape.pair s).decode room v = .ok p ↔ ∃ m a b, room = m + 1 ∧ v = .array [a, b] ∧
      s.decode m a = .ok p.1 ∧ s.decode m b = .ok p.2 :=
  decodePair_eq_ok

end

/-! ## Parts -/

/-- A part decodes in one less of the room at least, and what decodes to the same
may stand in its place. -/
def Part (part : Shape) (room : Nat) (v : Value) (whole : Value → Prop) : Prop :=
  ∃ m y, room ≤ m + 1 ∧ part.decode m v = .ok y ∧ ∀ w, part.decode m w = .ok y → whole w

section

variable {room : Nat} {name : String} {v : Value}

omit [FloatReader] in
/-- A variant has one member and no others before or after it. -/
theorem object_eq_single {name' : String} {content : Value} {before after : List (Name × Value)} :
    .object (before ++ (.ok name, v) :: after) = Value.single name' content ↔
      before = [] ∧ after = [] ∧ name = name' ∧ v = content := by
  cases before with
  | nil =>
    simp only [Value.single, List.nil_append, Value.object.injEq, List.cons.injEq, Prod.mk.injEq,
      Except.ok.injEq, true_and]
    constructor
    · rintro ⟨⟨hn, hv⟩, ha⟩
      exact ⟨ha, hn, hv⟩
    · rintro ⟨ha, hn, hv⟩
      exact ⟨⟨hn, hv⟩, ha⟩
  | cons m before => simp [Value.single]

theorem part_of_name {ι : Type} [Named ι] {i : ι} {before after : List (Name × Value)}
    (h : decodeName room (.object (before ++ (.ok name, v) :: after)) = .ok i) :
    Part .unit room v fun w =>
      decodeName room (.object (before ++ (.ok name, w) :: after)) = .ok i := by
  rcases decodeName_eq_ok.1 h with ⟨_, ⟨⟩, -⟩ | ⟨m, name', content, rfl, same, found, hu⟩
  obtain ⟨rfl, rfl, rfl, rfl⟩ := object_eq_single.1 same
  refine ⟨m, (), Nat.le_refl _, hu, fun w hw => ?_⟩
  exact decodeName_eq_ok.2 (.inr ⟨m, name, w, rfl, rfl, found, hw⟩)

/-- What a literal holds is a part of it. -/
theorem part_of_literal {part : Shape} {x : Literal} {before after : List (Name × Value)}
    (shape : Shape.literal.member? name = some part)
    (h : decodeLiteral room (.object (before ++ (.ok name, v) :: after)) = .ok x) :
    Part part room v fun w =>
      decodeLiteral room (.object (before ++ (.ok name, w) :: after)) = .ok x := by
  rcases decodeLiteral_eq_ok.1 h with
    ⟨⟨⟩, -⟩ | ⟨m, name', tag, content, held, rfl, same, found, hc, rfl⟩
  obtain ⟨rfl, rfl, rfl, rfl⟩ := object_eq_single.1 same
  rw [Shape.member?, findVariant_eq_ok.1 found] at shape
  obtain rfl : tag.shape = part := Option.some.inj shape
  refine ⟨m, held, Nat.le_refl _, hc, fun w hw => ?_⟩
  exact decodeLiteral_eq_ok.2 (.inr ⟨m, name, tag, w, held, rfl, rfl, found, hw, rfl⟩)

/-- What a variant of an expression holds is a part of it. -/
theorem part_of_expr {part : Shape} {e : Expr} {before after : List (Name × Value)}
    (shape : Shape.expr.member? name = some part)
    (h : decodeExpr room (.object (before ++ (.ok name, v) :: after)) = .ok e) :
    Part part room v fun w =>
      decodeExpr room (.object (before ++ (.ok name, w) :: after)) = .ok e := by
  obtain ⟨m, name', tag, content, held, rfl, same, found, hc, rfl⟩ := decodeExpr_eq_ok.1 h
  obtain ⟨rfl, rfl, rfl, rfl⟩ := object_eq_single.1 same
  rw [Shape.member?, findVariant_eq_ok.1 found] at shape
  obtain rfl : tag.shape = part := Option.some.inj shape
  refine ⟨m, held, Nat.le_refl _, hc, fun w hw => ?_⟩
  exact decodeExpr_eq_ok.2 ⟨m, name, tag, w, held, rfl, rfl, found, hw, rfl⟩

/-- Each member of a record in an expression is a part by the shape of what it holds. -/
theorem part_of_exprMember {m : Nat} {i : ExprMember} {y : i.Content} {whole : Value → Prop}
    (value : Shape.exprMember m i v = .ok y)
    (replaced : ∀ w, Shape.exprMember m i w = .ok y → whole w) : Part i.shape (m + 1) v whole := by
  cases i <;> exact ⟨m, y, Nat.le_refl _, value, replaced⟩

theorem part_of_orderMember {m : Nat} {i : OrderMember} {y : i.Content} {whole : Value → Prop}
    (value : decodeOrderMember m i v = .ok y)
    (replaced : ∀ w, decodeOrderMember m i w = .ok y → whole w) : Part i.shape (m + 1) v whole := by
  cases i <;> exact ⟨m, y, Nat.le_refl _, value, replaced⟩

theorem part_of_queryMember {m : Nat} {i : QueryMember} {y : i.Content} {whole : Value → Prop}
    (value : decodeQueryMember m i v = .ok y)
    (replaced : ∀ w, decodeQueryMember m i w = .ok y → whole w) : Part i.shape (m + 1) v whole := by
  cases i <;> exact ⟨m, y, Nat.le_refl _, value, replaced⟩

/-- **A member of an object** that is of some shape is a part of what is decoded. -/
theorem part_of_member {s part : Shape} {x : s.Content} {before after : List (Name × Value)}
    (shape : s.member? name = some part)
    (h : s.decode room (.object (before ++ (.ok name, v) :: after)) = .ok x) :
    Part part room v fun w =>
      s.decode room (.object (before ++ (.ok name, w) :: after)) = .ok x := by
  induction s with
  | any =>
    obtain rfl := Option.some.inj shape
    exact ⟨room, (), Nat.le_succ room, rfl, fun _ _ => h⟩
  | unit | boolean | string | integer | count | list | pair => cases h
  | float =>
    obtain ⟨⟨⟩, -, h⟩ := bind_eq_ok.1 h
    cases h
  | operator | function | direction =>
    obtain rfl := Option.some.inj shape
    exact part_of_name h
  | literal => exact part_of_literal shape h
  | expr => exact part_of_expr shape h
  | body tag =>
    obtain ⟨i, known, rfl⟩ := Option.map_eq_some_iff.1 shape
    obtain ⟨m, y, rfl, value, replaced⟩ := (decodeBody_eq_ok.1 h).member_decodes known
    exact part_of_exprMember value fun w hw => decodeBody_eq_ok.2 (replaced w hw)
  | order =>
    obtain ⟨i, known, rfl⟩ := Option.map_eq_some_iff.1 shape
    obtain ⟨m, y, rfl, value, replaced⟩ := (decodeOrderBy_eq_ok.1 h).member_decodes known
    exact part_of_orderMember value fun w hw => decodeOrderBy_eq_ok.2 (replaced w hw)
  | query =>
    have accepted := decodeQuery_eq_ok.1 h
    obtain ⟨i, known⟩ := accepted.known_of_strict rfl (List.mem_append_right _ List.mem_cons_self)
    have found : Named.findIn? Named.all name = some i := known
    rw [Shape.member?, found] at shape
    obtain rfl : i.shape = part := Option.some.inj shape
    obtain ⟨m, y, rfl, value, replaced⟩ := accepted.member_decodes known
    exact part_of_queryMember value fun w hw => decodeQuery_eq_ok.2 (replaced w hw)
  | option s ih =>
    obtain ⟨y, hy, rfl⟩ := map_eq_ok.1 h
    obtain ⟨m, z, le, hv, replaced⟩ := ih shape hy
    exact ⟨m, z, le, hv, fun w hw => map_eq_ok.2 ⟨y, replaced w hw, rfl⟩⟩

omit [FloatReader] in
theorem forall₂_item {α β : Type} {R : α → β → Prop} {a : α} {before after : List α} {bs : List β}
    (h : List.Forall₂ R (before ++ a :: after) bs) :
    ∃ b, R a b ∧ ∀ a', R a' b → List.Forall₂ R (before ++ a' :: after) bs := by
  induction before generalizing bs with
  | nil =>
    cases h with
    | cons first later => exact ⟨_, first, fun a' ha => .cons ha later⟩
  | cons c before ih =>
    cases h with
    | cons first later =>
      obtain ⟨b, hb, replaced⟩ := ih later
      exact ⟨b, hb, fun a' ha => .cons first (replaced a' ha)⟩

/-- Both items of a pair are parts of it. -/
theorem part_of_pair {s : Shape} {p : s.Content × s.Content} {before after : List Value}
    (h : (Shape.pair s).decode room (.array (before ++ v :: after)) = .ok p) :
    Part s room v fun w => (Shape.pair s).decode room (.array (before ++ w :: after)) = .ok p := by
  obtain ⟨m, a, b, rfl, same, first, second⟩ := decodePair_shape.1 h
  have same : before ++ v :: after = [a, b] := Value.array.inj same
  cases before with
  | nil =>
    obtain ⟨rfl, rfl⟩ : v = a ∧ after = [b] := by simpa using same
    refine ⟨m, p.1, Nat.le_refl _, first, fun w hw => ?_⟩
    exact decodePair_shape.2 ⟨m, w, b, rfl, rfl, hw, second⟩
  | cons c before =>
    obtain ⟨rfl, same⟩ := List.cons.inj same
    obtain ⟨rfl, rfl, rfl⟩ : before = [] ∧ v = b ∧ after = [] := by
      cases before with
      | nil => simpa using same
      | cons d before => simp at same
    refine ⟨m, p.2, Nat.le_refl _, second, fun w hw => ?_⟩
    exact decodePair_shape.2 ⟨m, c, w, rfl, rfl, first, hw⟩

/-- **An item of an array** is a part of what is decoded. -/
theorem part_of_item {s : Shape} {x : s.Content} {before after : List Value}
    (h : s.decode room (.array (before ++ v :: after)) = .ok x) :
    Part (s.item before.length) room v fun w =>
      s.decode room (.array (before ++ w :: after)) = .ok x := by
  induction s with
  | any => exact ⟨room, (), Nat.le_succ room, rfl, fun _ _ => h⟩
  | unit | boolean | string | integer | count => cases h
  | float =>
    obtain ⟨⟨⟩, -, h⟩ := bind_eq_ok.1 h
    cases h
  | operator | function | direction =>
    obtain (⟨_, ⟨⟩, -⟩ | ⟨_, _, _, -, ⟨⟩, -⟩) := decodeName_eq_ok.1 h
  | literal =>
    obtain (⟨⟨⟩, -⟩ | ⟨_, _, _, _, _, -, ⟨⟩, -⟩) := decodeLiteral_eq_ok.1 h
  | expr =>
    obtain ⟨_, _, _, _, _, -, ⟨⟩, -⟩ := decodeExpr_eq_ok.1 h
  | body tag =>
    obtain ⟨m, i, y, rfl, turn, value, replaced⟩ := (decodeBody_eq_ok.1 h).item_decodes
    have turn : tag.members[before.length]? = some i := turn
    rw [Shape.item, turn]
    exact part_of_exprMember value fun w hw => decodeBody_eq_ok.2 (replaced w hw)
  | order =>
    obtain ⟨m, i, y, rfl, turn, value, replaced⟩ := (decodeOrderBy_eq_ok.1 h).item_decodes
    have turn : (Named.all : List OrderMember)[before.length]? = some i := turn
    rw [Shape.item, turn]
    exact part_of_orderMember value fun w hw => decodeOrderBy_eq_ok.2 (replaced w hw)
  | query =>
    obtain ⟨m, i, y, rfl, turn, value, replaced⟩ := (decodeQuery_eq_ok.1 h).item_decodes
    have turn : (Named.all : List QueryMember)[before.length]? = some i := turn
    rw [Shape.item, turn]
    exact part_of_queryMember value fun w hw => decodeQuery_eq_ok.2 (replaced w hw)
  | option s ih =>
    obtain ⟨y, hy, rfl⟩ := map_eq_ok.1 h
    obtain ⟨m, z, le, hv, replaced⟩ := ih hy
    exact ⟨m, z, le, hv, fun w hw => map_eq_ok.2 ⟨y, replaced w hw, rfl⟩⟩
  | list s =>
    obtain ⟨m, items, rfl, same, parts⟩ := decodeList_shape.1 h
    obtain rfl := Value.array.inj same
    obtain ⟨y, hy, replaced⟩ := forall₂_item parts
    refine ⟨m, y, Nat.le_refl _, hy, fun w hw => ?_⟩
    exact decodeList_shape.2 ⟨m, _, rfl, rfl, replaced w hw⟩
  | pair s => exact part_of_pair h

end

/-! ## Steps -/

section

variable {room : Nat}

/-- A name that stands by itself may stand in an object with nothing. -/
theorem unit_step {s : Shape} {name : String} {x : s.Content} (known : name ∈ s.units)
    (h : s.decode (room + 1) (.text name) = .ok x) :
    s.decode (room + 1) (.single name .null) = .ok x := by
  have named {ι : Type} [Named ι] {i : ι} (h : decodeName (room + 1) (.text name) = .ok i) :
      decodeName (room + 1) (.single name .null) = .ok i := by
    rcases decodeName_eq_ok.1 h with ⟨_, ⟨⟩, found⟩ | ⟨_, _, _, -, ⟨⟩, -⟩
    exact decodeName_eq_ok.2 (.inr ⟨room, name, .null, rfl, rfl, found, rfl⟩)
  cases s with
  | operator | function | direction => exact named h
  | literal =>
    obtain rfl := List.mem_singleton.1 known
    exact h
  | _ => cases known

/-- Step: a record may be reordered. -/
theorem reorder_step {s : Shape} {members members' : List (Name × Value)} {x : s.Content}
    (record : s.names ≠ []) (same : members.Perm members')
    (h : s.decode room (.object members) = .ok x) : s.decode room (.object members') = .ok x := by
  cases s with
  | body tag => exact decodeBody_eq_ok.2 ((decodeBody_eq_ok.1 h).reorder same)
  | order => exact decodeOrderBy_eq_ok.2 ((decodeOrderBy_eq_ok.1 h).reorder same)
  | query => exact decodeQuery_eq_ok.2 ((decodeQuery_eq_ok.1 h).reorder same)
  | _ => exact absurd rfl record

omit [FloatReader] in
theorem orderRecord_known (i : OrderMember) :
    Named.findIn? orderRecord.members (Named.name i) = some i := by
  cases i <;> rfl

omit [FloatReader] in
theorem queryRecord_known (i : QueryMember) :
    Named.findIn? queryRecord.members (Named.name i) = some i :=
  (queryRecord_complete _ _).2 rfl

omit [FloatReader] in
/-- What is missing at the end of an array is a member that may be. -/
theorem mayLack_of_names {ι : Type} [Named ι] {r : Record ι} {lackable : List String} {k : Nat}
    (lacking : ∀ name ∈ (r.members.map Named.name).drop k, name ∈ lackable)
    (may : ∀ i, Named.name i ∈ lackable → r.mayLack i = true) :
    ∀ i ∈ r.members.drop k, r.mayLack i = true := by
  intro i hi
  apply may
  apply lacking
  rw [← List.map_drop]
  exact List.mem_map_of_mem hi

/-- Step: a record may be written as an array. -/
theorem array_step {s : Shape} {members : List (Name × Value)} {contents : List Value}
    {x : s.Content} (record : s.names ≠ []) (fit : contents.length ≤ s.names.length)
    (lacking : ∀ name ∈ s.names.drop contents.length, name ∈ s.lackable)
    (same : members.Perm (membersOf s.names contents))
    (h : s.decode room (.object members) = .ok x) : s.decode room (.array contents) = .ok x := by
  cases s with
  | body tag =>
    have fit : contents.length ≤ tag.members.length := fit.trans (List.length_map _).le
    have may : ∀ i ∈ tag.members.drop contents.length, tag.record.mayLack i = true :=
      mayLack_of_names (r := tag.record) lacking fun i hi => absurd hi List.not_mem_nil
    exact decodeBody_eq_ok.2 ((decodeBody_eq_ok.1 h).array (findIn?_members tag) fit may same)
  | order =>
    have may : ∀ i ∈ orderRecord.members.drop contents.length, orderRecord.mayLack i = true := by
      refine mayLack_of_names lacking fun i hi => ?_
      cases i with
      | expr => exact absurd hi (by decide)
      | direction => rfl
    have accepted := (decodeOrderBy_eq_ok.1 h).array (fun i _ => orderRecord_known i) fit may same
    exact decodeOrderBy_eq_ok.2 accepted
  | query =>
    have accepted := (decodeQuery_eq_ok.1 h).array (fun i _ => queryRecord_known i) fit
      (fun _ _ => rfl) same
    exact decodeQuery_eq_ok.2 accepted
  | _ => exact absurd rfl record

omit [FloatReader] in
/-- A draft of a query that has the default in a place is taken for what it is taken
for without it. -/
theorem assembleQuery_update {d : Draft QueryMember.Content} {i : QueryMember}
    (here : d i = some i.absent) : assembleQuery (Function.update d i none) = assembleQuery d := by
  apply slot_ext
  intro j
  rw [slot_assembleQuery, slot_assembleQuery]
  by_cases same : j = i
  · subst same
    rw [Function.update_self, here]
    rfl
  · rw [Function.update_of_ne same]

theorem eq_nil_of_decode {α : Type} {item : Nat → Decoder α} {m : Nat} {xs : List α}
    (h : decodeList m (fun k _ => item k) (.array []) = .ok xs) : xs = [] := by
  obtain ⟨_, _, -, ⟨⟩, parts⟩ := decodeList_eq_ok.1 h
  exact List.forall₂_nil_left_iff.1 parts

/-- What a query may do without is the default of a slot. -/
theorem absent_of_default {name : String} {v : Value} (default : (name, v) ∈ Shape.query.defaults) :
    ∃ i, Named.findIn? queryRecord.members name = some i ∧
      ∀ m y, decodeQueryMember m i v = .ok y → y = i.absent := by
  simp only [Shape.defaults, List.mem_cons, Prod.mk.injEq, List.not_mem_nil, or_false] at default
  obtain ⟨rfl, rfl⟩ | ⟨rfl, rfl⟩ | ⟨rfl, rfl⟩ | ⟨rfl, rfl⟩ | ⟨rfl, rfl⟩ | ⟨rfl, rfl⟩ | ⟨rfl, rfl⟩ |
    ⟨rfl, rfl⟩ | ⟨rfl, rfl⟩ := default
  · exact ⟨.table, rfl, fun m y h => (Except.ok.inj h).symm⟩
  · exact ⟨.selects, rfl, fun m y h => eq_nil_of_decode h⟩
  · exact ⟨.wheres, rfl, fun m y h => eq_nil_of_decode h⟩
  · exact ⟨.groupBys, rfl, fun m y h => eq_nil_of_decode h⟩
  · exact ⟨.havings, rfl, fun m y h => eq_nil_of_decode h⟩
  · exact ⟨.orderBys, rfl, fun m y h => eq_nil_of_decode h⟩
  · exact ⟨.limit, rfl, fun m y h => (Except.ok.inj h).symm⟩
  · exact ⟨.offset, rfl, fun m y h => (Except.ok.inj h).symm⟩
  · exact ⟨.distinct, rfl, fun m y h => (Except.ok.inj h).symm⟩

/-- Step: a member that holds its default may be left out. -/
theorem leaveOut_step {s : Shape} {name : String} {v : Value} {before after : List (Name × Value)}
    {x : s.Content} (default : (name, v) ∈ s.defaults)
    (h : s.decode room (.object (before ++ (.ok name, v) :: after)) = .ok x) :
    s.decode room (.object (before ++ after)) = .ok x := by
  cases s with
  | body tag =>
    cases tag with
    | case =>
      simp only [Shape.defaults, List.mem_cons, Prod.mk.injEq, List.not_mem_nil, or_false] at default
      obtain ⟨rfl, rfl⟩ | ⟨rfl, rfl⟩ := default
      · refine decodeBody_eq_ok.2 ((decodeBody_eq_ok.1 h).leaveOut (i := .subject) rfl ?_)
        intro m d y value here
        obtain rfl : none = y := Except.ok.inj value
        simp [RecordTag.assemble, Draft.need, here]
      · refine decodeBody_eq_ok.2 ((decodeBody_eq_ok.1 h).leaveOut (i := .default) rfl ?_)
        intro m d y value here
        obtain rfl : none = y := Except.ok.inj value
        simp [RecordTag.assemble, Draft.need, here]
    | _ => cases default
  | order =>
    simp only [Shape.defaults, List.mem_cons, Prod.mk.injEq, List.not_mem_nil, or_false] at default
    have asc {m : Nat} {y : Direction} (value : decodeOrderMember m .direction v = .ok y) :
        y = .asc := by
      obtain ⟨-, rfl⟩ | ⟨-, rfl⟩ := default
      · exact (Except.ok.inj value).symm
      · obtain (⟨_, ⟨⟩, -⟩ | ⟨_, _, _, -, ⟨⟩, found, -⟩) := decodeName_eq_ok.1 value
        have asc : findVariant Direction "asc" = .ok .asc := findVariant_direction .asc
        rw [asc] at found
        exact (Except.ok.inj found).symm
    have known : Named.findIn? orderRecord.members name = some .direction := by
      obtain ⟨rfl, -⟩ | ⟨rfl, -⟩ := default <;> rfl
    refine decodeOrderBy_eq_ok.2 ((decodeOrderBy_eq_ok.1 h).leaveOut known ?_)
    intro m d y value here
    rw [asc value] at here
    simp [assembleOrder, Draft.need, here]
  | query =>
    obtain ⟨i, known, absent⟩ := absent_of_default default
    refine decodeQuery_eq_ok.2 ((decodeQuery_eq_ok.1 h).leaveOut known ?_)
    intro m d y value here
    rw [absent m y value] at here
    rw [assembleQuery_update here]
  | _ => cases default

end

/-- **A step** makes no difference to what is decoded, if there is room for what it
leads to. -/
theorem Respells.decode {s : Shape} {v w : Value} (h : Respells s v w) {room : Nat} {x : s.Content}
    (enough : w.nesting ≤ room) (accepted : s.decode room v = .ok x) : s.decode room w = .ok x := by
  induction h generalizing room with
  | reorder record same => exact reorder_step record same accepted
  | leaveOut default => exact leaveOut_step default accepted
  | array record fit lacking same => exact array_step record fit lacking same accepted
  | unit known =>
    obtain ⟨m, rfl⟩ := Nat.exists_eq_add_of_le' (Nat.one_le_of_lt enough)
    exact unit_step known accepted
  | @member s part name v w before after shape inner ih =>
    obtain ⟨m, y, le, hv, replaced⟩ := part_of_member shape accepted
    have here : (.ok name, w) ∈ before ++ (.ok name, w) :: after :=
      List.mem_append_right _ List.mem_cons_self
    have nested : w.nesting ≤ Value.nestingMembers (before ++ (.ok name, w) :: after) :=
      Value.nesting_le_members here
    rw [Value.nesting] at enough
    exact replaced w (ih (by omega) hv)
  | @item s v w before after inner ih =>
    obtain ⟨m, y, le, hv, replaced⟩ := part_of_item accepted
    have here : w ∈ before ++ w :: after := List.mem_append_right _ List.mem_cons_self
    have nested := Value.nesting_le_items here
    rw [Value.nesting] at enough
    exact replaced w (ih (by omega) hv)

end

/-! ## Texts -/

theorem sound_array {items : List Value} : Sound (.array items) ↔ ∀ v ∈ items, Sound v :=
  ⟨fun | .array h => h, .array⟩

theorem sound_object {members : List (Name × Value)} :
    Sound (.object members) ↔ (∀ m ∈ members, ∃ s, m.1 = .ok s) ∧ ∀ m ∈ members, Sound m.2 :=
  ⟨fun | .object hn h => ⟨hn, h⟩, fun h => .object h.1 h.2⟩

/-- A step keeps a value sound. -/
theorem Respells.sound {s : Shape} {v w : Value} (h : Respells s v w) (sound : Sound v) :
    Sound w := by
  induction h with
  | reorder record same =>
    obtain ⟨named, sound⟩ := sound_object.1 sound
    exact sound_object.2
      ⟨fun m hm => named m (same.mem_iff.2 hm), fun m hm => sound m (same.mem_iff.2 hm)⟩
  | leaveOut default =>
    simp only [sound_object, List.forall_mem_append, List.forall_mem_cons] at sound ⊢
    exact ⟨⟨sound.1.1, sound.1.2.2⟩, sound.2.1, sound.2.2.2⟩
  | @array s members contents record fit lacking same =>
    obtain ⟨-, sound⟩ := sound_object.1 sound
    refine sound_array.2 fun v hv => ?_
    rw [← List.map_snd_zip fit] at hv
    obtain ⟨m, hm, rfl⟩ := List.mem_map.1 hv
    exact sound (.ok m.1, m.2) (same.mem_iff.2 (List.mem_map_of_mem hm))
  | @unit s name known =>
    rw [Value.single, sound_object]
    exact ⟨by simp, by simpa using Sound.null⟩
  | member shape inner ih =>
    simp only [sound_object, List.forall_mem_append, List.forall_mem_cons] at sound ⊢
    exact ⟨sound.1, sound.2.1, ih sound.2.2.1, sound.2.2.2⟩
  | item inner ih =>
    simp only [sound_array, List.forall_mem_append, List.forall_mem_cons] at sound ⊢
    exact ⟨sound.1, ih sound.2.1, sound.2.2⟩

end SqlSelect.Descriptor
