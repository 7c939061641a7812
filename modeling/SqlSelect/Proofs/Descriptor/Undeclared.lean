import SqlSelect.Proofs.Descriptor.Presentation

/-!
# Members that are not declared

A record may have members under names that it does not declare. In a query such a
member is refused; in a record anywhere inside of one it is skipped, and the query
decodes to what it would without it (`decode_undeclared_iff`). So a name that is spelt
wrong at the top of a text is reported, and further inside it is lost.
-/

set_option autoImplicit false

namespace SqlSelect.Descriptor

open SqlSelect.Json (Document FloatReader Name Value)

/-- Somewhere in a value, outside ignored members, a record has a member with the given
content that it does not declare. The second value is the first without this member. -/
inductive Undeclared (record : Shape) (content : Value) : Shape → Value → Value → Prop
  | here {name : String} {before after : List (Name × Value)} (own : record.names ≠ [])
      (undeclared : name ∉ record.names) :
      Undeclared record content record (.object (before ++ (.ok name, content) :: after))
        (.object (before ++ after))
  | member {s part : Shape} {name : String} {v w : Value} {before after : List (Name × Value)}
      (shape : s.member? name = some part) (inner : Undeclared record content part v w) :
      Undeclared record content s (.object (before ++ (.ok name, v) :: after))
        (.object (before ++ (.ok name, w) :: after))
  | item {s : Shape} {v w : Value} {before after : List Value}
      (inner : Undeclared record content (s.item before.length) v w) :
      Undeclared record content s (.array (before ++ v :: after)) (.array (before ++ w :: after))

/-! ## One record -/

/-- A name that is not among those of the members belongs to none. -/
theorem findIn?_eq_none {ι : Type} [Named ι] {among : List ι} {name : String}
    (h : name ∉ among.map Named.name) : Named.findIn? among name = none := by
  rw [Named.findIn?, List.find?_eq_none]
  intro i hi same
  exact h (List.mem_map.2 ⟨i, hi, by simpa using same⟩)

/-- A member that is not known is skipped, or refused by a strict record. -/
theorem Record.Accepts.undeclared_iff [FloatReader] {ι : Type} [Named ι] [DecidableEq ι] {τ : ι → Type}
    {α : Type} {r : Record ι} {member : Nat → (i : ι) → Decoder (τ i)}
    {finish : Draft τ → Except DecodeError α} {room : Nat} {x : α} {name : String}
    {content : Value} {before after : List (Name × Value)}
    (undeclared : name ∉ r.members.map Named.name) :
    r.Accepts member finish room (.object (before ++ (.ok name, content) :: after)) x ↔
      (r.strict = false ∧ content.skip = .ok ()) ∧
        r.Accepts member finish room (.object (before ++ after)) x := by
  have unknown : r.member? (.ok name, content) = none := findIn?_eq_none undeclared
  constructor
  · intro h
    obtain ⟨m, d, rfl, made, whole⟩ := object_iff.1 (h.reorder List.perm_middle)
    obtain ⟨⟨-, skipped⟩, made⟩ := (gathers_cons_ignored unknown).1 made
    exact ⟨skipped, object_iff.2 ⟨m, d, rfl, made, whole⟩⟩
  · rintro ⟨skipped, h⟩
    obtain ⟨m, d, rfl, made, whole⟩ := object_iff.1 h
    refine reorder ?_ List.perm_middle.symm
    exact object_iff.2
      ⟨m, d, rfl, (gathers_cons_ignored unknown).2 ⟨⟨⟨name, rfl⟩, skipped⟩, made⟩, whole⟩

/-- Of all records, only a query is strict. -/
theorem decode_undeclared_here [FloatReader] {record : Shape} {content : Value} {name : String}
    {before after : List (Name × Value)} {room : Nat} {x : record.Content}
    (own : record.names ≠ []) (undeclared : name ∉ record.names) :
    record.decode room (.object (before ++ (.ok name, content) :: after)) = .ok x ↔
      (record ≠ .query ∧ content.skip = .ok ()) ∧
        record.decode room (.object (before ++ after)) = .ok x := by
  cases record with
  | body tag =>
    rw [decodeBody_eq_ok, decodeBody_eq_ok, Record.Accepts.undeclared_iff undeclared]
    simp [RecordTag.record]
  | order =>
    show decodeOrderBy _ _ = _ ↔ _ ∧ decodeOrderBy _ _ = _
    rw [decodeOrderBy_eq_ok, decodeOrderBy_eq_ok, Record.Accepts.undeclared_iff undeclared]
    simp [orderRecord]
  | query =>
    show decodeQuery _ _ = _ ↔ _ ∧ decodeQuery _ _ = _
    rw [decodeQuery_eq_ok, decodeQuery_eq_ok, Record.Accepts.undeclared_iff undeclared]
    simp [queryRecord]
  | _ => exact absurd rfl own

/-! ## Any depth -/

/-- What two values of a part decode to, the whole does with either in its place. -/
theorem exchange [FloatReader] {part : Shape} {v w : Value} {room : Nat} {skipped : Prop}
    (whole : Value → Prop) (of_left : whole v → Part part room v whole)
    (of_right : whole w → Part part room w whole)
    (inner : ∀ m y, part.decode m v = .ok y ↔ skipped ∧ part.decode m w = .ok y) :
    whole v ↔ skipped ∧ whole w := by
  constructor
  · intro accepted
    obtain ⟨m, y, -, value, replaced⟩ := of_left accepted
    obtain ⟨skip, value⟩ := (inner m y).1 value
    exact ⟨skip, replaced w value⟩
  · rintro ⟨skip, accepted⟩
    obtain ⟨m, y, -, value, replaced⟩ := of_right accepted
    exact replaced v ((inner m y).2 ⟨skip, value⟩)

/-- **A member that is not declared** is skipped wherever it is, except in a query. -/
theorem Undeclared.decode_iff [FloatReader] {record s : Shape} {content v w : Value}
    (h : Undeclared record content s v w) {room : Nat} {x : s.Content} :
    s.decode room v = .ok x ↔
      (record ≠ .query ∧ content.skip = .ok ()) ∧ s.decode room w = .ok x := by
  induction h generalizing room with
  | here own undeclared => exact decode_undeclared_here own undeclared
  | @member s part name v w before after shape inner ih =>
    exact exchange (fun u => s.decode room (.object (before ++ (.ok name, u) :: after)) = .ok x)
      (part_of_member shape) (part_of_member shape) fun _ _ => ih
  | @item s v w before after inner ih =>
    exact exchange (fun u => s.decode room (.array (before ++ u :: after)) = .ok x)
      part_of_item part_of_item fun _ _ => ih

/-- **Only the query itself is strict.** A text of which a record has a member that it does
not declare is decoded exactly if the record is not the query, the content of the member
can be skipped, and what is left without the member decodes. A text for what is left
decodes to the same query. -/
theorem decode_undeclared_iff [FloatReader] {text : String} {record : Shape} {content w : Value}
    (undeclared : Undeclared record content .query (Document.read text).value w) (q : Query) :
    (decode Query text = .ok q ↔ (record ≠ .query ∧ content.skip = .ok ()) ∧
      decodeQuery maxDepth w = .ok q ∧ (Document.read text).trailing = false) ∧
    ∀ text', Document.read text' = ⟨w, (Document.read text).trailing⟩ →
      (decode Query text = .ok q ↔
        (record ≠ .query ∧ content.skip = .ok ()) ∧ decode Query text' = .ok q) := by
  have decoded (text : String) : decode Query text = .ok q ↔
      decodeQuery maxDepth (Document.read text).value = .ok q ∧
        (Document.read text).trailing = false :=
    decodeText_eq_ok
  have same : decodeQuery maxDepth (Document.read text).value = .ok q ↔
      (record ≠ .query ∧ content.skip = .ok ()) ∧ decodeQuery maxDepth w = .ok q :=
    undeclared.decode_iff (x := q)
  constructor
  · rw [decoded, same, and_assoc]
  · intro text' read
    rw [decoded, decoded, read, same, and_assoc]

/-- A choice without the default that it was meant to have, as `default` is spelt wrong;
and a query that is rejected, as `table` is. -/
theorem decode_undeclared_misspelt :
    decode Query
        "\x7b\x22select\x22:[\x7b\x22case\x22:\x7b\x22branches\x22:[],\x22defualt\x22:\x7b\x22field\x22:\x22a\x22\x7d\x7d\x7d]\x7d" =
      .ok { selects := [.case none [] none] } ∧
    ∀ q, decode Query "\x7b\x22tabel\x22:\x22t\x22\x7d" ≠ .ok q := by
  constructor
  · have read : Document.read
        "\x7b\x22select\x22:[\x7b\x22case\x22:\x7b\x22branches\x22:[],\x22defualt\x22:\x7b\x22field\x22:\x22a\x22\x7d\x7d\x7d]\x7d" =
        ⟨.single "select" (.array [.single "case" (.record [("branches", .array []),
          ("defualt", .single "field" (.text "a"))])]), false⟩ := by
      cbv
    have undeclared : Undeclared (.body .case) (.single "field" (.text "a")) .query
        (Document.read "\x7b\x22select\x22:[\x7b\x22case\x22:\x7b\x22branches\x22:[],\x22defualt\x22:\x7b\x22field\x22:\x22a\x22\x7d\x7d\x7d]\x7d").value
        (.single "select" (.array [.single "case" (.single "branches" (.array []))])) := by
      rw [read]
      exact @Undeclared.member _ _ _ _ _ _ _ [] [] rfl (@Undeclared.item _ _ _ _ _ [] []
        (@Undeclared.member _ _ _ _ _ _ _ [] [] rfl
          (@Undeclared.here _ _ _ [_] [] (by decide) (by decide))))
    refine (decode_undeclared_iff undeclared _).1.2 ⟨⟨by simp, rfl⟩, ?_, by rw [read]⟩
    cbv
  · have read : Document.read "\x7b\x22tabel\x22:\x22t\x22\x7d" =
        ⟨.single "tabel" (.text "t"), false⟩ := by
      cbv
    have undeclared : Undeclared .query (.text "t") .query
        (Document.read "\x7b\x22tabel\x22:\x22t\x22\x7d").value (.object []) := by
      rw [read]
      exact @Undeclared.here _ _ _ [] [] (by decide) (by decide)
    intro q accepted
    exact ((decode_undeclared_iff undeclared q).1.1 accepted).1.1 rfl

/-- An entry whose `direction` is spelt wrong is ascending, though it was to descend. -/
theorem decode_misspelt_direction :
    Document.read
        "\x7b\x22table\x22:\x22t\x22,\x22select\x22:[\x7b\x22field\x22:\x22a\x22\x7d],\x22order_by\x22:[\x7b\x22expr\x22:\x7b\x22field\x22:\x22a\x22\x7d,\x22directon\x22:\x22desc\x22\x7d]\x7d" =
      ⟨.record [("table", .text "t"), ("select", .array [.single "field" (.text "a")]),
        ("order_by", .array [.record [("expr", .single "field" (.text "a")),
          ("directon", .text "desc")]])], false⟩ ∧
    "directon" ∉ Shape.order.names ∧
    decode Query
        "\x7b\x22table\x22:\x22t\x22,\x22select\x22:[\x7b\x22field\x22:\x22a\x22\x7d],\x22order_by\x22:[\x7b\x22expr\x22:\x7b\x22field\x22:\x22a\x22\x7d,\x22directon\x22:\x22desc\x22\x7d]\x7d" =
      .ok { table := some "t", selects := [.field "a"], orderBys := [⟨.field "a", .asc⟩] } := by
  have read : Document.read
      "\x7b\x22table\x22:\x22t\x22,\x22select\x22:[\x7b\x22field\x22:\x22a\x22\x7d],\x22order_by\x22:[\x7b\x22expr\x22:\x7b\x22field\x22:\x22a\x22\x7d,\x22directon\x22:\x22desc\x22\x7d]\x7d" =
      ⟨.record [("table", .text "t"), ("select", .array [.single "field" (.text "a")]),
        ("order_by", .array [.record [("expr", .single "field" (.text "a")),
          ("directon", .text "desc")]])], false⟩ := by
    cbv
  refine ⟨read, by decide, (decodeText_of_read read).trans ?_⟩
  cbv

end SqlSelect.Descriptor
