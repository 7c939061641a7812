import SqlSelect.Descriptor.Text
import SqlSelect.Proofs.Descriptor.Room

/-!
# Queries slot by slot

A record that refuses unknown members is decoded by going through its members
from left to right. What has been found so far is pending in a draft. `Filled`
says what such a run amounts to without mentioning an order: the names are
distinct and known, and each member has put its own value in its own place. From
it follows what the text of a query decodes to.
-/

set_option autoImplicit false

namespace SqlSelect

open Descriptor (QueryMember) in
/-- What a slot of the query holds. -/
def Query.slot (q : Query) : (i : QueryMember) → i.Content
  | .table => q.table
  | .selects => q.selects
  | .wheres => q.wheres
  | .groupBys => q.groupBys
  | .havings => q.havings
  | .orderBys => q.orderBys
  | .limit => q.limit
  | .offset => q.offset
  | .distinct => q.distinct

end SqlSelect

namespace SqlSelect.Descriptor

open SqlSelect.Json (Document FloatReader Name Value)

/-! ## Records that refuse unknown members -/

section

variable {ι : Type} [Named ι] [DecidableEq ι] {τ : ι → Type}

/-- The members fill a draft: those that are mentioned were not there before and
are what their values decode to, and all others stay as they were. -/
structure Filled (decode : (i : ι) → Decoder (τ i)) (members : List (Name × Value))
    (d d' : Draft τ) : Prop where
  distinct : (members.map Prod.fst).Nodup
  known : ∀ m ∈ members, ∃ i : ι, m.1 = .ok (Named.name i)
  fresh : ∀ i v, (.ok (Named.name i), v) ∈ members → d i = none
  held : ∀ i v, (.ok (Named.name i), v) ∈ members → ∃ x, decode i v = .ok x ∧ d' i = some x
  kept : ∀ i, (∀ v, (.ok (Named.name i), v) ∉ members) → d' i = d i

/-- A record knows each member of its type by its name. -/
def Record.Complete (r : Record ι) : Prop :=
  ∀ s i, Named.findIn? r.members s = some i ↔ Named.name i = s

variable {r : Record ι} {decode : (i : ι) → Decoder (τ i)} {m : Name × Value}
  {members : List (Name × Value)} {d d' : Draft τ}

omit [DecidableEq ι] in
/-- No two members of a record that knows them all have the same name. -/
theorem Record.Complete.injective (complete : r.Complete) {i j : ι}
    (h : Named.name i = Named.name j) : i = j := by
  have hi := (complete (Named.name i) i).2 rfl
  rw [h, (complete (Named.name j) j).2 rfl] at hi
  exact (Option.some.inj hi).symm

/-- One member: its name is known, nothing is pending for it yet, and its value decodes. -/
theorem decodeMembers_cons (complete : r.Complete) (strict : r.strict = true) :
    r.decodeMembers decode (m :: members) d = .ok d' ↔
      ∃ i x, m.1 = .ok (Named.name i) ∧ d i = none ∧ decode i m.2 = .ok x ∧
        r.decodeMembers decode members (d.set i x) = .ok d' := by
  obtain ⟨name, v⟩ := m
  rw [Record.decodeMembers]
  cases name with
  | error flaw => simp [readName, bind, Except.bind]
  | ok s =>
    cases found : Named.findIn? r.members s with
    | none =>
      have unknown : ∀ i : ι, Named.name i ≠ s := by
        intro i hi
        rw [(complete s i).2 hi] at found
        cases found
      simp only [readName, bind, Except.bind, found, strict, ↓reduceIte, reduceCtorEq, false_iff]
      rintro ⟨i, _, h, _⟩
      exact unknown i (Except.ok.inj h).symm
    | some i =>
      have named : Named.name i = s := (complete s i).1 found
      subst named
      have only (j : ι) : (.ok (Named.name i) : Name) = .ok (Named.name j) ↔ i = j :=
        ⟨fun h => complete.injective (Except.ok.inj h), fun h => by rw [h]⟩
      simp only [readName, bind, Except.bind, found, only]
      cases pending : d i with
      | some x => simp [pending]
      | none =>
        simp only [Option.isSome_none, Bool.false_eq_true, ↓reduceIte]
        cases value : decode i v with
        | error e => simp [value]
        | ok x => simp [value, pending]

/-- Members that fill a draft begin with one whose place is empty; the others
fill what it leaves. -/
theorem Filled.uncons (complete : r.Complete) (h : Filled decode (m :: members) d d') :
    ∃ i x, m.1 = .ok (Named.name i) ∧ d i = none ∧ decode i m.2 = .ok x ∧
      Filled decode members (d.set i x) d' := by
  obtain ⟨name, v⟩ := m
  obtain ⟨i, rfl⟩ := h.known _ List.mem_cons_self
  obtain ⟨x, value, here⟩ := h.held i v List.mem_cons_self
  have distinct := List.nodup_cons.1 h.distinct
  have other : ∀ j w, (.ok (Named.name j), w) ∈ members → i ≠ j := by
    rintro j w hw rfl
    exact distinct.1 (List.mem_map.2 ⟨_, hw, rfl⟩)
  refine ⟨i, x, rfl, h.fresh i v List.mem_cons_self, value, ?_⟩
  constructor
  case distinct => exact distinct.2
  case known => exact fun m hm => h.known m (List.mem_cons_of_mem _ hm)
  case fresh =>
    intro j w hw
    rw [Draft.set_of_ne d x (other j w hw)]
    exact h.fresh j w (List.mem_cons_of_mem _ hw)
  case held => exact fun j w hw => h.held j w (List.mem_cons_of_mem _ hw)
  case kept =>
    intro j hj
    by_cases same : i = j
    · subst same
      rw [here, Draft.set_self]
    · rw [Draft.set_of_ne d x same]
      apply h.kept j
      intro w hw
      rcases List.mem_cons.1 hw with hw | hw
      · exact same (complete.injective (Except.ok.inj (Prod.mk.inj hw).1)).symm
      · exact hj w hw

/-- What a member and then the others fill, they fill together. -/
theorem Filled.cons (complete : r.Complete) {i : ι} {x : τ i} {v : Value} (absent : d i = none)
    (value : decode i v = .ok x) (h : Filled decode members (d.set i x) d') :
    Filled decode ((.ok (Named.name i), v) :: members) d d' := by
  -- The others do not mention it again, since its place is no longer empty.
  have other : ∀ j w, (.ok (Named.name j), w) ∈ members → i ≠ j := by
    rintro j w hw rfl
    have pending := h.fresh i w hw
    rw [Draft.set_self] at pending
    cases pending
  have here : d' i = some x := by
    rw [h.kept i fun w hw => other i w hw rfl, Draft.set_self]
  constructor
  case distinct =>
    refine List.nodup_cons.2 ⟨fun hm => ?_, h.distinct⟩
    obtain ⟨⟨_, w⟩, hw, rfl⟩ := List.mem_map.1 hm
    exact other i w hw rfl
  case known => exact List.forall_mem_cons.2 ⟨⟨i, rfl⟩, h.known⟩
  case fresh =>
    intro j w hw
    rcases List.mem_cons.1 hw with hw | hw
    · rw [complete.injective (Except.ok.inj (Prod.mk.inj hw).1), absent]
    · rw [← h.fresh j w hw, Draft.set_of_ne d x (other j w hw)]
  case held =>
    intro j w hw
    rcases List.mem_cons.1 hw with hw | hw
    · obtain ⟨same, rfl⟩ := Prod.mk.inj hw
      obtain rfl := complete.injective (Except.ok.inj same)
      exact ⟨x, value, here⟩
    · exact h.held j w hw
  case kept =>
    intro j hj
    have ne : i ≠ j := by
      rintro rfl
      exact hj v List.mem_cons_self
    rw [h.kept j fun w hw => hj w (List.mem_cons_of_mem _ hw), Draft.set_of_ne d x ne]

omit [DecidableEq ι] in
theorem filled_nil : Filled decode [] d d' ↔ d = d' := by
  constructor
  · intro h
    funext i
    exact (h.kept i fun _ => List.not_mem_nil).symm
  · rintro rfl
    exact ⟨List.nodup_nil, by simp, by simp, by simp, fun _ _ => rfl⟩

/-- **A run over the members** succeeds exactly if they fill the draft. -/
theorem decodeMembers_iff (complete : r.Complete) (strict : r.strict = true) :
    r.decodeMembers decode members d = .ok d' ↔ Filled decode members d d' := by
  induction members generalizing d with
  | nil => rw [Record.decodeMembers, Except.ok.injEq, filled_nil]
  | cons m members ih =>
    rw [decodeMembers_cons complete strict]
    simp only [ih]
    constructor
    · rintro ⟨i, x, named, absent, value, h⟩
      obtain ⟨name, v⟩ := m
      subst named
      exact h.cons complete absent value
    · exact fun h => h.uncons complete

/-- What is distinct, known, not yet there and decodes fills a draft. -/
theorem exists_filled (complete : r.Complete) (distinct : (members.map Prod.fst).Nodup)
    (known : ∀ m ∈ members, ∃ i : ι, m.1 = .ok (Named.name i))
    (fresh : ∀ i v, (.ok (Named.name i), v) ∈ members → d i = none)
    (decodes : ∀ i v, (.ok (Named.name i), v) ∈ members → ∃ x, decode i v = .ok x) :
    ∃ d', Filled decode members d d' := by
  induction members generalizing d with
  | nil => exact ⟨d, filled_nil.2 rfl⟩
  | cons m members ih =>
    obtain ⟨name, v⟩ := m
    obtain ⟨i, rfl⟩ := known _ List.mem_cons_self
    obtain ⟨x, value⟩ := decodes i v List.mem_cons_self
    have distinct := List.nodup_cons.1 distinct
    obtain ⟨d', later⟩ : ∃ d', Filled decode members (d.set i x) d' := by
      refine ih distinct.2 (fun m hm => known m (List.mem_cons_of_mem _ hm)) (fun j w hw => ?_)
        fun j w hw => decodes j w (List.mem_cons_of_mem _ hw)
      have other : i ≠ j := by
        rintro rfl
        exact distinct.1 (List.mem_map.2 ⟨_, hw, rfl⟩)
      rw [Draft.set_of_ne d x other]
      exact fresh j w (List.mem_cons_of_mem _ hw)
    exact ⟨d', later.cons complete (fresh i v List.mem_cons_self) value⟩

end

/-! ## Queries -/

/-- The names that descriptors have for the slots of a query. -/
def slots : List (String × QueryMember) :=
  [("table", .table), ("select", .selects), ("where", .wheres), ("group_by", .groupBys),
    ("having", .havings), ("order_by", .orderBys), ("limit", .limit), ("offset", .offset),
    ("distinct", .distinct)]

/-- What a slot holds that is not mentioned. -/
def QueryMember.absent : (i : QueryMember) → i.Content
  | .table | .limit | .offset => none
  | .selects | .wheres | .groupBys | .havings | .orderBys => []
  | .distinct => false

/-- Members that fit a query: their names are distinct, each is the name of a
slot, and each value decodes at the type of its slot. -/
structure FitQuery [FloatReader] (members : List (Name × Value)) : Prop where
  distinct : (members.map Prod.fst).Nodup
  known : ∀ m ∈ members, ∃ slot ∈ slots, m.1 = .ok slot.1
  decodes : ∀ slot ∈ slots, ∀ v, (.ok slot.1, v) ∈ members →
    ∃ x, decodeQueryMember maxDepth slot.2 v = .ok x

/-- A query that says what the members say: each slot that is mentioned holds
what its own value decodes to, and every other slot its default. -/
structure Slotwise [FloatReader] (members : List (Name × Value)) (q : Query) : Prop where
  mentioned : ∀ slot ∈ slots, ∀ v, (.ok slot.1, v) ∈ members →
    decodeQueryMember maxDepth slot.2 v = .ok (q.slot slot.2)
  absent : ∀ slot ∈ slots, (∀ v, (.ok slot.1, v) ∉ members) → q.slot slot.2 = slot.2.absent

theorem mem_slots {s : String} {i : QueryMember} : (s, i) ∈ slots ↔ Named.name i = s := by
  constructor
  · simp only [slots, List.mem_cons, Prod.mk.injEq, List.not_mem_nil, or_false]
    rintro (⟨rfl, rfl⟩ | ⟨rfl, rfl⟩ | ⟨rfl, rfl⟩ | ⟨rfl, rfl⟩ | ⟨rfl, rfl⟩ | ⟨rfl, rfl⟩ |
      ⟨rfl, rfl⟩ | ⟨rfl, rfl⟩ | ⟨rfl, rfl⟩) <;> rfl
  · rintro rfl
    cases i <;> simp [slots, Named.name]

/-- The record of a query knows each slot by its name. -/
theorem queryRecord_complete : queryRecord.Complete := by
  intro s i
  constructor
  · intro h
    have found := List.find?_some h
    exact beq_iff_eq.1 found
  · rintro rfl
    cases i <;> rfl

theorem slot_ext {q q' : Query} (h : ∀ i, q.slot i = q'.slot i) : q = q' := by
  obtain ⟨_, _, _, _, _, _, _, _, _⟩ := q
  obtain ⟨_, _, _, _, _, _, _, _, _⟩ := q'
  rw [Query.mk.injEq]
  exact ⟨h .table, h .selects, h .wheres, h .groupBys, h .havings, h .orderBys, h .limit,
    h .offset, h .distinct⟩

/-- A slot holds what the draft has for it, or its default. -/
theorem slot_assembleQuery (d : Draft QueryMember.Content) (i : QueryMember) :
    (assembleQuery d).slot i = (d i).getD i.absent := by
  cases i <;> rfl

variable {members : List (Name × Value)} {q : Query}

/-- The members of an object that is not nested too deeply decode as they would by themselves. -/
theorem decodeQuery_object [FloatReader]
    (shallow : (Value.object members).nesting ≤ maxDepth) :
    decodeQuery maxDepth (.object members) =
      assembleQuery <$> queryRecord.decodeMembers (decodeQueryMember maxDepth) members .empty := by
  have enough {m : Name × Value} (hm : m ∈ members) : m.2.nesting + 1 ≤ maxDepth :=
    (Nat.succ_le_succ (Value.nesting_le_members hm)).trans shallow
  have same : queryRecord.decodeMembers (decodeQueryMember (maxDepth - 1)) members .empty =
      queryRecord.decodeMembers (decodeQueryMember maxDepth) members .empty :=
    decodeMembers_congr (fun m hm i => decodeQueryMember_room i (Nat.le_sub_one_of_lt (enough hm))
      (Nat.le_of_succ_le (enough hm))) _
  exact congrArg (assembleQuery <$> ·) same

/-- A text that holds an object decodes to what its members fill. -/
theorem decode_object_iff [FloatReader] {text : String}
    (read : Document.read text = ⟨.object members, false⟩)
    (shallow : (Value.object members).nesting ≤ maxDepth) :
    decode Query text = .ok q ↔
      ∃ d, Filled (decodeQueryMember maxDepth) members .empty d ∧ assembleQuery d = q := by
  have decoded : decode Query text = decodeQuery maxDepth (.object members) := decodeText_of_read read
  rw [decoded, decodeQuery_object shallow]
  simp only [← decodeMembers_iff queryRecord_complete rfl]
  cases queryRecord.decodeMembers (decodeQueryMember maxDepth) members .empty with
  | error e => simp
  | ok d => simp

/-- `null` fits the slots that may hold nothing, and no others. -/
theorem decodeQueryMember_null [FloatReader] (i : QueryMember) :
    (∃ x, decodeQueryMember maxDepth i .null = .ok x) ↔ i = .table ∨ i = .limit ∨ i = .offset := by
  cases i with
  | table | limit | offset => exact ⟨fun _ => by simp, fun _ => ⟨none, rfl⟩⟩
  | _ =>
    simp only [reduceCtorEq, or_self, iff_false]
    rintro ⟨x, h⟩
    cases h

theorem known_slot {name : Name} :
    (∃ slot ∈ slots, name = .ok slot.1) ↔ ∃ i : QueryMember, name = .ok (Named.name i) := by
  constructor
  · rintro ⟨⟨s, i⟩, hs, rfl⟩
    exact ⟨i, congrArg Except.ok (mem_slots.1 hs).symm⟩
  · rintro ⟨i, rfl⟩
    exact ⟨(Named.name i, i), mem_slots.2 rfl, rfl⟩

/-- Members fit a query exactly if they fill a draft of one. -/
theorem fitQuery_iff [FloatReader] :
    FitQuery members ↔ ∃ d, Filled (decodeQueryMember maxDepth) members .empty d := by
  constructor
  · intro h
    exact exists_filled queryRecord_complete h.distinct
      (fun m hm => known_slot.1 (h.known m hm)) (fun _ _ _ => rfl) fun i =>
        h.decodes (Named.name i, i) (mem_slots.2 rfl)
  · rintro ⟨d, h⟩
    refine ⟨h.distinct, fun m hm => known_slot.2 (h.known m hm), ?_⟩
    rintro ⟨s, i⟩ hs v hv
    obtain rfl := mem_slots.1 hs
    obtain ⟨x, value, _⟩ := h.held i v hv
    exact ⟨x, value⟩

/-- What is assembled from a draft that members have filled says what they say. -/
theorem Filled.slotwise [FloatReader] {d : Draft QueryMember.Content}
    (h : Filled (decodeQueryMember maxDepth) members .empty d) : Slotwise members (assembleQuery d) := by
  constructor
  · rintro ⟨s, i⟩ hs v hv
    obtain rfl := mem_slots.1 hs
    obtain ⟨x, value, here⟩ := h.held i v hv
    rw [value, slot_assembleQuery, here, Option.getD_some]
  · rintro ⟨s, i⟩ hs missing
    obtain rfl := mem_slots.1 hs
    rw [slot_assembleQuery, h.kept i missing]
    rfl

/-- Members say all of a query: there is one at most that says what they say. -/
theorem Slotwise.unique [FloatReader] {q' : Query} (h : Slotwise members q) (h' : Slotwise members q') : q = q' := by
  apply slot_ext
  intro i
  have slot : (Named.name i, i) ∈ slots := mem_slots.2 rfl
  by_cases mentioned : ∃ v, (.ok (Named.name i), v) ∈ members
  · obtain ⟨v, hv⟩ := mentioned
    have value := h.mentioned _ slot v hv
    rw [h'.mentioned _ slot v hv] at value
    exact (Except.ok.inj value).symm
  · have missing : ∀ v, (.ok (Named.name i), v) ∉ members := fun v hv => mentioned ⟨v, hv⟩
    rw [h.absent _ slot missing, h'.absent _ slot missing]

/-- **A query is decoded slot by slot.** A text that holds an object, not nested
too deeply, decodes exactly if the members fit the slots of a query, and then to
the one query that says what the members say, in whatever order. `null` fits
those slots only that may hold nothing. -/
theorem decode_query_slots [FloatReader] {text : String} {members : List (Name × Value)}
    (read : Document.read text = ⟨.object members, false⟩)
    (shallow : (Value.object members).nesting ≤ 127) :
    ((∃ q, decode Query text = .ok q) ↔ FitQuery members) ∧
      (∀ q, decode Query text = .ok q ↔ FitQuery members ∧ Slotwise members q) ∧
      ∀ slot ∈ slots, (∃ x, decodeQueryMember maxDepth slot.2 .null = .ok x) ↔
        slot.1 ∈ ["table", "limit", "offset"] := by
  refine ⟨?_, fun q => ?_, ?_⟩
  · rw [fitQuery_iff]
    simp only [decode_object_iff read shallow]
    exact ⟨fun ⟨_, d, h, _⟩ => ⟨d, h⟩, fun ⟨d, h⟩ => ⟨_, d, h, rfl⟩⟩
  · rw [decode_object_iff read shallow, fitQuery_iff]
    constructor
    · rintro ⟨d, h, rfl⟩
      exact ⟨⟨d, h⟩, h.slotwise⟩
    · rintro ⟨⟨d, h⟩, holds⟩
      exact ⟨d, h, h.slotwise.unique holds⟩
  · rintro ⟨s, i⟩ hs
    obtain rfl := mem_slots.1 hs
    rw [decodeQueryMember_null]
    cases i <;> simp [Named.name]

/-- Members may stand in any order and their names may be written with escapes,
but an escape does not hide that a name is there twice. -/
theorem decode_query_slots_escaped :
    decode Query
        "\x7b\x22distinct\x22:true,\x22having\x22:[],\x22t\\u0061ble\x22:\x22x\x22\x7d" =
      .ok { table := some "x", distinct := true } ∧
    ¬ ∃ q, decode Query "\x7b\x22table\x22:\x22x\x22,\x22t\\u0061ble\x22:\x22x\x22\x7d" = .ok q := by
  have once : Document.read
      "\x7b\x22distinct\x22:true,\x22having\x22:[],\x22t\\u0061ble\x22:\x22x\x22\x7d" =
      ⟨.object [(.ok "distinct", .boolean true), (.ok "having", .array []),
        (.ok "table", .text "x")], false⟩ := by
    cbv
  have twice : Document.read "\x7b\x22table\x22:\x22x\x22,\x22t\\u0061ble\x22:\x22x\x22\x7d" =
      ⟨.object [(.ok "table", .text "x"), (.ok "table", .text "x")], false⟩ := by
    cbv
  have table : decodeQueryMember maxDepth .table (.text "x") = .ok (some "x") := rfl
  have havings : decodeQueryMember maxDepth .havings (.array []) = .ok [] := rfl
  have distinct : decodeQueryMember maxDepth .distinct (.boolean true) = .ok true := rfl
  constructor
  · refine ((decode_query_slots once (by decide)).2.1 _).2 ⟨⟨by decide, ?_, ?_⟩, ?_, ?_⟩
    · simp [slots]
    · simp [slots, table, havings, distinct]
    · simp [slots, Query.slot, table, havings, distinct]
    · simp [slots, Query.slot, QueryMember.absent]
  · intro h
    have fit := (decode_query_slots twice (by decide)).1.1 h
    exact absurd fit.distinct (by decide)

end SqlSelect.Descriptor
