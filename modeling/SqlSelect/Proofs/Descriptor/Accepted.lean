import Mathlib
import SqlSelect.Descriptor.Text
import SqlSelect.Proofs.Descriptor.Shape

/-!
# What decoders accept

What a value must be to be decoded, one fact for each way to put decoders
together: a container takes one from the room and hands its parts the rest. A run
over the members of an object is told without their order (`Record.Gathers`,
**`Record.decodeMembers_eq_ok`**), so members may be reordered, left out or replaced;
the array of their contents comes out the same (`Record.Gathers.items`).
-/

set_option autoImplicit false

namespace SqlSelect.Descriptor

open SqlSelect.Json (Document FloatReader Name Value)

/-! ## Sequences -/

section

variable {ε α β : Type}

/-- A sequence succeeds if both of its steps do. -/
theorem bind_eq_ok {r : Except ε α} {f : α → Except ε β} {y : β} :
    (r >>= f) = .ok y ↔ ∃ x, r = .ok x ∧ f x = .ok y := by
  cases r with
  | error e => simp [bind, Except.bind]
  | ok x => simp [bind, Except.bind]

theorem map_eq_ok {r : Except ε α} {f : α → β} {y : β} :
    f <$> r = .ok y ↔ ∃ x, r = .ok x ∧ f x = y := by
  cases r with
  | error e => simp [Functor.map, Except.map]
  | ok x => simp [Functor.map, Except.map]

/-- A pass over a list succeeds if each of its items does. -/
theorem mapM_eq_ok {f : α → Except ε β} {as : List α} {bs : List β} :
    as.mapM f = .ok bs ↔ List.Forall₂ (fun a b => f a = .ok b) as bs := by
  induction as generalizing bs with
  | nil =>
    rw [List.mapM_nil, List.forall₂_nil_left_iff]
    exact ⟨fun h => (Except.ok.inj h).symm, fun h => congrArg Except.ok h.symm⟩
  | cons a as ih =>
    rw [List.mapM_cons, bind_eq_ok, List.forall₂_cons_left_iff]
    simp only [bind_eq_ok, ih]
    constructor
    · rintro ⟨b, hb, bs, hbs, h⟩
      exact ⟨b, bs, hb, hbs, (Except.ok.inj h).symm⟩
    · rintro ⟨b, bs, hb, hbs, rfl⟩
      exact ⟨b, hb, bs, hbs, rfl⟩

end

/-! ## Containers -/

section

variable {α β : Type} {room : Nat} {v : Value}

/-- What is inside of a container has one less of the room. -/
theorem inside_eq_ok {f : Nat → Except DecodeError α} {x : α} :
    inside room (fun m _ => f m) = .ok x ↔ ∃ m, room = m + 1 ∧ f m = .ok x := by
  cases room with
  | zero => simp [inside]
  | succ m => simp [inside]

theorem refuse_ne_ok [FloatReader] {expected : String} {x : α} : refuse expected v ≠ .ok x := by
  cases v with
  | number n =>
    intro h
    obtain ⟨number, -, hn⟩ := bind_eq_ok.1 h
    cases number <;> cases hn
  | _ =>
    intro h
    cases h

/-- A list is an array whose items all decode. -/
theorem decodeList_eq_ok [FloatReader] {item : Nat → Decoder α} {xs : List α} :
    decodeList room (fun m _ => item m) v = .ok xs ↔
      ∃ m items, room = m + 1 ∧ v = .array items ∧
        List.Forall₂ (fun w x => item m w = .ok x) items xs := by
  cases v with
  | array items => simp [decodeList, inside_eq_ok, mapM_eq_ok]
  | _ => simp [decodeList, refuse_ne_ok]

theorem endOfItems_eq_ok {items : List Value} : endOfItems items = .ok () ↔ items = [] := by
  unfold endOfItems
  split <;> simp

/-- A pair is an array of two, neither less nor more. -/
theorem decodePair_eq_ok [FloatReader] {first : Nat → Decoder α} {second : Nat → Decoder β} {p : α × β} :
    decodePair room (fun m _ => first m) (fun m _ => second m) v = .ok p ↔
      ∃ m a b, room = m + 1 ∧ v = .array [a, b] ∧ first m a = .ok p.1 ∧ second m b = .ok p.2 := by
  cases v with
  | array items =>
    cases items with
    | nil => simp [decodePair, inside_eq_ok]
    | cons a items =>
      cases items with
      | nil => simp [decodePair, inside_eq_ok, bind_eq_ok]
      | cons b rest =>
        simp only [decodePair, inside_eq_ok, bind_eq_ok, Value.array.injEq, List.cons.injEq]
        constructor
        · rintro ⟨m, rfl, x, hx, y, hy, ⟨⟩, he, h⟩
          obtain rfl := Except.ok.inj h
          exact ⟨m, a, b, rfl, ⟨rfl, rfl, endOfItems_eq_ok.1 he⟩, hx, hy⟩
        · rintro ⟨m, a', b', rfl, ⟨rfl, rfl, rfl⟩, hx, hy⟩
          exact ⟨m, rfl, p.1, hx, p.2, hy, (), rfl, rfl⟩
  | _ => simp [decodePair, refuse_ne_ok]

/-- A decoder that accepts more accepts more beside `null`. -/
theorem decodeOption_mono {decode decode' : Decoder α} {x : Option α}
    (h : decodeOption decode v = .ok x) (more : ∀ y, decode v = .ok y → decode' v = .ok y) :
    decodeOption decode' v = .ok x := by
  unfold decodeOption at h ⊢
  split at h
  · exact h
  · cases h
  · obtain ⟨y, hy, rfl⟩ := map_eq_ok.1 h
    exact map_eq_ok.2 ⟨y, more y hy, rfl⟩

end

/-! ## Variants -/

section

variable {ι α : Type} [Named ι] {room : Nat} {v : Value}

theorem findVariant_eq_ok {name : String} {i : ι} :
    findVariant ι name = .ok i ↔ Named.findIn? Named.all name = some i := by
  unfold findVariant
  split
  · next found => simp [found]
  · next found => simp [found]

theorem name_of_findIn? {among : List ι} {name : String} {i : ι}
    (h : Named.findIn? among name = some i) : Named.name i = name := by
  have found := List.find?_some h
  exact beq_iff_eq.1 found

theorem endOfVariant_eq_ok {members : List (Name × Value)} :
    endOfVariant members = .ok () ↔ members = [] := by
  unfold endOfVariant
  split <;> simp

/-- A variant is its name alone, or an object with one member. -/
theorem decodeVariant_eq_ok {bare : ι → Except DecodeError α} {holding : Nat → ι → Decoder α}
    {x : α} : decodeVariant ι room bare (fun m _ => holding m) v = .ok x ↔
      (∃ name i, v = .text name ∧ findVariant ι name = .ok i ∧ bare i = .ok x) ∨
      ∃ m name i content, room = m + 1 ∧ v = .single name content ∧ findVariant ι name = .ok i ∧
        holding m i content = .ok x := by
  cases v with
  | text name => simp [decodeVariant, bind_eq_ok, Value.single]
  | object members =>
    cases members with
    | nil => simp [decodeVariant, inside_eq_ok, Value.single]
    | cons member rest =>
      obtain ⟨name, content⟩ := member
      simp only [decodeVariant, inside_eq_ok, bind_eq_ok, reduceCtorEq, false_and, exists_false,
        false_or, Value.single, Value.object.injEq, List.cons.injEq, Prod.mk.injEq]
      constructor
      · rintro ⟨m, rfl, s, hs, i, hi, y, hy, ⟨⟩, he, h⟩
        obtain rfl := Except.ok.inj h
        cases name with
        | error flaw => cases hs
        | ok s' =>
          obtain rfl := Except.ok.inj hs
          exact ⟨m, s', i, content, rfl, ⟨⟨rfl, rfl⟩, endOfVariant_eq_ok.1 he⟩, hi, hy⟩
      · rintro ⟨m, s, i, content', rfl, ⟨⟨rfl, rfl⟩, rfl⟩, hi, hx⟩
        exact ⟨m, rfl, s, rfl, i, hi, x, hx, (), rfl, rfl⟩
  | _ => simp [decodeVariant, Value.single]

/-- A name stands by itself, or in an object with nothing. -/
theorem decodeName_eq_ok [FloatReader] {i : ι} : decodeName room v = .ok i ↔
    (∃ name, v = .text name ∧ findVariant ι name = .ok i) ∨
      ∃ m name content, room = m + 1 ∧ v = .single name content ∧ findVariant ι name = .ok i ∧
        decodeUnit content = .ok () := by
  rw [decodeName, decodeVariant_eq_ok]
  simp only [bind_eq_ok]
  constructor
  · rintro (⟨name, j, rfl, hj, h⟩ | ⟨m, name, j, content, rfl, rfl, hj, ⟨⟩, hu, h⟩)
    · obtain rfl := Except.ok.inj h
      exact .inl ⟨name, rfl, hj⟩
    · obtain rfl := Except.ok.inj h
      exact .inr ⟨m, name, content, rfl, rfl, hj, hu⟩
  · rintro (⟨name, rfl, hi⟩ | ⟨m, name, content, rfl, rfl, hi, hu⟩)
    · exact .inl ⟨name, i, rfl, hi, rfl⟩
    · exact .inr ⟨m, name, i, content, rfl, rfl, hi, (), hu, rfl⟩

end

/-- The literal of a variant, with what it holds. -/
def LiteralTag.build : (tag : LiteralTag) → tag.shape.Content → Literal
  | .integer => .integer
  | .float => .float
  | .string => .string
  | .boolean => .boolean
  | .null => fun _ => .null

/-- The expression of a variant, with what it holds. -/
def ExprTag.build : (tag : ExprTag) → tag.shape.Content → Expr
  | .plain .literal => .literal
  | .plain .field => .field
  | .plain .not => .not
  | .plain .count => .count
  | .plain .array => .array
  | .plain .tuple => .tuple
  | .record _ => id

/-- A literal is the word `null`, or a variant and what it holds by its shape. -/
theorem decodeLiteral_eq_ok [FloatReader] {room : Nat} {v : Value} {x : Literal} :
    decodeLiteral room v = .ok x ↔ (v = .text "null" ∧ x = .null) ∨
      ∃ m name tag content held, room = m + 1 ∧ v = .single name content ∧
        findVariant LiteralTag name = .ok tag ∧ tag.shape.decode m content = .ok held ∧
        tag.build held = x := by
  rw [decodeLiteral, decodeVariant_eq_ok]
  constructor
  · rintro (⟨name, tag, rfl, found, h⟩ | ⟨m, name, tag, content, rfl, rfl, found, h⟩)
    · have named := name_of_findIn? (findVariant_eq_ok.1 found)
      cases tag with
      | null => exact .inl ⟨by rw [← named]; rfl, (Except.ok.inj h).symm⟩
      | _ => cases h
    · obtain ⟨held, hc, rfl⟩ : ∃ held, tag.shape.decode m content = .ok held ∧
          tag.build held = x := by
        cases tag with
        | null =>
          obtain ⟨⟨⟩, hu, hx⟩ := bind_eq_ok.1 h
          exact ⟨(), hu, Except.ok.inj hx⟩
        | _ => exact map_eq_ok.1 h
      exact .inr ⟨m, name, tag, content, held, rfl, rfl, found, hc, rfl⟩
  · rintro (⟨rfl, rfl⟩ | ⟨m, name, tag, content, held, rfl, rfl, found, hc, rfl⟩)
    · exact .inl ⟨"null", .null, rfl, rfl, rfl⟩
    · refine .inr ⟨m, name, tag, content, rfl, rfl, found, ?_⟩
      cases tag with
      | null => exact bind_eq_ok.2 ⟨(), hc, rfl⟩
      | _ => exact map_eq_ok.2 ⟨held, hc, rfl⟩

/-- An expression is a variant and what it holds by its shape. -/
theorem decodeExpr_eq_ok [FloatReader] {room : Nat} {v : Value} {e : Expr} :
    decodeExpr room v = .ok e ↔
      ∃ m name tag content held, room = m + 1 ∧ v = .single name content ∧
        findVariant ExprTag name = .ok tag ∧ tag.shape.decode m content = .ok held ∧
        tag.build held = e := by
  rw [decodeExpr, decodeExprWith]
  constructor
  · intro h
    rcases decodeVariant_eq_ok.1 h with
      ⟨name, tag, rfl, found, h⟩ | ⟨m, name, tag, content, rfl, rfl, found, h⟩
    · cases tag <;> cases h
    · obtain ⟨held, hc, rfl⟩ : ∃ held, tag.shape.decode m content = .ok held ∧
          tag.build held = e := by
        match tag with
        | .record tag => exact ⟨e, h, rfl⟩
        | .plain .literal | .plain .field | .plain .not | .plain .count | .plain .array
        | .plain .tuple => exact map_eq_ok.1 h
      exact ⟨m, name, tag, content, held, rfl, rfl, found, hc, rfl⟩
  · rintro ⟨m, name, tag, content, held, rfl, rfl, found, hc, rfl⟩
    refine decodeVariant_eq_ok.2 (.inr ⟨m, name, tag, content, rfl, rfl, found, ?_⟩)
    match tag with
    | .record tag => exact hc
    | .plain .literal | .plain .field | .plain .not | .plain .count | .plain .array
    | .plain .tuple => exact map_eq_ok.2 ⟨held, hc, rfl⟩

/-! ## Records -/

theorem liftFault_eq_ok {α : Type} {r : Except SqlSelect.Json.Fault α} {x : α} :
    liftFault r = .ok x ↔ r = .ok x := by
  cases r with
  | error fault => simp [liftFault, Except.mapError]
  | ok y => simp [liftFault, Except.mapError]

namespace Record

variable {ι : Type} [Named ι] {τ : ι → Type}

/-- Which member of a record a member of an object is, `none` if it is none of them. -/
def member? (r : Record ι) : Name × Value → Option ι
  | (.ok s, _) => Named.findIn? r.members s
  | (.error _, _) => none

/-- The members of an object make a draft into another: each that is known was not
there before and is what its value decodes to, all others stay as they were, and
whatever is not known is ignored. The order of the members is not mentioned. -/
structure Gathers (r : Record ι) (decode : (i : ι) → Decoder (τ i)) (members : List (Name × Value))
    (d d' : Draft τ) : Prop where
  readable : ∀ m ∈ members, ∃ s, m.1 = .ok s
  ignored : ∀ m ∈ members, r.member? m = none → r.strict = false ∧ m.2.skip = .ok ()
  distinct : (members.filterMap r.member?).Nodup
  fresh : ∀ m ∈ members, ∀ i, r.member? m = some i → d i = none
  held : ∀ m ∈ members, ∀ i, r.member? m = some i → ∃ x, decode i m.2 = .ok x ∧ d' i = some x
  kept : ∀ i, (∀ m ∈ members, r.member? m ≠ some i) → d' i = d i

variable {r : Record ι} {decode : (i : ι) → Decoder (τ i)} {m : Name × Value}
  {members : List (Name × Value)} {d d' : Draft τ}

theorem gathers_nil : r.Gathers decode [] d d' ↔ d = d' := by
  constructor
  · intro h
    funext i
    exact (h.kept i fun _ hm => absurd hm List.not_mem_nil).symm
  · rintro rfl
    exact ⟨by simp, by simp, List.nodup_nil, by simp, by simp, fun _ _ => rfl⟩

/-- The first member is ignored, and the others make the draft. -/
theorem gathers_cons_ignored (unknown : r.member? m = none) :
    r.Gathers decode (m :: members) d d' ↔
      ((∃ s, m.1 = .ok s) ∧ r.strict = false ∧ m.2.skip = .ok ()) ∧
        r.Gathers decode members d d' := by
  constructor
  · rintro ⟨readable, ignored, distinct, fresh, held, kept⟩
    rw [List.filterMap_cons_none unknown] at distinct
    rw [List.forall_mem_cons] at readable ignored fresh held
    refine ⟨⟨readable.1, ignored.1 unknown⟩, readable.2, ignored.2, distinct, fresh.2, held.2, ?_⟩
    intro i other
    apply kept i
    rw [List.forall_mem_cons, unknown]
    exact ⟨by simp, other⟩
  · rintro ⟨⟨readable, ignored⟩, h⟩
    constructor
    case readable => exact List.forall_mem_cons.2 ⟨readable, h.readable⟩
    case ignored => exact List.forall_mem_cons.2 ⟨fun _ => ignored, h.ignored⟩
    case distinct =>
      rw [List.filterMap_cons_none unknown]
      exact h.distinct
    case fresh => exact List.forall_mem_cons.2 ⟨by simp [unknown], h.fresh⟩
    case held => exact List.forall_mem_cons.2 ⟨by simp [unknown], h.held⟩
    case kept => exact fun i other => h.kept i (List.forall_mem_cons.1 other).2

/-- The first member takes its place, and the others make the rest. -/
theorem gathers_cons [DecidableEq ι] {i : ι} (known : r.member? m = some i) :
    r.Gathers decode (m :: members) d d' ↔
      ∃ x, d i = none ∧ decode i m.2 = .ok x ∧ r.Gathers decode members (d.set i x) d' := by
  constructor
  · rintro ⟨readable, ignored, distinct, fresh, held, kept⟩
    rw [List.filterMap_cons_some known, List.nodup_cons] at distinct
    rw [List.forall_mem_cons] at readable ignored fresh held
    obtain ⟨x, value, here⟩ := held.1 i known
    have other : ∀ m' ∈ members, ∀ j, r.member? m' = some j → i ≠ j := by
      rintro m' hm j hj rfl
      exact distinct.1 (List.mem_filterMap.2 ⟨m', hm, hj⟩)
    refine ⟨x, fresh.1 i known, value, readable.2, ignored.2, distinct.2, ?_, held.2, ?_⟩
    · intro m' hm j hj
      rw [Draft.set_of_ne d x (other m' hm j hj)]
      exact fresh.2 m' hm j hj
    · intro j hj
      by_cases same : i = j
      · subst same
        rw [here, Draft.set_self]
      · rw [Draft.set_of_ne d x same]
        apply kept j
        rw [List.forall_mem_cons, known]
        exact ⟨fun h => same (Option.some.inj h), hj⟩
  · rintro ⟨x, absent, value, h⟩
    -- The others do not mention it again, since its place is no longer empty.
    have other : ∀ m' ∈ members, ∀ j, r.member? m' = some j → i ≠ j := by
      rintro m' hm j hj rfl
      have pending := h.fresh m' hm i hj
      rw [Draft.set_self] at pending
      cases pending
    have here : d' i = some x := by
      rw [h.kept i fun m' hm hi => other m' hm i hi rfl, Draft.set_self]
    constructor
    case readable =>
      refine List.forall_mem_cons.2 ⟨?_, h.readable⟩
      obtain ⟨name, v⟩ := m
      cases name with
      | ok s => exact ⟨s, rfl⟩
      | error flaw => cases known
    case ignored => exact List.forall_mem_cons.2 ⟨by simp [known], h.ignored⟩
    case distinct =>
      rw [List.filterMap_cons_some known]
      refine List.nodup_cons.2 ⟨fun hi => ?_, h.distinct⟩
      obtain ⟨m', hm, hi⟩ := List.mem_filterMap.1 hi
      exact other m' hm i hi rfl
    case fresh =>
      refine List.forall_mem_cons.2 ⟨fun j hj => ?_, fun m' hm j hj => ?_⟩
      · rw [known] at hj
        cases hj
        exact absent
      · rw [← h.fresh m' hm j hj, Draft.set_of_ne d x (other m' hm j hj)]
    case held =>
      refine List.forall_mem_cons.2 ⟨fun j hj => ?_, h.held⟩
      rw [known] at hj
      cases hj
      exact ⟨x, value, here⟩
    case kept =>
      intro j hj
      rw [List.forall_mem_cons, known] at hj
      have ne : i ≠ j := fun h => hj.1 (congrArg some h)
      rw [h.kept j hj.2, Draft.set_of_ne d x ne]

variable [DecidableEq ι]

/-- **A run over the members** succeeds exactly if they make the draft. -/
theorem decodeMembers_eq_ok :
    r.decodeMembers decode members d = .ok d' ↔ r.Gathers decode members d d' := by
  induction members generalizing d with
  | nil => rw [decodeMembers, Except.ok.injEq, gathers_nil]
  | cons m members ih =>
    obtain ⟨name, v⟩ := m
    rw [decodeMembers, bind_eq_ok]
    cases name with
    | error flaw =>
      rw [gathers_cons_ignored rfl]
      simp [readName]
    | ok s =>
      simp only [readName, Except.ok.injEq, exists_eq_left']
      cases found : Named.findIn? r.members s with
      | none =>
        have unknown : r.member? (.ok s, v) = none := found
        rw [gathers_cons_ignored unknown]
        cases r.strict with
        | true => simp
        | false =>
          simp only [Bool.false_eq_true, ↓reduceIte, bind_eq_ok, ih, liftFault_eq_ok, Except.ok.injEq,
            exists_eq', true_and]
          constructor
          · rintro ⟨⟨⟩, skipped, h⟩
            exact ⟨skipped, h⟩
          · rintro ⟨skipped, h⟩
            exact ⟨(), skipped, h⟩
      | some i =>
        have known : r.member? (.ok s, v) = some i := found
        rw [gathers_cons known]
        cases pending : d i with
        | some x => simp [pending]
        | none =>
          simp only [pending, Option.isSome_none, Bool.false_eq_true, ↓reduceIte, bind_eq_ok, ih, true_and]

omit [DecidableEq ι] in
/-- The order of the members makes no difference. -/
theorem Gathers.perm {members' : List (Name × Value)} (h : r.Gathers decode members d d')
    (same : members.Perm members') : r.Gathers decode members' d d' := by
  constructor
  case readable => exact fun m hm => h.readable m (same.mem_iff.2 hm)
  case ignored => exact fun m hm => h.ignored m (same.mem_iff.2 hm)
  case distinct => exact (same.filterMap _).nodup_iff.1 h.distinct
  case fresh => exact fun m hm => h.fresh m (same.mem_iff.2 hm)
  case held => exact fun m hm => h.held m (same.mem_iff.2 hm)
  case kept => exact fun i other => h.kept i fun m hm => other m (same.mem_iff.1 hm)

/-- Without a member, its place stays empty. -/
theorem Gathers.leave {i : ι} (known : r.member? m = some i)
    (h : r.Gathers decode (m :: members) .empty d) :
    r.Gathers decode members .empty (Function.update d i none) := by
  obtain ⟨x, -, -, h⟩ := (gathers_cons known).1 h
  have other : ∀ m' ∈ members, ∀ j, r.member? m' = some j → j ≠ i := by
    rintro m' hm j hj rfl
    have pending := h.fresh m' hm j hj
    rw [Draft.set_self] at pending
    cases pending
  refine ⟨h.readable, h.ignored, h.distinct, fun _ _ _ _ => rfl, ?_, ?_⟩
  · intro m' hm j hj
    rw [Function.update_of_ne (other m' hm j hj)]
    exact h.held m' hm j hj
  · intro j hj
    by_cases same : j = i
    · subst same
      rw [Function.update_self]
      rfl
    · rw [Function.update_of_ne same, h.kept j hj, Draft.set_of_ne _ x (Ne.symm same)]

/-- With a member somewhere, its place is filled, if it was not before. -/
theorem gathers_insert {i : ι} {before after : List (Name × Value)} (known : r.member? m = some i)
    (absent : ∀ m' ∈ before ++ after, r.member? m' ≠ some i) :
    r.Gathers decode (before ++ m :: after) .empty d' ↔
      ∃ x d, decode i m.2 = .ok x ∧ r.Gathers decode (before ++ after) .empty d ∧ d.set i x = d' := by
  constructor
  · intro h
    have front := h.perm List.perm_middle
    obtain ⟨x, -, value, later⟩ := (gathers_cons known).1 front
    have here : d' i = some x := by
      rw [later.kept i absent, Draft.set_self]
    refine ⟨x, Function.update d' i none, value, front.leave known, ?_⟩
    funext j
    by_cases same : j = i
    · subst same
      rw [Draft.set_self, here]
    · rw [Draft.set_of_ne _ x (Ne.symm same), Function.update_of_ne same]
  · rintro ⟨x, d, value, h, rfl⟩
    have other : ∀ m' ∈ before ++ after, ∀ j, r.member? m' = some j → i ≠ j := by
      rintro m' hm j hj rfl
      exact absent m' hm hj
    refine Gathers.perm ((gathers_cons known).2 ⟨x, rfl, value, ?_⟩) List.perm_middle.symm
    refine ⟨h.readable, h.ignored, h.distinct, fun m' hm j hj => ?_, fun m' hm j hj => ?_, fun j hj => ?_⟩
    · rw [Draft.set_of_ne _ x (other m' hm j hj)]
      rfl
    · rw [Draft.set_of_ne _ x (other m' hm j hj)]
      exact h.held m' hm j hj
    · by_cases same : i = j
      · subst same
        rw [Draft.set_self, Draft.set_self]
      · rw [Draft.set_of_ne _ x same, Draft.set_of_ne _ x same, h.kept j hj]

omit [DecidableEq ι] in
/-- Another value for a member that decodes to the same makes no difference. -/
theorem Gathers.replace {name : Name} {v w : Value} {before after : List (Name × Value)} {i : ι}
    (known : r.member? (name, v) = some i)
    (h : r.Gathers decode (before ++ (name, v) :: after) d d')
    (same : ∀ x, decode i v = .ok x → decode i w = .ok x) :
    r.Gathers decode (before ++ (name, w) :: after) d d' := by
  have known' : r.member? (name, w) = some i := by
    cases name with
    | ok s => exact known
    | error flaw => cases known
  obtain ⟨readable, ignored, distinct, fresh, held, kept⟩ := h
  rw [List.filterMap_append, List.filterMap_cons_some known] at distinct
  simp only [List.forall_mem_append, List.forall_mem_cons, known] at readable ignored fresh held kept
  constructor
  case distinct =>
    rw [List.filterMap_append, List.filterMap_cons_some known']
    exact distinct
  case held =>
    simp only [List.forall_mem_append, List.forall_mem_cons, known']
    refine ⟨held.1, fun j hj => ?_, held.2.2⟩
    obtain rfl := Option.some.inj hj
    obtain ⟨x, value, here⟩ := held.2.1 i rfl
    exact ⟨x, same x value, here⟩
  case ignored =>
    simp only [List.forall_mem_append, List.forall_mem_cons, known']
    exact ⟨ignored.1, by simp, ignored.2.2⟩
  all_goals
    simp only [List.forall_mem_append, List.forall_mem_cons, known']
    assumption

omit [Named ι] in
/-- An array may end where all that is left may be missing. -/
theorem decodeItems_lacking {turns : List ι} (h : ∀ i ∈ turns, r.mayLack i = true) :
    r.decodeItems decode turns [] d = .ok d := by
  induction turns with
  | nil => rfl
  | cons i turns ih =>
    rw [List.forall_mem_cons] at h
    rw [decodeItems, if_pos h.1, ih h.2]

/-- **The array** of the contents of members in their turns makes the draft that the
members make, if it lacks no others than it may. -/
theorem Gathers.items {turns : List ι} {items : List Value}
    (known : ∀ i ∈ turns, Named.findIn? r.members (Named.name i) = some i)
    (fit : items.length ≤ turns.length)
    (lacking : ∀ i ∈ turns.drop items.length, r.mayLack i = true)
    (h : r.Gathers decode (((turns.map Named.name).zip items).map fun m => (.ok m.1, m.2)) d d') :
    r.decodeItems decode turns items d = .ok d' := by
  induction turns generalizing items d with
  | nil =>
    obtain rfl := List.length_eq_zero_iff.1 (Nat.le_zero.1 fit)
    obtain rfl := gathers_nil.1 h
    exact decodeItems_lacking lacking
  | cons i turns ih =>
    cases items with
    | nil =>
      obtain rfl := gathers_nil.1 h
      exact decodeItems_lacking lacking
    | cons v items =>
      rw [List.forall_mem_cons] at known
      have first : r.member? (.ok (Named.name i), v) = some i := known.1
      obtain ⟨x, -, value, h⟩ := (gathers_cons first).1 h
      rw [decodeItems, value]
      exact ih known.2 (Nat.le_of_succ_le_succ fit) lacking h

omit [DecidableEq ι] in
/-- Decoders that accept more make the same draft. -/
theorem Gathers.mono {decode' : (i : ι) → Decoder (τ i)} (h : r.Gathers decode members d d')
    (more : ∀ i v x, decode i v = .ok x → decode' i v = .ok x) : r.Gathers decode' members d d' := by
  refine { h with held := fun m hm i known => ?_ }
  obtain ⟨x, value, here⟩ := h.held m hm i known
  exact ⟨x, more i m.2 x value, here⟩

omit [Named ι] in
/-- Decoders that accept more make the same draft of the items of an array. -/
theorem decodeItems_mono {decode' : (i : ι) → Decoder (τ i)} {turns : List ι} {items : List Value}
    (h : r.decodeItems decode turns items d = .ok d')
    (more : ∀ i v x, decode i v = .ok x → decode' i v = .ok x) :
    r.decodeItems decode' turns items d = .ok d' := by
  induction turns generalizing items d with
  | nil => exact h
  | cons i turns ih =>
    cases items with
    | nil =>
      rw [decodeItems] at h ⊢
      split at h
      · next lacking =>
        rw [if_pos lacking]
        exact ih h
      · cases h
    | cons v items =>
      obtain ⟨x, value, later⟩ := bind_eq_ok.1 h
      exact bind_eq_ok.2 ⟨x, more i v x value, ih later⟩

omit [Named ι] in
/-- Each item of an array is decoded for the member whose turn it is, and another
that decodes to the same makes no difference. -/
theorem decodeItems_item {turns : List ι} {before after : List Value} {v : Value}
    (h : r.decodeItems decode turns (before ++ v :: after) d = .ok d') :
    ∃ i x, turns[before.length]? = some i ∧ decode i v = .ok x ∧ ∀ w, decode i w = .ok x →
      r.decodeItems decode turns (before ++ w :: after) d = .ok d' := by
  induction turns generalizing before d with
  | nil =>
    obtain ⟨⟨⟩, ended, -⟩ := bind_eq_ok.1 h
    simp [endOfItems_eq_ok] at ended
  | cons j turns ih =>
    cases before with
    | nil =>
      obtain ⟨y, value, h⟩ := bind_eq_ok.1 h
      refine ⟨j, y, rfl, value, fun w hw => ?_⟩
      exact bind_eq_ok.2 ⟨y, hw, h⟩
    | cons u before =>
      obtain ⟨y, value, h⟩ := bind_eq_ok.1 h
      obtain ⟨i, x, turn, hv, replaced⟩ := ih h
      exact ⟨i, x, turn, hv, fun w hw => bind_eq_ok.2 ⟨y, value, replaced w hw⟩⟩

/-- A record is an object whose members make a draft, or an array whose items do. -/
theorem decode_eq_ok [FloatReader] {room : Nat} {member : Nat → (i : ι) → Decoder (τ i)} {v : Value} :
    r.decode room (fun m _ => member m) v = .ok d ↔ ∃ m, room = m + 1 ∧
      ((∃ members, v = .object members ∧ r.Gathers (member m) members .empty d) ∨
        ∃ items, v = .array items ∧ r.decodeItems (member m) r.members items .empty = .ok d) := by
  cases v with
  | object members => simp [Record.decode, inside_eq_ok, decodeMembers_eq_ok]
  | array items => simp [Record.decode, inside_eq_ok]
  | _ => simp [Record.decode, refuse_ne_ok]

/-- A record is accepted in more room, if its members are. -/
theorem decode_mono [FloatReader] {room room' : Nat} {member : Nat → (i : ι) → Decoder (τ i)}
    {v : Value} (h : r.decode room (fun m _ => member m) v = .ok d) (le : room ≤ room')
    (more : ∀ m m', m < room → m ≤ m' → ∀ i w x, member m i w = .ok x → member m' i w = .ok x) :
    r.decode room' (fun m _ => member m) v = .ok d := by
  obtain ⟨m, rfl, made⟩ := decode_eq_ok.1 h
  obtain ⟨m', rfl⟩ := Nat.exists_eq_add_of_le' (Nat.one_le_of_lt le)
  have wider := more m m' (Nat.lt_succ_self m) (Nat.le_of_succ_le_succ le)
  refine decode_eq_ok.2 ⟨m', rfl, ?_⟩
  rcases made with ⟨members, rfl, made⟩ | ⟨items, rfl, made⟩
  · exact .inl ⟨members, rfl, made.mono wider⟩
  · exact .inr ⟨items, rfl, decodeItems_mono made wider⟩

end Record

/-! ## Texts -/

/-- A text is accepted if its value is and nothing follows it. -/
theorem decodeText_eq_ok {α : Type} {decode : (room : Nat) → Decoder α} {text : String} {x : α} :
    decodeText decode text = .ok x ↔
      decode maxDepth (Document.read text).value = .ok x ∧ (Document.read text).trailing = false := by
  simp only [decodeText, bind_eq_ok]
  cases (Document.read text).trailing with
  | true => simp
  | false => simp

end SqlSelect.Descriptor
