import SqlSelect.Proofs.Descriptor.Accepted

/-!
# Room that is enough

A decoder notices the room that it is given only where there is too little of
it. Wherever a value is nested no deeper than the room allows, its decoding does
not depend on how much more room there is (`decodeExpr_room`, `decodeQuery_room`).
What is accepted at all, however deep its ignored members are nested, is accepted in
any more room (`decode_mono`).
-/

set_option autoImplicit false

namespace SqlSelect.Json.Value

theorem nesting_le_items {v : Value} {items : List Value} (h : v ∈ items) :
    v.nesting ≤ nestingItems items := by
  induction items with
  | nil => simp at h
  | cons item items ih =>
    rw [nestingItems]
    rcases List.mem_cons.1 h with rfl | h
    · exact Nat.le_max_left _ _
    · exact (ih h).trans (Nat.le_max_right _ _)

theorem nesting_le_members {m : Name × Value} {members : List (Name × Value)} (h : m ∈ members) :
    m.2.nesting ≤ nestingMembers members := by
  induction members with
  | nil => simp at h
  | cons member members ih =>
    rw [nestingMembers]
    rcases List.mem_cons.1 h with rfl | h
    · exact Nat.le_max_left _ _
    · exact (ih h).trans (Nat.le_max_right _ _)

end SqlSelect.Json.Value

namespace SqlSelect.Descriptor

open SqlSelect.Json (Document FloatReader Name Value)

/-! ## Containers -/

/-- Decoders in any less room agree on values that are nested less than so
deep, wherever both have enough room. -/
def Agree {α : Type} (depth : Nat) {room room' : Nat} (d : (m : Nat) → m < room → Decoder α)
    (d' : (m : Nat) → m < room' → Decoder α) : Prop :=
  ∀ m hm m' hm' v, v.nesting < depth → v.nesting ≤ m → v.nesting ≤ m' → d m hm v = d' m' hm' v

variable {α β : Type} {room room' : Nat}

/-- Two containers agree if their contents do wherever both have room for the depth. -/
theorem inside_congr {depth : Nat} (enough : depth < room) (enough' : depth < room')
    {f : (m : Nat) → m < room → Except DecodeError α}
    {f' : (m : Nat) → m < room' → Except DecodeError α}
    (h : ∀ m hm m' hm', depth ≤ m → depth ≤ m' → f m hm = f' m' hm') :
    inside room f = inside room' f' := by
  cases room with
  | zero => omega
  | succ room =>
    cases room' with
    | zero => omega
    | succ room' => exact h room _ room' _ (by omega) (by omega)

theorem mapM_congr {item item' : Decoder α} {items : List Value}
    (h : ∀ v ∈ items, item v = item' v) : items.mapM item = items.mapM item' := by
  induction items with
  | nil => rfl
  | cons v items ih =>
    rw [List.mapM_cons, List.mapM_cons, h v List.mem_cons_self,
      ih fun w hw => h w (List.mem_cons_of_mem _ hw)]

/-- A list decodes the same with room enough, if its items do. -/
theorem decodeList_room [FloatReader] {item : (m : Nat) → m < room → Decoder α}
    {item' : (m : Nat) → m < room' → Decoder α} {v : Value} (enough : v.nesting ≤ room)
    (enough' : v.nesting ≤ room') (h : Agree v.nesting item item') :
    decodeList room item v = decodeList room' item' v := by
  cases v with
  | array items =>
    refine inside_congr enough enough' fun m hm m' hm' hd hd' => mapM_congr fun w hw => ?_
    have le := Value.nesting_le_items hw
    exact h m hm m' hm' w (Nat.lt_succ_of_le le) (le.trans hd) (le.trans hd')
  | _ => rfl

/-- A pair decodes the same with room enough, if its parts do. -/
theorem decodePair_room [FloatReader] {first : (m : Nat) → m < room → Decoder α}
    {first' : (m : Nat) → m < room' → Decoder α} {second : (m : Nat) → m < room → Decoder β}
    {second' : (m : Nat) → m < room' → Decoder β} {v : Value} (enough : v.nesting ≤ room)
    (enough' : v.nesting ≤ room') (h : Agree v.nesting first first')
    (h' : Agree v.nesting second second') :
    decodePair room first second v = decodePair room' first' second' v := by
  cases v with
  | array items =>
    apply inside_congr enough enough'
    intro m hm m' hm' hd hd'
    match items, hd, hd', h, h' with
    | [], _, _, _, _ => rfl
    | [a], hd, hd', h, _ =>
      have le : a.nesting ≤ Value.nestingItems [a] := Value.nesting_le_items List.mem_cons_self
      have same := h m hm m' hm' a (Nat.lt_succ_of_le le) (le.trans hd) (le.trans hd')
      simp only [same]
    | a :: b :: rest, hd, hd', h, h' =>
      have le : a.nesting ≤ Value.nestingItems (a :: b :: rest) :=
        Value.nesting_le_items List.mem_cons_self
      have le' : b.nesting ≤ Value.nestingItems (a :: b :: rest) :=
        Value.nesting_le_items (List.mem_cons_of_mem _ List.mem_cons_self)
      have same := h m hm m' hm' a (Nat.lt_succ_of_le le) (le.trans hd) (le.trans hd')
      have same' := h' m hm m' hm' b (Nat.lt_succ_of_le le') (le'.trans hd) (le'.trans hd')
      simp only [same, same']
  | _ => rfl

/-- A variant decodes the same with room enough, if what it holds does. -/
theorem decodeVariant_room {ι : Type} [Named ι] {bare : ι → Except DecodeError α}
    {holding : (m : Nat) → m < room → ι → Decoder α}
    {holding' : (m : Nat) → m < room' → ι → Decoder α} {v : Value} (enough : v.nesting ≤ room)
    (enough' : v.nesting ≤ room')
    (h : ∀ i, Agree v.nesting (fun m hm => holding m hm i) fun m hm => holding' m hm i) :
    decodeVariant ι room bare holding v = decodeVariant ι room' bare holding' v := by
  cases v with
  | object members =>
    apply inside_congr enough enough'
    intro m hm m' hm' hd hd'
    match members, hd, hd', h with
    | [], _, _, _ => rfl
    | (name, content) :: rest, hd, hd', h =>
      have le : content.nesting ≤ Value.nestingMembers ((name, content) :: rest) :=
        Nat.le_max_left _ _
      have same i : holding m hm i content = holding' m' hm' i content :=
        h i m hm m' hm' content (Nat.lt_succ_of_le le) (le.trans hd) (le.trans hd')
      simp only [same]
  | _ => rfl

/-! ## Records -/

section

variable {ι : Type} [Named ι] [DecidableEq ι] {τ : ι → Type}

theorem decodeMembers_congr {r : Record ι} {decode decode' : (i : ι) → Decoder (τ i)}
    {members : List (Name × Value)} (h : ∀ m ∈ members, ∀ i, decode i m.2 = decode' i m.2)
    (d : Draft τ) : r.decodeMembers decode members d = r.decodeMembers decode' members d := by
  induction members generalizing d with
  | nil => rfl
  | cons m members ih =>
    have later := ih fun m hm => h m (List.mem_cons_of_mem _ hm)
    have first := h m List.mem_cons_self
    obtain ⟨name, content⟩ := m
    rw [Record.decodeMembers, Record.decodeMembers]
    simp only [first, later]

omit [Named ι] in
theorem decodeItems_congr {r : Record ι} {decode decode' : (i : ι) → Decoder (τ i)}
    (turns : List ι) {items : List Value} (h : ∀ v ∈ items, ∀ i, decode i v = decode' i v)
    (d : Draft τ) : r.decodeItems decode turns items d = r.decodeItems decode' turns items d := by
  induction turns generalizing items d with
  | nil => rfl
  | cons i turns ih =>
    cases items with
    | nil =>
      rw [Record.decodeItems, Record.decodeItems]
      simp only [ih h]
    | cons v items =>
      have later := ih fun w hw => h w (List.mem_cons_of_mem _ hw)
      rw [Record.decodeItems, Record.decodeItems, h v List.mem_cons_self i]
      simp only [later]

/-- A record decodes the same with room enough, if its members do. -/
theorem record_room [FloatReader] {r : Record ι} {member : (m : Nat) → m < room → (i : ι) → Decoder (τ i)}
    {member' : (m : Nat) → m < room' → (i : ι) → Decoder (τ i)} {v : Value}
    (enough : v.nesting ≤ room) (enough' : v.nesting ≤ room')
    (h : ∀ i, Agree v.nesting (fun m hm => member m hm i) fun m hm => member' m hm i) :
    r.decode room member v = r.decode room' member' v := by
  cases v with
  | object members =>
    refine inside_congr enough enough' fun m hm m' hm' hd hd' =>
      decodeMembers_congr (fun w hw i => ?_) _
    have le := Value.nesting_le_members hw
    exact h i m hm m' hm' w.2 (Nat.lt_succ_of_le le) (le.trans hd) (le.trans hd')
  | array items =>
    refine inside_congr enough enough' fun m hm m' hm' hd hd' =>
      decodeItems_congr _ (fun w hw i => ?_) _
    have le := Value.nesting_le_items hw
    exact h i m hm m' hm' w (Nat.lt_succ_of_le le) (le.trans hd) (le.trans hd')
  | _ => rfl

end

/-! ## Expressions -/

section

variable [FloatReader]

mutual

/-- A value is read whole in the same way wherever it has room enough. -/
theorem readWhole_room : (v : Value) → ∀ room room' : Nat, v.nesting ≤ room → v.nesting ≤ room' →
    readWhole room v = readWhole room' v
  | .array items, room, room', enough, enough' => by
    obtain ⟨m, rfl⟩ := Nat.exists_eq_add_of_le' (Nat.one_le_of_lt enough)
    obtain ⟨m', rfl⟩ := Nat.exists_eq_add_of_le' (Nat.one_le_of_lt enough')
    exact readWholeItems_room items m m' (Nat.le_of_succ_le_succ enough)
      (Nat.le_of_succ_le_succ enough')
  | .object members, room, room', enough, enough' => by
    obtain ⟨m, rfl⟩ := Nat.exists_eq_add_of_le' (Nat.one_le_of_lt enough)
    obtain ⟨m', rfl⟩ := Nat.exists_eq_add_of_le' (Nat.one_le_of_lt enough')
    exact readWholeMembers_room members m m' (Nat.le_of_succ_le_succ enough)
      (Nat.le_of_succ_le_succ enough')
  | .null, _, _, _, _ | .boolean _, _, _, _, _ | .text _, _, _, _, _ | .number _, _, _, _, _
  | .flawed _, _, _, _, _ => rfl

theorem readWholeItems_room : (items : List Value) → ∀ room room' : Nat,
    Value.nestingItems items ≤ room → Value.nestingItems items ≤ room' →
    readWholeItems room items = readWholeItems room' items
  | [], _, _, _, _ => rfl
  | item :: rest, room, room', enough, enough' => by
    rw [Value.nestingItems, Nat.max_le] at enough enough'
    rw [readWholeItems, readWholeItems, readWhole_room item room room' enough.1 enough'.1,
      readWholeItems_room rest room room' enough.2 enough'.2]

theorem readWholeMembers_room : (members : List (Name × Value)) → ∀ room room' : Nat,
    Value.nestingMembers members ≤ room → Value.nestingMembers members ≤ room' →
    readWholeMembers room members = readWholeMembers room' members
  | [], _, _, _, _ => rfl
  | (name, content) :: rest, room, room', enough, enough' => by
    rw [Value.nestingMembers, Nat.max_le] at enough enough'
    rw [readWholeMembers, readWholeMembers, readWhole_room content room room' enough.1 enough'.1,
      readWholeMembers_room rest room room' enough.2 enough'.2]

end

theorem decodeLiteral_room {v : Value} (enough : v.nesting ≤ room) (enough' : v.nesting ≤ room') :
    decodeLiteral room v = decodeLiteral room' v := by
  apply decodeVariant_room enough enough'
  intro i m _ m' _ w _ hd hd'
  cases i with
  | float =>
    have float : decodeFloat m w = decodeFloat m' w := by
      unfold decodeFloat
      rw [readWhole_room w m m' hd hd']
    exact congrArg (Literal.float <$> ·) float
  | _ => rfl

theorem decodeName_room {ι : Type} [Named ι] {v : Value} (enough : v.nesting ≤ room)
    (enough' : v.nesting ≤ room') : (decodeName room v : Except DecodeError ι) = decodeName room' v :=
  decodeVariant_room enough enough' fun _ _ _ _ _ _ _ _ _ => rfl

omit [FloatReader] in
theorem decodeOption_congr {decode decode' : Decoder α} {v : Value} (h : decode v = decode' v) :
    decodeOption decode v = decodeOption decode' v := by
  unfold decodeOption
  split
  · rfl
  · rfl
  · exact congrArg (some <$> ·) h

/-- A member decodes the same with room enough, if expressions do. -/
theorem decodeExprMember_room {expr : (m : Nat) → m ≤ room → Decoder Expr}
    {expr' : (m : Nat) → m ≤ room' → Decoder Expr} {v : Value} (enough : v.nesting ≤ room)
    (enough' : v.nesting ≤ room')
    (h : ∀ m hm m' hm' w, w.nesting ≤ v.nesting → w.nesting ≤ m → w.nesting ≤ m' →
      expr m hm w = expr' m' hm' w) (i : ExprMember) :
    decodeExprMember room expr i v = decodeExprMember room' expr' i v := by
  have whole : expr room (Nat.le_refl _) v = expr' room' (Nat.le_refl _) v :=
    h _ _ _ _ v (Nat.le_refl _) enough enough'
  have parts : Agree v.nesting (fun m hm => expr m (Nat.le_of_lt hm)) fun m hm =>
      expr' m (Nat.le_of_lt hm) :=
    fun m _ m' _ w hw hd hd' => h m _ m' _ w (Nat.le_of_lt hw) hd hd'
  cases i with
  | left | right | arg | expr | low | high => exact whole
  | op | func => exact decodeName_room enough enough'
  | name | dataType | negated => rfl
  | args | list => exact decodeList_room enough enough' parts
  | subject | default => exact decodeOption_congr whole
  | branches =>
    apply decodeList_room enough enough'
    intro m hm m' hm' w hw hd hd'
    have inner : Agree w.nesting (fun k (hk : k < m) => expr k (Nat.le_of_lt (hk.trans hm)))
        fun k (hk : k < m') => expr' k (Nat.le_of_lt (hk.trans hm')) :=
      fun k _ k' _ u hu => h k _ k' _ u (Nat.le_of_lt (hu.trans hw))
    exact decodePair_room hd hd' inner inner

/-- Step: an expression decodes the same with room enough, if its parts do. -/
theorem decodeExprWith_room {expr : (m : Nat) → m < room → Decoder Expr}
    {expr' : (m : Nat) → m < room' → Decoder Expr} {v : Value} (enough : v.nesting ≤ room)
    (enough' : v.nesting ≤ room') (h : Agree v.nesting expr expr') :
    decodeExprWith room expr v = decodeExprWith room' expr' v := by
  apply decodeVariant_room enough enough'
  intro i m hm m' hm' w hw hd hd'
  have whole : expr m hm w = expr' m' hm' w := h m hm m' hm' w hw hd hd'
  have parts : Agree w.nesting (fun k (hk : k < m) => expr k (hk.trans hm))
      fun k (hk : k < m') => expr' k (hk.trans hm') :=
    fun k _ k' _ u hu => h k _ k' _ u (hu.trans hw)
  match i with
  | .plain .literal => exact congrArg (Expr.literal <$> ·) (decodeLiteral_room hd hd')
  | .plain .field => rfl
  | .plain .not => exact congrArg (Expr.not <$> ·) whole
  | .plain .count => exact congrArg (Expr.count <$> ·) (decodeOption_congr whole)
  | .plain .array => exact congrArg (Expr.array <$> ·) (decodeList_room hd hd' parts)
  | .plain .tuple => exact congrArg (Expr.tuple <$> ·) (decodeList_room hd hd' parts)
  | .record tag =>
    refine congrArg (· >>= tag.assemble) (record_room hd hd' fun i k hk k' hk' u hu he he' => ?_)
    exact decodeExprMember_room he he' (fun j _ j' _ x hx =>
      h j _ j' _ x (Nat.lt_of_le_of_lt hx (hu.trans hw))) i

/-- **An expression** decodes the same wherever there is enough room for it. -/
theorem decodeExpr_room {v : Value} (enough : v.nesting ≤ room) (enough' : v.nesting ≤ room') :
    decodeExpr room v = decodeExpr room' v := by
  -- Each part is nested less deep than the whole.
  induction depth : v.nesting using Nat.strong_induction_on generalizing v room room' with
  | _ depth ih =>
    subst depth
    rw [decodeExpr, decodeExpr]
    exact decodeExprWith_room enough enough' fun m _ m' _ w hw hd hd' => ih w.nesting hw hd hd' rfl

/-! ## Queries -/

theorem decodeOrderBy_room {v : Value} (enough : v.nesting ≤ room) (enough' : v.nesting ≤ room') :
    decodeOrderBy room v = decodeOrderBy room' v := by
  have members : orderRecord.decode room (fun m _ => decodeOrderMember m) v =
      orderRecord.decode room' (fun m _ => decodeOrderMember m) v := by
    apply record_room enough enough'
    intro i m _ m' _ w _ hd hd'
    cases i with
    | expr => exact decodeExpr_room hd hd'
    | direction => exact decodeName_room hd hd'
  rw [decodeOrderBy, decodeOrderBy, members]

/-- **A member of a query** decodes the same wherever there is enough room for it. -/
theorem decodeQueryMember_room (i : QueryMember) {v : Value} (enough : v.nesting ≤ room)
    (enough' : v.nesting ≤ room') : decodeQueryMember room i v = decodeQueryMember room' i v := by
  cases i with
  | table | limit | offset | distinct => rfl
  | selects | wheres | groupBys | havings =>
    exact decodeList_room enough enough' fun _ _ _ _ _ _ hd hd' => decodeExpr_room hd hd'
  | orderBys =>
    exact decodeList_room enough enough' fun _ _ _ _ _ _ hd hd' => decodeOrderBy_room hd hd'

/-- What is accepted in so much room is accepted in any more, and comes to the same. -/
def KeptIn (room : Nat) : Prop :=
  ∀ (s : Shape) (v : Value) (x : s.Content) (room' : Nat), room ≤ room' →
    s.decode room v = .ok x → s.decode room' v = .ok x

/-- A float that is accepted has no container in it, so any room will do. -/
theorem decodeFloat_mono {v : Value} {x : Binary64} (h : decodeFloat room v = .ok x) :
    decodeFloat room' v = .ok x := by
  obtain ⟨⟨⟩, -, accepted⟩ := bind_eq_ok.1 h
  cases v with
  | number | text => exact h
  | _ => cases accepted

theorem decodeName_mono {ι : Type} [Named ι] {v : Value} {i : ι} (le : room ≤ room')
    (h : decodeName room v = .ok i) : decodeName room' v = .ok i := by
  rcases decodeName_eq_ok.1 h with ⟨name, rfl, found⟩ | ⟨m, name, content, rfl, rfl, found, held⟩
  · exact decodeName_eq_ok.2 (.inl ⟨name, rfl, found⟩)
  · obtain ⟨m', rfl⟩ := Nat.exists_eq_add_of_le' (Nat.one_le_of_lt le)
    exact decodeName_eq_ok.2 (.inr ⟨m', name, content, rfl, rfl, found, held⟩)

section

variable {v : Value}

/-- More room leaves more of it inside of an array or object, where all is kept. -/
theorem kept_inside {m : Nat} (below : ∀ k < m + 1, KeptIn k) (le : m + 1 ≤ room') :
    ∃ m', room' = m' + 1 ∧ ∀ (s : Shape) (w : Value) (x : s.Content),
      s.decode m w = .ok x → s.decode m' w = .ok x := by
  obtain ⟨m', rfl⟩ := Nat.exists_eq_add_of_le' (Nat.one_le_of_lt le)
  have kept : KeptIn m := below m (Nat.lt_succ_self m)
  exact ⟨m', rfl, fun s w x value => kept s w x m' (Nat.le_of_succ_le_succ le) value⟩

/-- Step: a literal is kept in more room, if what it holds is. -/
theorem kept_literal (below : ∀ m < room, KeptIn m) {x : Literal} (le : room ≤ room')
    (h : decodeLiteral room v = .ok x) : decodeLiteral room' v = .ok x := by
  rcases decodeLiteral_eq_ok.1 h with ⟨rfl, rfl⟩ | ⟨m, name, tag, content, held, rfl, rfl, found, hc, rfl⟩
  · exact decodeLiteral_eq_ok.2 (.inl ⟨rfl, rfl⟩)
  · obtain ⟨m', rfl, inner⟩ := kept_inside below le
    have hc' := inner _ _ _ hc
    exact decodeLiteral_eq_ok.2 (.inr ⟨m', name, tag, content, held, rfl, rfl, found, hc', rfl⟩)

/-- Step: an expression is kept in more room, if what its variant holds is. -/
theorem kept_expr (below : ∀ m < room, KeptIn m) {e : Expr} (le : room ≤ room')
    (h : decodeExpr room v = .ok e) : decodeExpr room' v = .ok e := by
  obtain ⟨m, name, tag, content, held, rfl, rfl, found, hc, rfl⟩ := decodeExpr_eq_ok.1 h
  obtain ⟨m', rfl, inner⟩ := kept_inside below le
  have hc' := inner _ _ _ hc
  exact decodeExpr_eq_ok.2 ⟨m', name, tag, content, held, rfl, rfl, found, hc', rfl⟩

/-- Step: the record of a variant is kept in more room, if its members are. -/
theorem kept_body (below : ∀ m < room, KeptIn m) {tag : RecordTag} {e : Expr} (le : room ≤ room')
    (h : (Shape.body tag).decode room v = .ok e) : (Shape.body tag).decode room' v = .ok e := by
  obtain ⟨d, made, whole⟩ := bind_eq_ok.1 h
  refine bind_eq_ok.2 ⟨d, Record.decode_mono made le fun m m' hm le' i w x value => ?_, whole⟩
  have kept := below m hm i.shape w
  cases i <;> exact kept x m' le' value

/-- Step: an entry is kept in more room, if its members are. -/
theorem kept_order (below : ∀ m < room, KeptIn m) {entry : OrderBy} (le : room ≤ room')
    (h : decodeOrderBy room v = .ok entry) : decodeOrderBy room' v = .ok entry := by
  obtain ⟨d, made, whole⟩ := bind_eq_ok.1 h
  refine bind_eq_ok.2 ⟨d, Record.decode_mono made le fun m m' hm le' i w x value => ?_, whole⟩
  have kept := below m hm i.shape w
  cases i <;> exact kept x m' le' value

/-- Step: a query is kept in more room, if its members are. -/
theorem kept_query (below : ∀ m < room, KeptIn m) {q : Query} (le : room ≤ room')
    (h : decodeQuery room v = .ok q) : decodeQuery room' v = .ok q := by
  obtain ⟨d, made, rfl⟩ := map_eq_ok.1 h
  refine map_eq_ok.2 ⟨d, Record.decode_mono made le fun m m' hm le' i w x value => ?_, rfl⟩
  have kept := below m hm i.shape w
  cases i <;> exact kept x m' le' value

/-- Step: a list is kept in more room, if its items are. -/
theorem kept_list (below : ∀ m < room, KeptIn m) {s : Shape} {xs : List s.Content}
    (le : room ≤ room') (h : (Shape.list s).decode room v = .ok xs) :
    (Shape.list s).decode room' v = .ok xs := by
  obtain ⟨m, items, rfl, rfl, parts⟩ := decodeList_eq_ok.1 h
  obtain ⟨m', rfl, inner⟩ := kept_inside below le
  exact decodeList_eq_ok.2 ⟨m', items, rfl, rfl, parts.imp fun w x value => inner s w x value⟩

/-- Step: a pair is kept in more room, if its parts are. -/
theorem kept_pair (below : ∀ m < room, KeptIn m) {s : Shape} {p : s.Content × s.Content}
    (le : room ≤ room') (h : (Shape.pair s).decode room v = .ok p) :
    (Shape.pair s).decode room' v = .ok p := by
  obtain ⟨m, a, b, rfl, rfl, first, second⟩ := decodePair_eq_ok.1 h
  obtain ⟨m', rfl, inner⟩ := kept_inside below le
  exact decodePair_eq_ok.2 ⟨m', a, b, rfl, rfl, inner s a p.1 first, inner s b p.2 second⟩

end

/-- **More room** makes no difference to what is accepted. -/
theorem decode_mono (room : Nat) : KeptIn room := by
  -- Each part inside an array or object has less room than the whole.
  induction room using Nat.strong_induction_on with
  | _ room below =>
    intro s
    induction s with
    | any | unit | boolean | string | integer | count => exact fun _ _ _ _ h => h
    | float => exact fun _ _ _ _ h => decodeFloat_mono h
    | operator | function | direction => exact fun _ _ _ le h => decodeName_mono le h
    | literal => exact fun _ _ _ le h => kept_literal below le h
    | expr => exact fun _ _ _ le h => kept_expr below le h
    | body tag => exact fun _ _ _ le h => kept_body below le h
    | order => exact fun _ _ _ le h => kept_order below le h
    | query => exact fun _ _ _ le h => kept_query below le h
    | list s => exact fun _ _ _ le h => kept_list below le h
    | pair s => exact fun _ _ _ le h => kept_pair below le h
    | option s ih => exact fun v _ room' le h => decodeOption_mono h fun y => ih v y room' le

end

/-! ## Texts -/

/-- A text that holds a value and nothing else decodes as the value does. -/
theorem decodeText_of_read {decode : (room : Nat) → Decoder α} {text : String} {v : Value}
    (h : Document.read text = ⟨v, false⟩) : decodeText decode text = decode maxDepth v := by
  have plain (r : Except DecodeError α) : (r >>= fun x => (.ok x : Except DecodeError α)) = r := by
    cases r <;> rfl
  simp only [decodeText, h, Bool.false_eq_true, ↓reduceIte, plain]

end SqlSelect.Descriptor
