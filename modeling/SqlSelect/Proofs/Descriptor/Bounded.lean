import SqlSelect.Descriptor.Query
import SqlSelect.Proofs.Json.Nesting

/-!
# Decoding in the room that a value needs

What decodes whatever the room, as long as there is enough of it, is `bounded`:
it gives its value if the depth that it needs is there, and otherwise the one
error about depth. Such results are put together as the decoders are: depths in
sequence count once, and a container adds one.
-/

set_option autoImplicit false

namespace SqlSelect.Descriptor

open SqlSelect.Json (FloatReader Name Value)

/-! ## Results that need room -/

/-- A value that takes some depth to reach. -/
def bounded {α : Type} (room depth : Nat) (x : α) : Except DecodeError α :=
  if depth ≤ room then .ok x else .error (.unreadable .tooDeep)

section

variable {α β : Type} {room depth : Nat} {x : α}

theorem bounded_zero (room : Nat) (x : α) : bounded room 0 x = .ok x := if_pos (Nat.zero_le room)

/-- Depths in sequence count once, the greater of the two. -/
theorem bind_bounded {f : α → Except DecodeError β} {depth' : Nat} {y : β}
    (h : f x = bounded room depth' y) :
    (bounded room depth x >>= f) = bounded room (max depth depth') y := by
  by_cases hd : depth ≤ room
  · have first : bounded room depth x = .ok x := if_pos hd
    have both : max depth depth' ≤ room ↔ depth' ≤ room := by omega
    rw [first]
    simp only [bind, Except.bind, h, bounded, both]
  · have first : bounded room depth x = .error (.unreadable .tooDeep) := if_neg hd
    have both : ¬ max depth depth' ≤ room := by omega
    rw [first, bounded, if_neg both]
    rfl

theorem map_bounded (f : α → β) : f <$> bounded room depth x = bounded room depth (f x) := by
  unfold bounded
  split <;> rfl

/-- A container adds one to the depth of what is inside. -/
theorem inside_bounded {f : (m : Nat) → m < room → Except DecodeError α}
    (h : ∀ m hm, f m hm = bounded m depth x) : inside room f = bounded room (depth + 1) x := by
  cases room with
  | zero => rfl
  | succ room =>
    rw [inside, h]
    simp only [bounded, Nat.add_le_add_iff_right]

end

/-! ## Variants -/

/-- An object with one member stands for the variant of its name. -/
theorem decodeVariant_single {ι α : Type} [Named ι] {i : ι}
    (h : findVariant ι (Named.name i) = .ok i) {room : Nat} {bare : ι → Except DecodeError α}
    {holding : (m : Nat) → m < room → ι → Decoder α} {content : Value} {depth : Nat} {x : α}
    (hx : ∀ m hm, holding m hm i content = bounded m depth x) :
    decodeVariant ι room bare holding (.single (Named.name i) content) =
      bounded room (depth + 1) x := by
  apply inside_bounded
  intro m hm
  have found : (findVariant ι (Named.name i) >>= fun i => do
      let x ← holding m hm i content
      endOfVariant []
      return x) = bounded m depth x := by
    rw [h]
    simp only [bind, Except.bind, hx]
    cases bounded m depth x <;> rfl
  exact found

/-- A name by itself needs no room. -/
theorem decodeName_encodeName [FloatReader] {ι : Type} [Named ι] {i : ι}
    (h : findVariant ι (Named.name i) = .ok i) (room : Nat) :
    decodeName room (encodeName i) = bounded room (encodeName i).nesting i := by
  have found : (findVariant ι (Named.name i) >>= fun i => (.ok i : Except DecodeError ι)) = .ok i := by
    rw [h]
    rfl
  have named : decodeName room (encodeName i) = .ok i := found
  rw [named]
  exact (bounded_zero room i).symm

/-! ## Lists -/

/-- Items that each decode in their room decode together. -/
theorem mapM_bounded {α : Type} {room : Nat} {item : Decoder α} :
    ∀ entries : List (Value × α), (∀ e ∈ entries, item e.1 = bounded room e.1.nesting e.2) →
      (entries.map Prod.fst).mapM item =
        bounded room (Value.nestingItems (entries.map Prod.fst)) (entries.map Prod.snd)
  | [], _ => (bounded_zero room []).symm
  | (v, x) :: entries, h => by
    have first := h (v, x) List.mem_cons_self
    have later := mapM_bounded entries fun e he => h e (List.mem_cons_of_mem _ he)
    simp only [List.map_cons, List.mapM_cons, Value.nestingItems] at first ⊢
    rw [first]
    apply bind_bounded
    rw [later]
    exact map_bounded (x :: ·)

/-- An array decodes in one more than the room that its items need together. -/
theorem decodeList_of_mapM [FloatReader] {α : Type} {item : Nat → Decoder α} {items : List Value} {xs : List α}
    (h : ∀ m, items.mapM (item m) = bounded m (Value.nestingItems items) xs) (room : Nat) :
    decodeList room (fun m _ => item m) (.array items) =
      bounded room (Value.nesting (.array items)) xs :=
  inside_bounded fun m _ => h m

theorem decodeList_bounded [FloatReader] {α : Type} {item : Nat → Decoder α} {entries : List (Value × α)}
    (h : ∀ m, ∀ e ∈ entries, item m e.1 = bounded m e.1.nesting e.2) (room : Nat) :
    decodeList room (fun m _ => item m) (.array (entries.map Prod.fst)) =
      bounded room (Value.nesting (.array (entries.map Prod.fst))) (entries.map Prod.snd) :=
  decodeList_of_mapM (fun m => mapM_bounded entries (h m)) room

/-- A pair needs one more than the deeper of its parts. -/
theorem decodePair_bounded [FloatReader] {α β : Type} {room : Nat} {first : (m : Nat) → m < room → Decoder α}
    {second : (m : Nat) → m < room → Decoder β} {v w : Value} {x : α} {y : β}
    (hx : ∀ m hm, first m hm v = bounded m v.nesting x)
    (hy : ∀ m hm, second m hm w = bounded m w.nesting y) :
    decodePair room first second (.array [v, w]) = bounded room (Value.nesting (.array [v, w])) (x, y) := by
  apply inside_bounded
  intro m hm
  have depth : Value.nestingItems [v, w] = max v.nesting w.nesting := by
    simp only [Value.nestingItems]
    omega
  rw [depth]
  simp only [hx]
  apply bind_bounded
  simp only [hy]
  exact map_bounded (Prod.mk x)

/-! ## Records -/

/-- A member of a record: what it holds and how that is written. -/
abbrev Entry {ι : Type} (τ : ι → Type) := (i : ι) × τ i × Value

namespace Entry

variable {ι : Type} [Named ι] [DecidableEq ι] {τ : ι → Type}

def members (entries : List (Entry τ)) : List (Name × Value) :=
  entries.map fun e => (.ok (Named.name e.1), e.2.2)

/-- What a record with these members holds. -/
def fill (entries : List (Entry τ)) (d : Draft τ) : Draft τ :=
  entries.foldl (fun d e => d.set e.1 e.2.1) d

end Entry

variable {ι : Type} [Named ι] [DecidableEq ι] {τ : ι → Type}

/-- Members with distinct names that each decode in their room decode together. -/
theorem decodeMembers_bounded {r : Record ι} {room : Nat} {decode : (i : ι) → Decoder (τ i)} :
    ∀ (entries : List (Entry τ)) (d : Draft τ),
      (∀ e ∈ entries, Named.findIn? r.members (Named.name e.1) = some e.1) →
      (∀ e ∈ entries, decode e.1 e.2.2 = bounded room e.2.2.nesting e.2.1) →
      (entries.map Sigma.fst).Nodup → (∀ e ∈ entries, d e.1 = none) →
      r.decodeMembers decode (Entry.members entries) d =
        bounded room (Value.nestingMembers (Entry.members entries)) (Entry.fill entries d)
  | [], d, _, _, _, _ => (bounded_zero room d).symm
  | e :: entries, d, known, reads, distinct, fresh => by
    obtain ⟨i, x, v⟩ := e
    rw [List.map_cons, List.nodup_cons] at distinct
    have known' : Named.findIn? r.members (Named.name i) = some i := known ⟨i, x, v⟩ List.mem_cons_self
    have read : decode i v = bounded room v.nesting x := reads ⟨i, x, v⟩ List.mem_cons_self
    have absent : d i = none := fresh ⟨i, x, v⟩ List.mem_cons_self
    have later := decodeMembers_bounded entries (d.set i x)
      (fun e he => known e (List.mem_cons_of_mem _ he))
      (fun e he => reads e (List.mem_cons_of_mem _ he)) distinct.2 fun e he => by
        have other : i ≠ e.1 := by
          intro h
          apply distinct.1
          simp only [h]
          exact List.mem_map_of_mem he
        rw [Draft.set_of_ne d x other]
        exact fresh e (List.mem_cons_of_mem _ he)
    have step : r.decodeMembers decode ((.ok (Named.name i), v) :: Entry.members entries) d =
        (decode i v >>= fun x => r.decodeMembers decode (Entry.members entries) (d.set i x)) := by
      rw [Record.decodeMembers]
      simp only [readName, bind, Except.bind, known', absent, Option.isSome_none, Bool.false_eq_true,
        ↓reduceIte]
    have depth : Value.nestingMembers (Entry.members (⟨i, x, v⟩ :: entries)) =
        max v.nesting (Value.nestingMembers (Entry.members entries)) := rfl
    have members : Entry.members (⟨i, x, v⟩ :: entries) =
        (.ok (Named.name i), v) :: Entry.members entries := rfl
    rw [depth, members, step, read]
    exact bind_bounded later

/-- A record whose members each decode in their room decodes. -/
theorem decode_bounded [FloatReader] {r : Record ι} {room : Nat}
    {member : (m : Nat) → m < room → (i : ι) → Decoder (τ i)} {entries : List (Entry τ)}
    (known : ∀ e ∈ entries, Named.findIn? r.members (Named.name e.1) = some e.1)
    (distinct : (entries.map Sigma.fst).Nodup)
    (reads : ∀ m hm, ∀ e ∈ entries, member m hm e.1 e.2.2 = bounded m e.2.2.nesting e.2.1) :
    r.decode room member (.object (Entry.members entries)) =
      bounded room (Value.nesting (.object (Entry.members entries))) (Entry.fill entries .empty) :=
  inside_bounded fun m hm =>
    decodeMembers_bounded entries .empty known (reads m hm) distinct fun _ _ => rfl

end SqlSelect.Descriptor
