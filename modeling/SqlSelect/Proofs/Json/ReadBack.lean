import SqlSelect.Proofs.Json.Scalar

/-!
# Values read back

The text of a value without flaws, its numbers written as numbers are, reads
back as the value, whatever follows it (`Sound.reads`), and as a document
(`Sound.read_compact`). An array or object takes at most three steps of the
reader for each character of its text.
-/

set_option autoImplicit false

namespace SqlSelect.Json

/-! ## Sound values -/

/-- A value without flaws, its numbers written as numbers are. -/
inductive Sound : Value → Prop where
  | null : Sound .null
  | boolean {b : Bool} : Sound (.boolean b)
  | number {n : Numeral} (h : n.Written) : Sound (.number n)
  | text {s : String} : Sound (.text s)
  | array {items : List Value} (h : ∀ v ∈ items, Sound v) : Sound (.array items)
  | object {members : List (Name × Value)} (hn : ∀ m ∈ members, ∃ s, m.1 = .ok s)
      (h : ∀ m ∈ members, Sound m.2) : Sound (.object members)

/-- What the text of a value begins with. -/
def Begins (cs : List Char) : Prop :=
  ∃ c rest, cs = c :: rest ∧ isBlank c = false ∧ c ≠ ']'

theorem begins_cons {c : Char} {rest : List Char} (hb : isBlank c = false) (hc : c ≠ ']') :
    Begins (c :: rest) :=
  ⟨c, rest, rfl, hb, hc⟩

theorem Begins.append {cs : List Char} (h : Begins cs) (tail : List Char) : Begins (cs ++ tail) := by
  obtain ⟨c, rest, rfl, hb, hc⟩ := h
  exact begins_cons hb hc

theorem Begins.skipBlanks_eq {cs : List Char} (h : Begins cs) : skipBlanks cs = cs := by
  obtain ⟨c, rest, rfl, hb, -⟩ := h
  simp [skipBlanks, hb]

theorem isBlank_of_isDigit {c : Char} (h : c.isDigit = true) : isBlank c = false := by
  by_contra hb
  simp only [isBlank, Bool.not_eq_false, Bool.or_eq_true, decide_eq_true_eq] at hb
  rcases hb with ((rfl | rfl) | rfl) | rfl <;> exact absurd h (by decide)

/-- A number begins with a sign or a digit. -/
theorem exists_front {whole : List Char} (filled : whole ≠ []) (digits : ∀ c ∈ whole, c.isDigit = true)
    (negative : Bool) (tail : List Char) :
    ∃ c cs, (if negative then ['-'] else []) ++ (whole ++ tail) = c :: cs ∧
      (c = '-' || c.isDigit) = true := by
  cases negative with
  | true => exact ⟨'-', _, rfl, rfl⟩
  | false =>
    obtain ⟨d, ds, rfl⟩ := List.exists_cons_of_ne_nil filled
    exact ⟨d, _, rfl, by rw [digits d List.mem_cons_self, Bool.or_true]⟩

theorem isBlank_of_front {c : Char} (h : (c = '-' || c.isDigit) = true) : isBlank c = false := by
  rw [Bool.or_eq_true, decide_eq_true_eq] at h
  rcases h with rfl | digit
  · decide
  · exact isBlank_of_isDigit digit

theorem begins_number {n : Numeral} (h : n.Readable) : Begins n.text.toList := by
  obtain ⟨c, cs, ht, front⟩ := exists_front h.whole_ne_nil h.whole n.negative
    (fractionChars n ++ exponentChars n)
  rw [toList_text_eq, ht]
  apply begins_cons (isBlank_of_front front)
  rintro rfl
  exact absurd front (by decide)

/-- The text of a sound value begins as a value does. -/
theorem Sound.begins {v : Value} (h : Sound v) : Begins v.compact.toList := by
  cases h with
  | null => exact begins_cons (c := 'n') (by decide) (by decide)
  | @boolean b =>
    cases b with
    | true => exact begins_cons (c := 't') (by decide) (by decide)
    | false => exact begins_cons (c := 'f') (by decide) (by decide)
  | number h => exact begins_number h.toReadable
  | text =>
    rw [Value.compact, toList_quote]
    exact begins_cons (by decide) (by decide)
  | @array items h =>
    cases items with
    | nil => exact begins_cons (c := '[') (by decide) (by decide)
    | cons v rest =>
      simp only [Value.compact, String.toList_append, List.append_assoc]
      exact begins_cons (c := '[') (by decide) (by decide)
  | @object members hn h =>
    cases members with
    | nil => exact begins_cons (c := '\x7b') (by decide) (by decide)
    | cons m rest =>
      simp only [Value.compact, String.toList_append, List.append_assoc]
      exact begins_cons (c := '\x7b') (by decide) (by decide)

/-! ## Scalars -/

/-- The reader reads the value back, whatever follows it. -/
def Reads (v : Value) : Prop :=
  ∀ fuel rest, 3 * v.compact.toList.length ≤ fuel → Ends rest →
    readValue fuel (v.compact.toList ++ rest) = (v, some rest)

/-- What begins with no blank, bracket or brace is a scalar. -/
theorem readValue_scalar {c : Char} {cs : List Char} (hb : isBlank c = false) (ha : c ≠ '[')
    (ho : c ≠ '\x7b') (fuel : Nat) : readValue (fuel + 1) (c :: cs) = readScalar c cs := by
  have front : skipBlanks (c :: cs) = c :: cs := by simp [skipBlanks, hb]
  rw [readValue, front]
  split
  · next h => cases h
  · next h => exact absurd (List.cons.inj h).1 ha
  · next h => exact absurd (List.cons.inj h).1 ho
  · next h =>
    obtain ⟨rfl, rfl⟩ := List.cons.inj h
    rfl

/-- A value that is neither an array nor an object reads back. -/
theorem reads_of_scalar {v : Value} {c : Char} {cs : List Char} (ht : v.compact.toList = c :: cs)
    (hb : isBlank c = false) (ha : c ≠ '[') (ho : c ≠ '\x7b')
    (h : ∀ rest, Ends rest → readScalar c (cs ++ rest) = (v, some rest)) : Reads v := by
  intro fuel rest hf he
  rw [ht] at hf ⊢
  obtain ⟨fuel, rfl⟩ : ∃ k, fuel = k + 1 := ⟨fuel - 1, by simp at hf; omega⟩
  rw [List.cons_append, readValue_scalar hb ha ho, h rest he]

theorem readScalar_number {c : Char} {cs : List Char} (hc : (c = '-' || c.isDigit) = true) :
    readScalar c cs = readNumber (c :: cs) := by
  have letters : c ≠ '\x22' ∧ c ≠ 'n' ∧ c ≠ 't' ∧ c ≠ 'f' := by
    refine ⟨?_, ?_, ?_, ?_⟩ <;> rintro rfl <;> exact absurd hc (by decide)
  obtain ⟨hq, hn, ht, hf⟩ := letters
  rw [readScalar, if_neg hq, if_neg hn, if_neg ht, if_neg hf, if_pos hc]

/-- Where a number begins, the reader of values reads a number. -/
theorem readValue_number {c : Char} {cs : List Char} (hc : (c = '-' || c.isDigit) = true) (fuel : Nat) :
    readValue (fuel + 1) (c :: cs) = readNumber (c :: cs) := by
  have brackets : c ≠ '[' ∧ c ≠ '\x7b' := by
    refine ⟨?_, ?_⟩ <;> rintro rfl <;> exact absurd hc (by decide)
  rw [readValue_scalar (isBlank_of_front hc) brackets.1 brackets.2, readScalar_number hc]

theorem reads_number {n : Numeral} (h : n.Written) : Reads (.number n) := by
  obtain ⟨c, cs, ht, front⟩ := exists_front h.whole_ne_nil h.whole n.negative
    (fractionChars n ++ exponentChars n)
  rw [← toList_text_eq] at ht
  intro fuel rest hf he
  have text : (Value.number n).compact.toList = c :: cs := ht
  rw [text] at hf ⊢
  obtain ⟨fuel, rfl⟩ : ∃ k, fuel = k + 1 := ⟨fuel - 1, by simp at hf; omega⟩
  rw [List.cons_append, readValue_number front, ← List.cons_append, ← ht, readNumber_text h he]

theorem reads_text (s : String) : Reads (.text s) := by
  refine reads_of_scalar (toList_quote s) (by decide) (by decide) (by decide) fun rest _ => ?_
  rw [readScalar, if_pos rfl, List.append_assoc, List.singleton_append, readText_quote]
  rfl

/-! ## Arrays -/

/-- After an item there is a comma or the end of the array. -/
theorem ends_items (rest : List Value) (tail : List Char) :
    Ends ((Value.compactItems rest).toList ++ tail) := by
  cases rest with
  | nil => exact ends_cons (.inr (.inl rfl))
  | cons v rest =>
    simp only [Value.compactItems, String.toList_append, List.append_assoc]
    exact ends_cons (.inl rfl)

/-- The items of an array read back, from the first one on. -/
theorem readItem_compact {rest : List Value} (hr : ∀ v ∈ rest, Reads v)
    (hs : ∀ v ∈ rest, Begins v.compact.toList) {item : Value} (h : Reads item)
    (tail : List Char) (fuel : Nat)
    (hf : 3 * (item.compact.toList.length + (Value.compactItems rest).toList.length) + 1 ≤ fuel) :
    readItem fuel (item.compact.toList ++ ((Value.compactItems rest).toList ++ tail)) =
      (item :: rest, some tail) := by
  induction rest generalizing item fuel with
  | nil =>
    obtain ⟨fuel, rfl⟩ : ∃ k, fuel = k + 1 := ⟨fuel - 1, by omega⟩
    rw [readItem, h fuel _ (by omega) (ends_items [] tail)]
    rfl
  | cons next rest ih =>
    obtain ⟨fuel, rfl⟩ : ∃ k, fuel = k + 1 := ⟨fuel - 1, by omega⟩
    have length : (Value.compactItems (next :: rest)).toList.length =
        1 + next.compact.toList.length + (Value.compactItems rest).toList.length := by
      simp only [Value.compactItems, String.toList_append, List.length_append]
      rfl
    have later := ih (fun v hv => hr v (List.mem_cons_of_mem _ hv))
      (fun v hv => hs v (List.mem_cons_of_mem _ hv)) (hr next List.mem_cons_self) fuel (by omega)
    have begins := (hs next List.mem_cons_self).append ((Value.compactItems rest).toList ++ tail)
    rw [readItem, h fuel _ (by omega) (ends_items (next :: rest) tail)]
    have text : (Value.compactItems (next :: rest)).toList ++ tail =
        ',' :: (next.compact.toList ++ ((Value.compactItems rest).toList ++ tail)) := by
      simp only [Value.compactItems, String.toList_append, List.append_assoc]
      rfl
    rw [text]
    have comma (cs : List Char) : skipBlanks (',' :: cs) = ',' :: cs := rfl
    simp only [comma, begins.skipBlanks_eq]
    split
    · next hc =>
      obtain ⟨c, cs, hc', -, other⟩ := begins
      rw [hc'] at hc
      exact absurd (List.cons.inj hc).1 other
    · rw [later]

/-- Step: an array is read back, if its items are. -/
theorem reads_array {items : List Value} (hs : ∀ v ∈ items, Begins v.compact.toList)
    (h : ∀ v ∈ items, Reads v) : Reads (.array items) := by
  intro fuel rest hf _
  cases items with
  | nil =>
    obtain ⟨fuel, rfl⟩ : ∃ k, fuel = k + 2 := ⟨fuel - 2, by simp [Value.compact] at hf; omega⟩
    rfl
  | cons item items =>
    simp only [Value.compact, String.toList_append, List.length_append, List.append_assoc] at hf ⊢
    have one : "[".toList.length = 1 := rfl
    obtain ⟨fuel, rfl⟩ : ∃ k, fuel = k + 2 := ⟨fuel - 2, by omega⟩
    have begins := (hs item List.mem_cons_self).append ((Value.compactItems items).toList ++ rest)
    have read := readItem_compact (fun v hv => h v (List.mem_cons_of_mem _ hv))
      (fun v hv => hs v (List.mem_cons_of_mem _ hv)) (h item List.mem_cons_self) rest fuel (by omega)
    have items' : readItems (fuel + 1)
        (item.compact.toList ++ ((Value.compactItems items).toList ++ rest)) =
        (item :: items, some rest) := by
      rw [readItems, begins.skipBlanks_eq]
      obtain ⟨c, cs, hc, -, other⟩ := begins
      rw [hc] at read ⊢
      split
      · next hnil => cases hnil
      · next hclose => exact absurd (List.cons.inj hclose).1 other
      · exact read
    have bracket (cs : List Char) : skipBlanks ("[".toList ++ cs) = '[' :: cs := rfl
    rw [readValue, bracket]
    simp only [items']

/-! ## Objects -/

/-- After a member there is a comma or the end of the object. -/
theorem ends_members (rest : List (Name × Value)) (tail : List Char) :
    Ends ((Value.compactMembers rest).toList ++ tail) := by
  cases rest with
  | nil => exact ends_cons (.inr (.inr rfl))
  | cons m rest =>
    simp only [Value.compactMembers, String.toList_append, List.append_assoc]
    exact ends_cons (.inl rfl)

/-- The members of an object read back, from the first one on. -/
theorem readMember_compact {rest : List (Name × Value)} (hn : ∀ m ∈ rest, ∃ s, m.1 = .ok s)
    (hr : ∀ m ∈ rest, Reads m.2) (name : String) {content : Value} (h : Reads content)
    (tail : List Char) (fuel : Nat)
    (hf : 3 * (content.compact.toList.length + (Value.compactMembers rest).toList.length) + 1 ≤ fuel) :
    readMember fuel '\x22' (name.toList.flatMap escapeChar ++ '\x22' :: ':' ::
        (content.compact.toList ++ ((Value.compactMembers rest).toList ++ tail))) =
      ((.ok name, content) :: rest, some tail) := by
  induction rest generalizing name content fuel with
  | nil =>
    obtain ⟨fuel, rfl⟩ : ∃ k, fuel = k + 1 := ⟨fuel - 1, by omega⟩
    have colon (cs : List Char) : skipBlanks (':' :: cs) = ':' :: cs := rfl
    rw [readMember, readName, if_pos rfl, readText_quote]
    simp only [colon, h fuel _ (by omega) (ends_members [] tail)]
    rfl
  | cons next rest ih =>
    obtain ⟨fuel, rfl⟩ : ∃ k, fuel = k + 1 := ⟨fuel - 1, by omega⟩
    obtain ⟨name', content'⟩ := next
    obtain ⟨s, rfl⟩ : ∃ s, name' = .ok s := hn _ List.mem_cons_self
    have text : (Value.compactMembers ((.ok s, content') :: rest)).toList ++ tail =
        ',' :: '\x22' :: (s.toList.flatMap escapeChar ++ '\x22' :: ':' ::
          (content'.compact.toList ++ ((Value.compactMembers rest).toList ++ tail))) := by
      simp only [Value.compactMembers, compactName, String.toList_append, toList_quote,
        List.append_assoc]
      simp
    have length : 1 + content'.compact.toList.length + (Value.compactMembers rest).toList.length ≤
        (Value.compactMembers ((.ok s, content') :: rest)).toList.length := by
      have := congrArg List.length text
      simp only [List.length_append, List.length_cons] at this
      omega
    have next : Reads content' := hr (.ok s, content') List.mem_cons_self
    have later := ih (fun m hm => hn m (List.mem_cons_of_mem _ hm))
      (fun m hm => hr m (List.mem_cons_of_mem _ hm)) s next fuel (by omega)
    have colon (cs : List Char) : skipBlanks (':' :: cs) = ':' :: cs := rfl
    have comma (cs : List Char) : skipBlanks (',' :: cs) = ',' :: cs := rfl
    have mark (cs : List Char) : skipBlanks ('\x22' :: cs) = '\x22' :: cs := rfl
    have ends := ends_members ((.ok s, content') :: rest) tail
    rw [readMember, readName, if_pos rfl, readText_quote]
    simp only [colon, h fuel _ (by omega) ends]
    rw [text]
    simp only [comma, mark]
    split
    · next hc => cases hc
    · next hc => exact absurd (List.cons.inj hc).1 (by decide)
    · next hc =>
      obtain ⟨rfl, rfl⟩ := List.cons.inj hc
      rw [later]

/-- Step: an object is read back, if its members are. -/
theorem reads_object {members : List (Name × Value)} (hn : ∀ m ∈ members, ∃ s, m.1 = .ok s)
    (h : ∀ m ∈ members, Reads m.2) : Reads (.object members) := by
  intro fuel rest hf _
  cases members with
  | nil =>
    obtain ⟨fuel, rfl⟩ : ∃ k, fuel = k + 2 := ⟨fuel - 2, by simp [Value.compact] at hf; omega⟩
    rfl
  | cons m members =>
    obtain ⟨name, content⟩ := m
    obtain ⟨s, rfl⟩ : ∃ s, name = .ok s := hn _ List.mem_cons_self
    have text : (Value.compact (.object ((.ok s, content) :: members))).toList ++ rest =
        '\x7b' :: '\x22' :: (s.toList.flatMap escapeChar ++ '\x22' :: ':' ::
          (content.compact.toList ++ ((Value.compactMembers members).toList ++ rest))) := by
      simp only [Value.compact, compactName, String.toList_append, toList_quote, List.append_assoc]
      simp
    have length : 1 + content.compact.toList.length + (Value.compactMembers members).toList.length ≤
        (Value.compact (.object ((.ok s, content) :: members))).toList.length := by
      have := congrArg List.length text
      simp only [List.length_append, List.length_cons] at this
      omega
    obtain ⟨fuel, rfl⟩ : ∃ k, fuel = k + 2 := ⟨fuel - 2, by omega⟩
    have first : Reads content := h (.ok s, content) List.mem_cons_self
    have read := readMember_compact (fun m hm => hn m (List.mem_cons_of_mem _ hm))
      (fun m hm => h m (List.mem_cons_of_mem _ hm)) s first rest fuel (by omega)
    have brace (cs : List Char) : skipBlanks ('\x7b' :: cs) = '\x7b' :: cs := rfl
    have mark (cs : List Char) : skipBlanks ('\x22' :: cs) = '\x22' :: cs := rfl
    have members' : readMembers (fuel + 1) ('\x22' :: (s.toList.flatMap escapeChar ++ '\x22' :: ':' ::
        (content.compact.toList ++ ((Value.compactMembers members).toList ++ rest)))) =
        ((.ok s, content) :: members, some rest) := by
      rw [readMembers, mark]
      split
      · next hc => cases hc
      · next hc => exact absurd (List.cons.inj hc).1 (by decide)
      · next hc =>
        obtain ⟨rfl, rfl⟩ := List.cons.inj hc
        exact read
    rw [text, readValue, brace]
    simp only [members']

/-! ## All values -/

/-- **The text of a sound value** reads back as the value. -/
theorem Sound.reads {v : Value} (h : Sound v) : Reads v := by
  induction h with
  | null =>
    exact reads_of_scalar (c := 'n') rfl (by decide) (by decide) (by decide) fun rest _ => rfl
  | @boolean b =>
    cases b with
    | true =>
      exact reads_of_scalar (c := 't') rfl (by decide) (by decide) (by decide) fun rest _ => rfl
    | false =>
      exact reads_of_scalar (c := 'f') rfl (by decide) (by decide) (by decide) fun rest _ => rfl
  | number h => exact reads_number h
  | text => exact reads_text _
  | array h ih => exact reads_array (fun v hv => (h v hv).begins) ih
  | object hn _ ih => exact reads_object hn ih

/-- **A document** that a sound value was written to holds that value and nothing else. -/
theorem Sound.read_compact {v : Value} (h : Sound v) : Document.read v.compact = ⟨v, false⟩ := by
  have read := h.reads (3 * (v.compact.toList.length + 1)) [] (by omega) ends_nil
  rw [List.append_nil] at read
  simp only [Document.read, read]
  rfl

end SqlSelect.Json
