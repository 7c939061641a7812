import SqlSelect.Proofs.Json.ReadBack

/-!
# How deep values and texts are nested

`Value.nesting` counts the arrays and objects around the innermost part of a
value. `opened` counts in a text: how many brackets and braces are open at once,
those in strings left out. Both agree on what is written (`Sound.opened_compact`).
-/

set_option autoImplicit false

namespace SqlSelect.Json

/-! ## Values -/

namespace Value

mutual

/-- How many arrays and objects are open at once in the value. -/
def nesting : Value → Nat
  | .array items => nestingItems items + 1
  | .object members => nestingMembers members + 1
  | _ => 0

def nestingItems : List Value → Nat
  | [] => 0
  | item :: rest => max item.nesting (nestingItems rest)

def nestingMembers : List (Name × Value) → Nat
  | [] => 0
  | (_, content) :: rest => max content.nesting (nestingMembers rest)

end

end Value

/-! ## Texts -/

/-- How many brackets and braces are open at once from here on, given whether
this place is inside a string and how many are open before it. -/
def openedFrom : (quoted : Bool) → Nat → List Char → Nat
  | _, depth, [] => depth
  | true, depth, '\x5c' :: _ :: cs => openedFrom true depth cs
  | true, depth, c :: cs => openedFrom (c ≠ '\x22') depth cs
  | false, depth, c :: cs =>
    if c = '\x22' then openedFrom true depth cs
    else if c = '[' ∨ c = '\x7b' then openedFrom false (depth + 1) cs
    else if c = ']' ∨ c = '\x7d' then max depth (openedFrom false (depth - 1) cs)
    else openedFrom false depth cs

/-- How many brackets and braces are open at once in a text. -/
def opened (text : String) : Nat := openedFrom false 0 text.toList

theorem le_openedFrom (quoted : Bool) (depth : Nat) (cs : List Char) :
    depth ≤ openedFrom quoted depth cs := by
  fun_induction openedFrom quoted depth cs <;> omega

theorem openedFrom_plain {c : Char} (hq : c ≠ '\x22') (ho : ¬ (c = '[' ∨ c = '\x7b'))
    (hc : ¬ (c = ']' ∨ c = '\x7d')) (depth : Nat) (cs : List Char) :
    openedFrom false depth (c :: cs) = openedFrom false depth cs := by
  rw [openedFrom, if_neg hq, if_neg ho, if_neg hc]

/-- A character that opens nothing, closes nothing and begins no string. -/
def isPlain (c : Char) : Bool :=
  c ≠ '\x22' && c ≠ '[' && c ≠ '\x7b' && c ≠ ']' && c ≠ '\x7d'

/-- Characters that open and close nothing leave the count as it is. -/
theorem openedFrom_append {cs : List Char} (h : ∀ c ∈ cs, isPlain c = true) (depth : Nat)
    (rest : List Char) : openedFrom false depth (cs ++ rest) = openedFrom false depth rest := by
  induction cs with
  | nil => rfl
  | cons c cs ih =>
    have hc := h c List.mem_cons_self
    simp only [isPlain, ne_eq, decide_not, Bool.and_eq_true, Bool.not_eq_true',
      decide_eq_false_iff_not] at hc
    obtain ⟨⟨⟨⟨hq, ha⟩, ho⟩, ha'⟩, ho'⟩ := hc
    rw [List.cons_append, openedFrom_plain hq (by simp [ha, ho]) (by simp [ha', ho'])]
    exact ih fun c hc => h c (List.mem_cons_of_mem _ hc)

/-! ## Scalars -/

theorem isPlain_of_isDigit {c : Char} (h : c.isDigit = true) : isPlain c = true := by
  by_contra hp
  simp only [isPlain, ne_eq, decide_not, Bool.and_eq_true, Bool.not_eq_true',
    decide_eq_false_iff_not] at hp
  by_cases hq : c = '\x22'
  · exact absurd h (by rw [hq]; decide)
  by_cases ha : c = '['
  · exact absurd h (by rw [ha]; decide)
  by_cases ho : c = '\x7b'
  · exact absurd h (by rw [ho]; decide)
  by_cases ha' : c = ']'
  · exact absurd h (by rw [ha']; decide)
  by_cases ho' : c = '\x7d'
  · exact absurd h (by rw [ho']; decide)
  · exact hp ⟨⟨⟨⟨hq, ha⟩, ho⟩, ha'⟩, ho'⟩

/-- A number opens and closes nothing. -/
theorem isPlain_number {n : Numeral} (h : n.Readable) : ∀ c ∈ n.text.toList, isPlain c = true := by
  intro c hc
  rw [toList_text_eq, List.mem_append, List.mem_append, List.mem_append] at hc
  rcases hc with hc | hc | hc | hc
  · cases hn : n.negative <;> simp_all
    decide
  · exact isPlain_of_isDigit (h.whole c hc)
  · unfold fractionChars at hc
    split at hc
    · simp at hc
    · rcases List.mem_cons.1 hc with rfl | hc
      · decide
      · exact isPlain_of_isDigit (h.fraction c hc)
  · unfold exponentChars at hc
    cases he : n.exponent with
    | none => simp [he] at hc
    | some e =>
      rw [he, Option.map_some, Option.getD_some, toList_exponentText] at hc
      rcases List.mem_cons.1 hc with rfl | hc
      · decide
      rcases List.mem_cons.1 hc with rfl | hc
      · split <;> decide
      · exact isPlain_of_isDigit (isDigit_toDigits c hc)

theorem openedFrom_quoted {c : Char} (hq : c ≠ '\x22') (hb : c ≠ '\x5c') (depth : Nat)
    (cs : List Char) : openedFrom true depth (c :: cs) = openedFrom true depth cs := by
  rw [openedFrom.eq_def]
  split
  all_goals simp_all

theorem hexDigit_plain : ∀ n < 32, hexDigit (n / 16) ≠ '\x22' ∧ hexDigit (n / 16) ≠ '\x5c' ∧
    hexDigit (n % 16) ≠ '\x22' ∧ hexDigit (n % 16) ≠ '\x5c' := by
  decide

/-- Inside a string, an escaped character does not end it. -/
theorem openedFrom_escapeChar (c : Char) (depth : Nat) (rest : List Char) :
    openedFrom true depth (escapeChar c ++ rest) = openedFrom true depth rest := by
  unfold escapeChar
  iterate 7 (split; · rfl)
  split
  · next h =>
    obtain ⟨hq₁, hb₁, hq₂, hb₂⟩ := hexDigit_plain c.toNat h
    have escape : openedFrom true depth (['\x5c', 'u', '0', '0', hexDigit (c.toNat / 16),
        hexDigit (c.toNat % 16)] ++ rest) =
        openedFrom true depth (hexDigit (c.toNat / 16) :: hexDigit (c.toNat % 16) :: rest) := rfl
    rw [escape, openedFrom_quoted hq₁ hb₁, openedFrom_quoted hq₂ hb₂]
  · next hq hb _ _ _ _ _ _ => exact openedFrom_quoted hq hb depth rest

theorem openedFrom_escape (s : List Char) (depth : Nat) (rest : List Char) :
    openedFrom true depth (s.flatMap escapeChar ++ '\x22' :: rest) = openedFrom false depth rest := by
  induction s with
  | nil => rfl
  | cons c s ih => rw [List.flatMap_cons, List.append_assoc, openedFrom_escapeChar, ih]

/-- Brackets and braces inside a string do not count. -/
theorem openedFrom_quote (s : String) (depth : Nat) (rest : List Char) :
    openedFrom false depth ((quote s).toList ++ rest) = openedFrom false depth rest := by
  have mark (cs : List Char) : openedFrom false depth ('\x22' :: cs) = openedFrom true depth cs := rfl
  rw [toList_quote, List.cons_append, mark, List.append_assoc, List.singleton_append,
    openedFrom_escape]

/-! ## Containers -/

/-- The text of the value opens as many as the value is nested. -/
def Opens (v : Value) : Prop :=
  ∀ depth rest, openedFrom false depth (v.compact.toList ++ rest) =
    max (depth + v.nesting) (openedFrom false depth rest)

/-- A value that is neither an array nor an object opens nothing. -/
theorem opens_of_plain {v : Value} (hv : v.nesting = 0)
    (h : ∀ depth rest, openedFrom false depth (v.compact.toList ++ rest) = openedFrom false depth rest) :
    Opens v := by
  intro depth rest
  have := le_openedFrom false depth rest
  rw [h, hv]
  omega

/-- The items of an array are counted on top of its bracket. -/
theorem openedFrom_items {items : List Value} (h : ∀ v ∈ items, Opens v) (depth : Nat)
    (rest : List Char) :
    openedFrom false (depth + 1) ((Value.compactItems items).toList ++ rest) =
      max (depth + 1 + Value.nestingItems items) (openedFrom false depth rest) := by
  induction items with
  | nil =>
    have close : openedFrom false (depth + 1) ("]".toList ++ rest) =
        max (depth + 1) (openedFrom false depth rest) := rfl
    rw [Value.compactItems, close, Value.nestingItems, Nat.add_zero]
  | cons v items ih =>
    have comma (cs : List Char) : openedFrom false (depth + 1) (",".toList ++ cs) =
        openedFrom false (depth + 1) cs := rfl
    rw [Value.compactItems, Value.nestingItems]
    simp only [String.toList_append, List.append_assoc]
    rw [comma, h v List.mem_cons_self, ih fun w hw => h w (List.mem_cons_of_mem _ hw)]
    omega

/-- Step: an array opens as many as it is nested, if its items do. -/
theorem opens_array {items : List Value} (h : ∀ v ∈ items, Opens v) : Opens (.array items) := by
  intro depth rest
  have bracket (cs : List Char) : openedFrom false depth ("[".toList ++ cs) =
      openedFrom false (depth + 1) cs := rfl
  cases items with
  | nil =>
    have both : openedFrom false depth ("[]".toList ++ rest) =
        max (depth + 1) (openedFrom false depth rest) := rfl
    rw [Value.compact, both, Value.nesting, Value.nestingItems]
  | cons v items =>
    have later := openedFrom_items (fun w hw => h w (List.mem_cons_of_mem _ hw)) depth rest
    rw [Value.compact, Value.nesting, Value.nestingItems]
    simp only [String.toList_append, List.append_assoc]
    rw [bracket, h v List.mem_cons_self, later]
    omega

/-- The members of an object are counted on top of its brace. -/
theorem openedFrom_members {members : List (Name × Value)} (hn : ∀ m ∈ members, ∃ s, m.1 = .ok s)
    (h : ∀ m ∈ members, Opens m.2) (depth : Nat) (rest : List Char) :
    openedFrom false (depth + 1) ((Value.compactMembers members).toList ++ rest) =
      max (depth + 1 + Value.nestingMembers members) (openedFrom false depth rest) := by
  induction members with
  | nil =>
    have close : openedFrom false (depth + 1) ("\x7d".toList ++ rest) =
        max (depth + 1) (openedFrom false depth rest) := rfl
    rw [Value.compactMembers, close, Value.nestingMembers, Nat.add_zero]
  | cons m members ih =>
    obtain ⟨name, content⟩ := m
    obtain ⟨s, rfl⟩ : ∃ s, name = .ok s := hn _ List.mem_cons_self
    have comma (cs : List Char) : openedFrom false (depth + 1) (",".toList ++ cs) =
        openedFrom false (depth + 1) cs := rfl
    have colon (cs : List Char) : openedFrom false (depth + 1) (":".toList ++ cs) =
        openedFrom false (depth + 1) cs := rfl
    have first : Opens content := h (.ok s, content) List.mem_cons_self
    have later := ih (fun m hm => hn m (List.mem_cons_of_mem _ hm))
      fun m hm => h m (List.mem_cons_of_mem _ hm)
    rw [Value.compactMembers, Value.nestingMembers]
    simp only [String.toList_append, List.append_assoc, compactName]
    rw [comma, openedFrom_quote, colon, first, later]
    omega

/-- Step: an object opens as many as it is nested, if its members do. -/
theorem opens_object {members : List (Name × Value)} (hn : ∀ m ∈ members, ∃ s, m.1 = .ok s)
    (h : ∀ m ∈ members, Opens m.2) : Opens (.object members) := by
  intro depth rest
  have brace (cs : List Char) : openedFrom false depth ("\x7b".toList ++ cs) =
      openedFrom false (depth + 1) cs := rfl
  cases members with
  | nil =>
    have both : openedFrom false depth ("\x7b\x7d".toList ++ rest) =
        max (depth + 1) (openedFrom false depth rest) := rfl
    rw [Value.compact, both, Value.nesting, Value.nestingMembers]
  | cons m members =>
    obtain ⟨name, content⟩ := m
    obtain ⟨s, rfl⟩ : ∃ s, name = .ok s := hn _ List.mem_cons_self
    have colon (cs : List Char) : openedFrom false (depth + 1) (":".toList ++ cs) =
        openedFrom false (depth + 1) cs := rfl
    have first : Opens content := h (.ok s, content) List.mem_cons_self
    have later := openedFrom_members (fun m hm => hn m (List.mem_cons_of_mem _ hm))
      (fun m hm => h m (List.mem_cons_of_mem _ hm)) depth rest
    rw [Value.compact, Value.nesting, Value.nestingMembers]
    simp only [String.toList_append, List.append_assoc, compactName]
    rw [brace, openedFrom_quote, colon, first, later]
    omega

/-- **The text of a sound value** opens as many containers at once as it is nested. -/
theorem Sound.opens {v : Value} (h : Sound v) : Opens v := by
  induction h with
  | null => exact opens_of_plain rfl fun _ _ => rfl
  | @boolean b => cases b <;> exact opens_of_plain rfl fun _ _ => rfl
  | number h => exact opens_of_plain rfl (openedFrom_append (isPlain_number h.toReadable))
  | text => exact opens_of_plain rfl (openedFrom_quote _)
  | array _ ih => exact opens_array ih
  | object hn _ ih => exact opens_object hn ih

/-- **The text of a sound value** opens as many brackets and braces at once as
the value is nested. -/
theorem Sound.opened_compact {v : Value} (h : Sound v) : opened v.compact = v.nesting := by
  have opens := h.opens 0 []
  rw [List.append_nil] at opens
  rw [opened, opens, openedFrom]
  omega

end SqlSelect.Json
