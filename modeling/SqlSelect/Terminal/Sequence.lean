/-!
# Control sequences of a terminal

A terminal takes an escape character and what follows it for a command, and
shows neither. `Terminal.plain` keeps of a text what is not part of such a
sequence and not a control character, the blanks apart. Some sequences are
broken into by a blank: text is shown from there to the next control character,
and then the sequence goes on. `isPlain_of_mem_plain` says that no other control
character is left.
-/

set_option autoImplicit false

namespace SqlSelect.Terminal

/-- A sequence, by what has been read of it. -/
inductive Sequence where
  /-- The escape character. -/
  | escape
  /-- The escape character and intermediate characters. -/
  | intermediate
  /-- The start of a control sequence, which ends with a character from `@` to `~`. -/
  | control
  /-- The start of a command to the system, which ends with a bell. -/
  | command
  /-- The start of a string for a device. -/
  | device
  /-- The start of such a string, up to its parameters. -/
  | deviceParameters
  /-- The start of such a string, up to intermediate characters. -/
  | deviceIntermediate
  /-- The inside of a string, which ends with the byte 9C. -/
  | body

/-- Where a terminal stands in a text. -/
inductive Position where
  | text
  | within (s : Sequence)
  /-- A blank has broken into the sequence. -/
  | interrupted (s : Sequence)

/-- A control character that moves to another column or line. -/
def isBlankControl (c : Char) : Bool :=
  c = '\t' || c = '\n' || c = '\x0c' || c = '\r'

/-- The character is no control, or moves to another column or line. -/
def isPlain (c : Char) : Bool :=
  ' ' ≤ c && c ≠ '\x7f' || isBlankControl c

/-- The bytes of the character include 9C. -/
def holdsTerminator (c : Char) : Bool :=
  (String.utf8EncodeChar c).contains 0x9c

namespace Sequence

/-- A blank breaks into the sequence. -/
def admitsBlanks : Sequence → Bool
  | .escape => true
  | .intermediate => true
  | .control => true
  | _ => false

/-- Where the terminal stands after a character that does not start a sequence
and does not give this one up. -/
def next (s : Sequence) (c : Char) : Position :=
  match s with
  | .escape =>
    if c = '[' then .within .control
    else if c = ']' then .within .command
    else if c = 'P' then .within .device
    else if c = 'X' ∨ c = '^' ∨ c = '_' then .within .body
    else if ' ' ≤ c ∧ c ≤ '/' then .within .intermediate
    else if '0' ≤ c ∧ c ≤ '~' then .text
    else .within s
  | .intermediate => if '0' ≤ c ∧ c ≤ '~' then .text else .within s
  | .control => if '@' ≤ c ∧ c ≤ '~' then .text else .within s
  | .command => if c = '\x07' then .text else .within s
  | .device =>
    if ' ' ≤ c ∧ c ≤ '/' then .within .deviceIntermediate
    else if '0' ≤ c ∧ c ≤ '?' then .within .deviceParameters
    else if '@' ≤ c ∧ c ≤ '~' then .within .body
    else .within s
  | .deviceParameters =>
    if ' ' ≤ c ∧ c ≤ '/' then .within .deviceIntermediate
    else if '<' ≤ c ∧ c ≤ '~' then .within .body
    else .within s
  | .deviceIntermediate => if '0' ≤ c ∧ c ≤ '~' then .within .body else .within s
  | .body => if holdsTerminator c then .text else .within s

end Sequence

/-- Where the terminal stands after a character, and whether that is shown. The
escape character starts a sequence anywhere, and two other controls give one up. -/
def Position.step (p : Position) (c : Char) : Position × Bool :=
  if c = '\x1b' then (.within .escape, false)
  else if c = '\x18' ∨ c = '\x1a' then (.text, false)
  else
    match p with
    | .text => (.text, isPlain c)
    | .within s =>
      if s.admitsBlanks && isBlankControl c then (.interrupted s, true) else (s.next c, false)
    | .interrupted s =>
      if isPlain c then (if c ≤ '\x7f' then .interrupted s else .text, true)
      else (s.next c, false)

/-- What is shown of a text, from a position on. -/
def plainFrom (p : Position) : List Char → List Char
  | [] => []
  | c :: cs =>
    match p.step c with
    | (q, true) => c :: plainFrom q cs
    | (q, false) => plainFrom q cs

/-- The text without control sequences and control characters, the blanks apart. -/
def plain (s : String) : String :=
  String.ofList (plainFrom .text s.toList)

theorem Position.isPlain_of_step {p q : Position} {c : Char} (h : p.step c = (q, true)) :
    isPlain c = true := by
  unfold step at h
  split at h
  · simp at h
  · split at h
    · simp at h
    · split at h
      · simpa using congrArg Prod.snd h
      · split at h
        · next hb => simp_all [isPlain]
        · simp at h
      · split at h
        · assumption
        · simp at h

theorem isPlain_of_mem_plainFrom {p : Position} {cs : List Char} {c : Char}
    (h : c ∈ plainFrom p cs) : isPlain c = true := by
  induction cs generalizing p with
  | nil => simp [plainFrom] at h
  | cons d ds ih =>
    rw [plainFrom] at h
    split at h
    · next q hq =>
      rcases List.mem_cons.1 h with rfl | h
      · exact Position.isPlain_of_step hq
      · exact ih h
    · exact ih h

/-- **No control character is left** other than a blank. -/
theorem isPlain_of_mem_plain {s : String} {c : Char} (h : c ∈ (plain s).toList) :
    isPlain c = true := by
  rw [plain, String.toList_ofList] at h
  exact isPlain_of_mem_plainFrom h

end SqlSelect.Terminal
