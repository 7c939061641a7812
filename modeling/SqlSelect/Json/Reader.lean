import SqlSelect.Json.Value

/-!
# Reading JSON texts

`Document.read` takes a text apart into a `Value`. It goes on as far as any
reader could, and leaves a flaw where it stops. A function here gives what it
has read and the rest of the text, `none` if nothing after it can be read.
-/

set_option autoImplicit false

namespace SqlSelect.Json

/-- Blank, tab, line feed and carriage return may stand between tokens. -/
def isBlank (c : Char) : Bool :=
  c = ' ' || c = '\t' || c = '\n' || c = '\r'

/-- The text from its first character that is not blank. -/
def skipBlanks (cs : List Char) : List Char :=
  cs.dropWhile isBlank

/-- Something and the rest of the text, or a flaw after which nothing is read. -/
abbrev Reading (α : Type) := α × Option (List Char)

/-- Nothing can be read here, nor after it. -/
def stop (flaw : Flaw) : Reading Value := (.flawed flaw, none)

/-! ## Words and numbers -/

/-- The rest after the letters of a word. -/
def afterWord : List Char → List Char → Except Fault (List Char)
  | [], cs => .ok cs
  | _ :: _, [] => .error .endInValue
  | w :: ws, c :: cs => if c = w then afterWord ws cs else .error .expectedWord

/-- The word `null` after its first letter. -/
def readNull (cs : List Char) : Reading Value :=
  match afterWord ['u', 'l', 'l'] cs with
  | .ok rest => (.null, some rest)
  | .error fault => stop (.null fault)

/-- The word for a boolean, given its letters after the first one. -/
def readBoolean (b : Bool) (letters cs : List Char) : Reading Value :=
  match afterWord letters cs with
  | .ok rest => (.boolean b, some rest)
  | .error fault => stop (.boolean fault)

/-- A number lacks a digit at this place. -/
def digitMissing (cs : List Char) : Reading Value :=
  stop (.number cs.isEmpty)

def readExponent (n : Numeral) (cs : List Char) : Reading Value :=
  let (negative, cs) : Bool × List Char := match cs with
    | '-' :: rest => (true, rest)
    | '+' :: rest => (false, rest)
    | _ => (false, cs)
  let (digits, rest) := cs.span Char.isDigit
  if digits.isEmpty then digitMissing rest
  else
    let size : Int := Nat.ofDigitChars 10 digits 0
    (.number { n with exponent := some (if negative then -size else size) }, some rest)

/-- What may follow the fraction of a number, or its whole part. -/
def readScale (n : Numeral) (cs : List Char) : Reading Value :=
  match cs with
  | 'e' :: rest => readExponent n rest
  | 'E' :: rest => readExponent n rest
  | _ => (.number n, some cs)

/-- What may follow the whole part of a number. -/
def readFraction (n : Numeral) (cs : List Char) : Reading Value :=
  match cs with
  | '.' :: rest =>
    let (digits, rest) := rest.span Char.isDigit
    if digits.isEmpty then digitMissing rest else readScale { n with fraction := digits } rest
  | _ => readScale n cs

/-- A number after its sign. A zero in front stands alone. -/
def readUnsigned (negative : Bool) (cs : List Char) : Reading Value :=
  let (digits, rest) := cs.span Char.isDigit
  match digits with
  | [] => digitMissing rest
  | '0' :: _ :: _ => stop (.number false)
  | _ => readFraction { negative, whole := digits } rest

def readNumber (cs : List Char) : Reading Value :=
  match cs with
  | '-' :: rest => readUnsigned true rest
  | _ => readUnsigned false cs

/-! ## Strings -/

def hexDigit? (c : Char) : Option Nat :=
  if '0' ≤ c ∧ c ≤ '9' then some (c.toNat - '0'.toNat)
  else if 'a' ≤ c ∧ c ≤ 'f' then some (c.toNat - 'a'.toNat + 10)
  else if 'A' ≤ c ∧ c ≤ 'F' then some (c.toNat - 'A'.toNat + 10)
  else none

/-- The code unit that four hexadecimal digits stand for. -/
def codeUnit? (a b c d : Char) : Option Nat :=
  [a, b, c, d].foldlM (fun n digit => (hexDigit? digit).map (16 * n + ·)) 0

/-- The character that a single letter stands for after a backslash. -/
def escaped? (c : Char) : Option Char :=
  if c = '\x22' then some '\x22'
  else if c = '\x5c' then some '\x5c'
  else if c = '/' then some '/'
  else if c = 'b' then some '\x08'
  else if c = 'f' then some '\x0c'
  else if c = 'n' then some '\n'
  else if c = 'r' then some '\r'
  else if c = 't' then some '\t'
  else none

/-- What is known of a string in the course of reading it: its characters, last
first; the first half of a surrogate pair that still waits for the second; and
the first fault that a reader of the string meets, though not one who skips it. -/
structure TextState where
  characters : List Char := []
  half : Option Nat := none
  fault : Option Fault := none

namespace TextState

/-- A half that is not followed by the other one is a fault. -/
def settle (s : TextState) (fault : Fault) : TextState :=
  { s with half := none, fault := s.fault.or (s.half.map fun _ => fault) }

/-- A character that stands for itself or is escaped by a letter. -/
def push (s : TextState) (c : Char) : TextState :=
  let s := s.settle .unfinishedSurrogate
  { s with characters := c :: s.characters }

/-- A code unit that is given by its digits. -/
def pushUnit (s : TextState) (unit : Nat) : TextState :=
  if 0xdc00 ≤ unit ∧ unit ≤ 0xdfff then
    match s.half with
    | some high =>
      let c := Char.ofNat ((high - 0xd800) * 0x400 + (unit - 0xdc00) + 0x10000)
      { s with characters := c :: s.characters, half := none }
    | none => { s with fault := s.fault.or (some .unpairedSurrogate) }
  else
    let s := s.settle .unpairedSurrogate
    if 0xd800 ≤ unit ∧ unit ≤ 0xdbff then { s with half := some unit }
    else { s with characters := Char.ofNat unit :: s.characters }

/-- The string breaks off. -/
def stop (s : TextState) (fault : Fault) : Reading Name :=
  (.error (.text (s.fault.getD fault) (some fault)), none)

/-- The string is complete. -/
def close (s : TextState) (rest : List Char) : Reading Name :=
  match (s.settle .unfinishedSurrogate).fault with
  | some fault => (.error (.text fault none), some rest)
  | none => (.ok (String.ofList s.characters.reverse), some rest)

end TextState

/-- Four digits are too few if the text ends within as many bytes. -/
def digitsFault (cs : List Char) : Fault :=
  if (String.ofList cs).utf8ByteSize < 4 then .endInText else .invalidEscape

/-- The characters of a string after its opening quote. -/
def readText (s : TextState) : List Char → Reading Name
  | [] => s.stop .endInText
  | '\x22' :: rest => s.close rest
  | '\x5c' :: [] => s.stop .endInText
  | '\x5c' :: 'u' :: a :: b :: c :: d :: rest =>
    match codeUnit? a b c d with
    | some unit => readText (s.pushUnit unit) rest
    | none => s.stop .invalidEscape
  | '\x5c' :: 'u' :: rest => s.stop (digitsFault rest)
  | '\x5c' :: c :: rest =>
    match escaped? c with
    | some e => readText (s.push e) rest
    | none => (s.settle .unfinishedSurrogate).stop .invalidEscape
  | c :: rest =>
    if c.toNat < 0x20 then (s.settle .unfinishedSurrogate).stop .controlCharacter
    else readText (s.push c) rest

/-! ## Values -/

/-- A value that is neither an array nor an object. -/
def readScalar (c : Char) (rest : List Char) : Reading Value :=
  if c = '\x22' then
    let (text, rest) := readText {} rest
    (.ofName text, rest)
  else if c = 'n' then readNull rest
  else if c = 't' then readBoolean true ['r', 'u', 'e'] rest
  else if c = 'f' then readBoolean false ['a', 'l', 's', 'e'] rest
  else if c = '-' || c.isDigit then readNumber (c :: rest)
  else stop .stray

/-- What stands where a member's name is due: a string, or nothing that is read. -/
def readName (c : Char) (rest : List Char) : Reading Name :=
  if c = '\x22' then readText {} rest else (.error (.here .nameNotText), none)

mutual

/-- A value. Each step down or along takes one unit of `fuel`. -/
def readValue : (fuel : Nat) → List Char → Reading Value
  | 0, _ => stop (.here .endInValue)
  | fuel + 1, cs =>
    match skipBlanks cs with
    | [] => stop (.here .endInValue)
    | '[' :: rest =>
      let (items, rest) := readItems fuel rest
      (.array items, rest)
    | '\x7b' :: rest =>
      let (members, rest) := readMembers fuel rest
      (.object members, rest)
    | c :: rest => readScalar c rest

/-- The items of an array after its opening bracket. -/
def readItems : (fuel : Nat) → List Char → Reading (List Value)
  | 0, _ => ([.flawed (.here .endInArray)], none)
  | fuel + 1, cs =>
    match skipBlanks cs with
    | [] => ([.flawed (.here .endInArray)], none)
    | ']' :: rest => ([], some rest)
    | cs => readItem fuel cs

/-- An item of an array and those after it. -/
def readItem : (fuel : Nat) → List Char → Reading (List Value)
  | 0, _ => ([.flawed (.here .endInArray)], none)
  | fuel + 1, cs =>
    match readValue fuel cs with
    | (item, none) => ([item], none)
    | (item, some rest) =>
      match skipBlanks rest with
      | [] => ([item, .flawed (.here .endInArray)], none)
      | ']' :: rest => ([item], some rest)
      | ',' :: rest =>
        match skipBlanks rest with
        | ']' :: _ => ([item, .flawed (.comma .trailingComma .expectedValue)], none)
        | rest =>
          let (items, rest) := readItem fuel rest
          (item :: items, rest)
      | _ => ([item, .flawed (.here .expectedArrayEnd)], none)

/-- The members of an object after its opening brace. -/
def readMembers : (fuel : Nat) → List Char → Reading (List (Name × Value))
  | 0, _ => ([(.error (.here .endInObject), .null)], none)
  | fuel + 1, cs =>
    match skipBlanks cs with
    | [] => ([(.error (.here .endInObject), .null)], none)
    | '\x7d' :: rest => ([], some rest)
    | c :: rest => readMember fuel c rest

/-- A member of an object and those after it. -/
def readMember : (fuel : Nat) → Char → List Char → Reading (List (Name × Value))
  | 0, _, _ => ([(.error (.here .endInObject), .null)], none)
  | fuel + 1, c, rest =>
    match readName c rest with
    | (name, none) => ([(name, .null)], none)
    | (name, some rest) =>
      match skipBlanks rest with
      | [] => ([(name, .flawed (.here .endInObject))], none)
      | ':' :: rest =>
        match readValue fuel rest with
        | (content, none) => ([(name, content)], none)
        | (content, some rest) =>
          match skipBlanks rest with
          | [] => ([(name, content), (.error (.here .endInObject), .null)], none)
          | '\x7d' :: rest => ([(name, content)], some rest)
          | ',' :: rest =>
            match skipBlanks rest with
            | [] => ([(name, content), (.error (.comma .endInValue .endInObject), .null)], none)
            | '\x7d' :: _ =>
              ([(name, content), (.error (.comma .trailingComma .nameNotText), .null)], none)
            | c :: rest =>
              let (members, rest) := readMember fuel c rest
              ((name, content) :: members, rest)
          | _ => ([(name, content), (.error (.here .expectedObjectEnd), .null)], none)
      | _ => ([(name, .flawed (.here .expectedColon))], none)

end

/-- A text as a whole: its value, and whether anything but blanks follows. -/
structure Document where
  value : Value
  trailing : Bool

/-- Takes a text apart. Three steps use up a character at least. -/
def Document.read (text : String) : Document :=
  let cs := text.toList
  let (value, rest) := readValue (3 * (cs.length + 1)) cs
  { value, trailing := !(skipBlanks (rest.getD [])).isEmpty }

end SqlSelect.Json
