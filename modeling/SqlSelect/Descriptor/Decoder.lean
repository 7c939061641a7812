import SqlSelect.Descriptor.Error
import SqlSelect.Descriptor.Names
import SqlSelect.Json.Value

/-!
# Decoding values

A decoder makes something of a JSON value, or says why it cannot. The parts of
a value are decoded in the order in which they stand in the text, so the first
thing that is wrong with the text is what is reported. A decoder that looks
into arrays and objects is given the `room` that is left: how many of them may
still be open at once.
-/

set_option autoImplicit false

namespace SqlSelect.Descriptor

open SqlSelect.Json (Fault FloatReader Name Number Value)

/-- Makes something of a JSON value. -/
abbrev Decoder (α : Type) := Value → Except DecodeError α

def liftFault {α : Type} : Except Fault α → Except DecodeError α :=
  Except.mapError .unreadable

/-- The name of a member. Where something else than a string stands, the text cannot
be read. -/
def readName : Name → Except DecodeError String
  | .ok s => .ok s
  | .error flaw => .error (.unreadable flaw.asValue)

variable [FloatReader]

/-- The number that a numeral stands for. One that is too large for a float is a fault,
and so is another that a reader which does not round correctly finds too large. -/
def readNumeral (n : Numeral) : Except DecodeError Number :=
  match Number.ofNumeral n with
  | .integer value => .ok (.integer value)
  | .float value =>
    if value.isFinite then .ok (.float value) else .error (.unreadable .numberOutOfRange)

def refuse {α : Type} (expected : String) : Decoder α
  | .null => .error (.wrongKind .null expected)
  | .boolean b => .error (.wrongKind (.boolean b) expected)
  | .number n => do
    match ← readNumeral n with
    | .integer value => .error (.wrongKind (.integer value) expected)
    | .float value => .error (.wrongKind (.float value) expected)
  | .text s => .error (.wrongKind (.text s) expected)
  | .array _ => .error (.wrongKind .array expected)
  | .object _ => .error (.wrongKind .object expected)
  | .flawed flaw => .error (.unreadable flaw.asValue)

/-! ## Scalars -/

/-- The value of a variant that holds nothing. -/
def decodeUnit : Decoder Unit
  | .null => .ok ()
  | v => refuse "unit" v

def decodeBool : Decoder Bool
  | .boolean b => .ok b
  | v => refuse "a boolean" v

def decodeString : Decoder String
  | .text s => .ok s
  | v => refuse "a string" v

/-- An integer between two bounds. -/
def decodeInteger (low high : Int) (expected : String) : Decoder Int
  | .number n => do
    match ← readNumeral n with
    | .integer value =>
      if low ≤ value ∧ value ≤ high then .ok value
      else .error (.wrongValue (.integer value) expected)
    | .float value => .error (.wrongKind (.float value) expected)
  | v => refuse expected v

def decodeInt64 : Decoder Int64 := fun v =>
  Int64.ofInt <$> decodeInteger Int64.minValue.toInt Int64.maxValue.toInt "i64" v

def decodeUInt64 : Decoder UInt64 := fun v =>
  (fun n => UInt64.ofNat n.toNat) <$> decodeInteger 0 (UInt64.size - 1) "u64" v

/-- Takes `null` for an absent value. What begins like `null` is nothing else. -/
def decodeOption {α : Type} (decode : Decoder α) : Decoder (Option α)
  | .null => .ok none
  | .flawed (.null fault) => .error (.unreadable fault)
  | v => some <$> decode v

/-! ## Containers -/

/-- Opens an array or object, if there is room for one. -/
def inside {α : Type} (room : Nat)
    (decode : (m : Nat) → m < room → Except DecodeError α) : Except DecodeError α :=
  match room, decode with
  | 0, _ => .error (.unreadable .tooDeep)
  | m + 1, decode => decode m (Nat.lt_succ_self m)

def decodeList {α : Type} (room : Nat) (item : (m : Nat) → m < room → Decoder α) :
    Decoder (List α)
  | .array items => inside room fun m h => items.mapM (item m h)
  | v => refuse "a sequence" v

/-- The end of an array of which all that is expected has been found. -/
def endOfItems : List Value → Except DecodeError Unit
  | [] => .ok ()
  | .flawed (.here .endInArray) :: _ => .error (.unreadable .endInArray)
  | .flawed (.comma fault _) :: _ => .error (.unreadable fault)
  | _ :: _ => .error (.unreadable .trailingCharacters)

def decodePair {α β : Type} (room : Nat) (first : (m : Nat) → m < room → Decoder α)
    (second : (m : Nat) → m < room → Decoder β) : Decoder (α × β)
  | .array items => inside room fun m h =>
    match items with
    | [] => .error (.wrongLength 0 "a tuple of size 2")
    | a :: rest => do
      let x ← first m h a
      match rest with
      | [] => .error (.wrongLength 1 "a tuple of size 2")
      | b :: rest => do
        let y ← second m h b
        endOfItems rest
        return (x, y)
  | v => refuse "a tuple of size 2" v

/-! ## Variants -/

/-- The variant of the given name. -/
def findVariant (ι : Type) [Named ι] (name : String) : Except DecodeError ι :=
  match Named.findIn? Named.all name with
  | some i => .ok i
  | none => .error (.unknownVariant name (Named.names ι))

/-- The end of an object of which one member has been read. -/
def endOfVariant : List (Name × Value) → Except DecodeError Unit
  | [] => .ok ()
  | (.error (.here .endInObject), _) :: _ => .error (.unreadable .endInObject)
  | _ :: _ => .error (.unreadable .expectedValue)

/-- A variant: its name alone, or an object with its name and its content. -/
def decodeVariant {α : Type} (ι : Type) [Named ι] (room : Nat)
    (bare : ι → Except DecodeError α) (holding : (m : Nat) → m < room → ι → Decoder α) :
    Decoder α
  | .text s => do bare (← findVariant ι s)
  | .object members => inside room fun m h =>
    match members with
    | [] => .error (.unreadable .expectedValue)
    | (name, content) :: rest => do
      let i ← findVariant ι (← readName name)
      let x ← holding m h i content
      endOfVariant rest
      return x
  | .flawed flaw => .error (.unreadable flaw.asVariant)
  | _ => .error (.unreadable .expectedValue)

/-- A variant that holds nothing. -/
def decodeName {ι : Type} [Named ι] (room : Nat) : Decoder ι :=
  decodeVariant ι room .ok fun _ _ i content => do decodeUnit content; return i

end SqlSelect.Descriptor
