import SqlSelect.Descriptor.Decoder

/-!
# Decoding records

A record is an object whose members may stand in any order, or an array of
their values in the order of the record. `Record.decode` gives a `Draft`: what
each member decoded to, for those that were there. What a missing member means
is for the owner of the draft to say.
-/

set_option autoImplicit false

namespace SqlSelect.Descriptor

open SqlSelect.Json (FloatReader Name Value)

/-- What is known of each member of a record. -/
abbrev Draft {ι : Type} (τ : ι → Type) := (i : ι) → Option (τ i)

namespace Draft

variable {ι : Type} {τ : ι → Type}

def empty : Draft τ := fun _ => none

def set [DecidableEq ι] (d : Draft τ) (i : ι) (x : τ i) : Draft τ :=
  fun j => if h : i = j then some (h ▸ x) else d j

@[simp] theorem set_self [DecidableEq ι] (d : Draft τ) (i : ι) (x : τ i) :
    d.set i x i = some x := by
  simp [set]

@[simp] theorem set_of_ne [DecidableEq ι] (d : Draft τ) {i j : ι} (x : τ i) (h : i ≠ j) :
    d.set i x j = d j := by
  simp [set, h]

/-- A member that has to be there. -/
def need [Named ι] (d : Draft τ) (i : ι) : Except DecodeError (τ i) :=
  match d i with
  | some x => .ok x
  | none => .error (.missingMember (Named.name i))

end Draft

/-- The shape of a record: its members in order, whether it refuses others, and
which of them an array may lack at its end. -/
structure Record (ι : Type) where
  /-- What messages call the record. -/
  title : String
  members : List ι
  /-- What messages call the record as an array. -/
  arrayTitle : String := title
  strict : Bool := false
  mayLack : ι → Bool := fun _ => false

namespace Record

variable [FloatReader] {ι : Type} [Named ι] [DecidableEq ι] {τ : ι → Type}

/-- The members of an object, in the order of the text. -/
def decodeMembers (r : Record ι) (decode : (i : ι) → Decoder (τ i)) :
    List (Name × Value) → Draft τ → Except DecodeError (Draft τ)
  | [], d => .ok d
  | (name, content) :: rest, d => do
    let s ← readName name
    match Named.findIn? r.members s with
    | some i =>
      if (d i).isSome then .error (.repeatedMember s)
      else
        let x ← decode i content
        decodeMembers r decode rest (d.set i x)
    | none =>
      if r.strict then .error (.unknownMember s (r.members.map Named.name))
      else
        liftFault content.skip
        decodeMembers r decode rest d

/-- The items of an array, each for the member whose turn it is. -/
def decodeItems (r : Record ι) (decode : (i : ι) → Decoder (τ i)) :
    List ι → List Value → Draft τ → Except DecodeError (Draft τ)
  | [], items, d => do endOfItems items; return d
  | i :: rest, [], d =>
    if r.mayLack i then decodeItems r decode rest [] d
    else .error (.wrongLength (r.members.length - (rest.length + 1)) r.arrayTitle)
  | i :: rest, item :: items, d => do
    let x ← decode i item
    decodeItems r decode rest items (d.set i x)

/-- A record, given a decoder for each of its members. -/
def decode (r : Record ι) (room : Nat)
    (member : (m : Nat) → m < room → (i : ι) → Decoder (τ i)) : Decoder (Draft τ)
  | .object members => inside room fun m h => r.decodeMembers (member m h) members .empty
  | .array items => inside room fun m h => r.decodeItems (member m h) r.members items .empty
  | v => refuse r.title v

end Record

end SqlSelect.Descriptor
