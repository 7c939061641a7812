import SqlSelect.Decimal
import SqlSelect.Json.Fault

/-!
# JSON values, as far as they could be read

A `Value` is a JSON value in which a `Flaw` may stand where something could not
be read. What a flaw means depends on who comes upon it: a reader that wants
the value, one that wants a variant there, or one that skips it; the
functions on `Flaw` say which fault each of them meets. All but one kind of
flaw stop the reading of the text, so what follows them is not in the value.
-/

set_option autoImplicit false

namespace SqlSelect.Json

/-- Something that could not be read. -/
inductive Flaw where
  /-- The text ended, or punctuation is out of place; every reader meets this fault. -/
  | here (fault : Fault)
  /-- What follows a comma is no item and no member. A reader that skips expects
  one there, and misses it where the other finds the comma superfluous. -/
  | comma (fault skipped : Fault)
  /-- A character that no value begins with. -/
  | stray
  /-- The word `null`, misspelt or cut short. -/
  | null (fault : Fault)
  /-- One of the words `true` and `false`, misspelt or cut short. -/
  | boolean (fault : Fault)
  /-- A number with a digit missing; `cut` if the text ended there. -/
  | number (cut : Bool)
  /-- A string. Its escapes may leave half of a surrogate pair, which a reader
  that skips the string does not notice: then there is no second fault. -/
  | text (fault : Fault) (skipped : Option Fault)
deriving DecidableEq

namespace Flaw

/-- The fault for a reader that wants a value. -/
def asValue : Flaw → Fault
  | .here fault => fault
  | .comma fault _ => fault
  | .stray => .expectedValue
  | .null fault => fault
  | .boolean fault => fault
  | .number cut => if cut then .endInValue else .invalidNumber
  | .text fault _ => fault

/-- The fault for a reader that wants a variant, and does not look into values
that cannot be one. -/
def asVariant : Flaw → Fault
  | .here fault => fault
  | .comma fault _ => fault
  | .text fault _ => fault
  | _ => .expectedValue

/-- The fault, if any, for a reader that skips the value. -/
def asSkipped : Flaw → Option Fault
  | .here fault => some fault
  | .comma _ skipped => some skipped
  | .stray => some .expectedValue
  | .null fault => some fault
  | .boolean fault => some fault
  | .number _ => some .invalidNumber
  | .text _ skipped => skipped

end Flaw

/-- The name of a member, or the flaw in its place. -/
abbrev Name := Except Flaw String

/-- A JSON value. -/
inductive Value where
  | null
  | boolean (value : Bool)
  | number (numeral : Numeral)
  | text (value : String)
  | array (items : List Value)
  | object (members : List (Name × Value))
  | flawed (flaw : Flaw)

namespace Value

/-- Passes over a flaw, if its reader would not notice it. -/
def skipFlaw (flaw : Flaw) : Except Fault Unit :=
  flaw.asSkipped.elim (.ok ()) .error

def skipName : Name → Except Fault Unit
  | .ok _ => .ok ()
  | .error flaw => skipFlaw flaw

def ofName : Name → Value
  | .ok s => .text s
  | .error flaw => .flawed flaw

def single (name : String) (content : Value) : Value :=
  .object [(.ok name, content)]

/-- The object with the given names and contents. -/
def record (members : List (String × Value)) : Value :=
  .object (members.map fun (name, content) => (.ok name, content))

mutual

/-- Passes over a value, and finds only faults that cannot be passed over. -/
def skip : Value → Except Fault Unit
  | .array items => skipItems items
  | .object members => skipMembers members
  | .flawed flaw => skipFlaw flaw
  | _ => .ok ()

def skipItems : List Value → Except Fault Unit
  | [] => .ok ()
  | item :: rest => do item.skip; skipItems rest

def skipMembers : List (Name × Value) → Except Fault Unit
  | [] => .ok ()
  | (name, content) :: rest => do skipName name; content.skip; skipMembers rest

end

end Value

end SqlSelect.Json
