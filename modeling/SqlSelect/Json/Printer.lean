import SqlSelect.Json.Value

/-!
# Writing JSON texts

`Value.compact` writes a value without blanks. A quote, a backslash and the
controls are escaped, everything else stands as it is.
-/

set_option autoImplicit false

namespace SqlSelect.Json

/-- A digit of a hexadecimal number, for values below sixteen. -/
def hexDigit (n : Nat) : Char := Nat.digitChar n

def escapeChar (c : Char) : List Char :=
  if c = '\x22' then ['\x5c', '\x22']
  else if c = '\x5c' then ['\x5c', '\x5c']
  else if c = '\x08' then ['\x5c', 'b']
  else if c = '\x0c' then ['\x5c', 'f']
  else if c = '\n' then ['\x5c', 'n']
  else if c = '\r' then ['\x5c', 'r']
  else if c = '\t' then ['\x5c', 't']
  else if c.toNat < 0x20 then
    ['\x5c', 'u', '0', '0', hexDigit (c.toNat / 16), hexDigit (c.toNat % 16)]
  else [c]

def quote (s : String) : String :=
  "\"" ++ String.ofList (s.toList.flatMap escapeChar) ++ "\""

/-- The name of a member. What could not be read has no text. -/
def compactName : Name → String
  | .ok s => quote s
  | .error _ => ""

namespace Value

mutual

/-- The text of a value. What could not be read has none. -/
def compact : Value → String
  | .null => "null"
  | .boolean b => if b then "true" else "false"
  | .number n => n.text
  | .text s => quote s
  | .array [] => "[]"
  | .array (item :: rest) => "[" ++ item.compact ++ compactItems rest
  | .object [] => "\x7b\x7d"
  | .object ((name, content) :: rest) =>
    "\x7b" ++ compactName name ++ ":" ++ content.compact ++ compactMembers rest
  | .flawed _ => ""

/-- The items after the first one, and the end of the array. -/
def compactItems : List Value → String
  | [] => "]"
  | item :: rest => "," ++ item.compact ++ compactItems rest

/-- The members after the first one, and the end of the object. -/
def compactMembers : List (Name × Value) → String
  | [] => "\x7d"
  | (name, content) :: rest =>
    "," ++ compactName name ++ ":" ++ content.compact ++ compactMembers rest

end

end Value

end SqlSelect.Json
