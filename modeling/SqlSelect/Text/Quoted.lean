import SqlSelect.Text.Shown

/-!
# Strings quoted in messages

A message shows a string between double quotes, so that its ends can be seen.
`Text.quoted` escapes the quote and the backslash, names the common controls,
and gives the code point of every other character that has no shape of its own.
-/

set_option autoImplicit false

namespace SqlSelect.Text

/-- The code point in lower-case hexadecimal, between braces. -/
def codePoint (c : Char) : String :=
  "\\u\x7b" ++ String.ofList (Nat.toDigits 16 c.toNat) ++ "\x7d"

/-- A character inside a quoted string. -/
def quotedChar (c : Char) : String :=
  if c = '\x22' then "\\\""
  else if c = '\x5c' then "\\\\"
  else if c = '\t' then "\\t"
  else if c = '\n' then "\\n"
  else if c = '\r' then "\\r"
  else if c = '\x00' then "\\0"
  else if isShown c then c.toString
  else codePoint c

/-- The string between double quotes, as messages show it. -/
def quoted (s : String) : String :=
  "\"" ++ String.join (s.toList.map quotedChar) ++ "\""

end SqlSelect.Text
