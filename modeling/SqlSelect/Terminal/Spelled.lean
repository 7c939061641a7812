import SqlSelect.Text.Quoted

/-!
# Control characters spelled out

A log shows the names of files, and those may hold anything. `Terminal.spelled`
writes the characters by which a text can command a terminal as their codes, so
that the log shows them and the terminal does not obey.
-/

set_option autoImplicit false

namespace SqlSelect.Terminal

/-- A character, or the code of one that a terminal may obey. -/
def spelledChar (c : Char) : String :=
  if c = '\x07' then "\\x07"
  else if c = '\x08' then "\\x08"
  else if c = '\x0c' then "\\x0c"
  else if c = '\x1b' then "\\x1b"
  else if c = '\x7f' then "\\x7f"
  else if 0x80 ≤ c.toNat ∧ c.toNat ≤ 0x9f then Text.codePoint c
  else c.toString

/-- The text with the characters spelled out that a terminal may obey. -/
def spelled (s : String) : String :=
  String.join (s.toList.map spelledChar)

end SqlSelect.Terminal
