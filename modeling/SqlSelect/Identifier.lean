import SqlSelect.Keyword

/-!
# Identifiers

Names of columns, aliases and tables. A name made of ASCII letters, digits and
underscores, with no digit in front, stands bare unless it is reserved; any
other name stands between backticks, and a backtick inside it is written twice.
-/

set_option autoImplicit false

namespace SqlSelect.Identifier

def isStart (c : Char) : Bool := c = '_' || c.isAlpha

def isPart (c : Char) : Bool := c = '_' || c.isAlphanum

/-- The characters of the name let it stand bare. -/
def isSafe (name : String) : Bool :=
  match name.toList with
  | [] => false
  | c :: rest => isStart c && rest.all isPart

/-- The name has to stand between backticks. -/
def needsQuotes (name : String) : Bool :=
  !isSafe name || Keyword.isReserved name

/-- The characters of a name between backticks. -/
def escape (name : String) : String :=
  String.ofList (name.toList.flatMap fun c => if c = '\x60' then [c, c] else [c])

/-- The name as a statement shows it. -/
def sql (name : String) : String :=
  if needsQuotes name then "\x60" ++ escape name ++ "\x60" else name

end SqlSelect.Identifier
