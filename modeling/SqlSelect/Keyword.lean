/-!
# Reserved words

The words that a bare identifier may not be, whatever the case of its letters.
`Keyword.reserved` lists them in upper case and in order, and
`Keyword.isReserved` finds a word among them by halving.
-/

set_option autoImplicit false

namespace SqlSelect.Keyword

/-- The reserved words, in upper case and in ascending order. -/
def reserved : Array String := #[
  "ALL", "ALTER", "AND", "ANTI", "ANY", "ARRAY", "AS", "ASC", "ASOF", "ATTACH", "BETWEEN",
  "BOTH", "BY", "CASE", "CAST", "CHECK", "CLUSTER", "COLLATE", "COLUMN", "CONSTRAINT", "CREATE",
  "CROSS", "CUBE", "DATABASE", "DATE", "DATETIME", "DEFAULT", "DELETE", "DESC", "DESCRIBE",
  "DETACH", "DICTIONARY", "DISTINCT", "DROP", "ELSE", "END", "ENGINE", "EXCEPT", "EXISTS",
  "EXPLAIN", "FALSE", "FINAL", "FIRST", "FLOAT", "FOR", "FORMAT", "FROM", "FULL", "FUNCTION",
  "GLOBAL", "GRANT", "GROUP", "HAVING", "IF", "ILIKE", "IN", "INDEX", "INNER", "INSERT", "INT",
  "INTERSECT", "INTERVAL", "INTO", "IS", "JOIN", "KEY", "KILL", "LAST", "LEFT", "LIKE", "LIMIT",
  "LIVE", "LOCAL", "MATERIALIZED", "MODIFY", "NOT", "NULL", "NULLS", "OFFSET", "ON", "OPTIMIZE",
  "OR", "ORDER", "OUTER", "OUTFILE", "PARTITION", "PREWHERE", "PRIMARY", "RENAME", "REPLACE",
  "REVOKE", "RIGHT", "ROLLUP", "SAMPLE", "SELECT", "SEMI", "SET", "SETTINGS", "SHOW", "STRING",
  "SYSTEM", "TABLE", "TEMPORARY", "THEN", "TIES", "TO", "TOP", "TOTALS", "TRUE", "TRUNCATE",
  "TTL", "UNION", "UPDATE", "USE", "USING", "VALUES", "VIEW", "WATCH", "WHEN", "WHERE",
  "WINDOW", "WITH"]

/-- Looks for a word between two places of an ascending table, halving the
distance at each step. -/
def isBetween (table : Array String) (word : String) (low high : Nat) : Bool :=
  if low < high then
    let middle := (low + high) / 2
    match table[middle]? with
    | none => false
    | some entry =>
      if entry = word then true
      else if entry < word then isBetween table word (middle + 1) high
      else isBetween table word low middle
  else false
termination_by high - low

def isAscii (word : String) : Bool :=
  word.toList.all fun c => c.toNat < 128

def upper (word : String) : String :=
  String.ofList (word.toList.map Char.toUpper)

/-- The word is reserved, whatever the case of its letters. -/
def isReserved (word : String) : Bool :=
  isAscii word && isBetween reserved (upper word) 0 reserved.size

end SqlSelect.Keyword
