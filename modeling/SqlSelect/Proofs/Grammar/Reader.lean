import SqlSelect.Proofs.Token.Expr

/-!
# A reader of expressions

`reader` takes the text of an expression apart. It goes from left to right, one
token or one fixed phrase at a time, and decides from what it has before it: an
expression is read as far as it goes without an operand on its left
(`readClosed`), and then the phrase that follows tells whether it was the left
operand of a form without parentheses (`readForm`). The number that `reader`
takes bounds how deep it goes.
-/

set_option autoImplicit false

namespace SqlSelect.Grammar

open Lexer

/-- What takes a value from the front of a text, and gives the rest. -/
abbrev Reader (α : Type) := List Char → Option (α × List Char)

/-! ## Tokens and phrases -/

/-- The token at the front. -/
def token? : Reader Token
  | [] => none
  | c :: cs =>
    match scan c cs with
    | .ok read => some read
    | .error _ => none

/-- The text without some characters at its front. -/
def skip? : List Char → List Char → Option (List Char)
  | [], cs => some cs
  | _ :: _, [] => none
  | p :: ps, c :: cs => if p = c then skip? ps cs else none

/-- The text without a phrase at its front. -/
def expect (phrase : String) (cs : List Char) : Option (List Char) :=
  skip? phrase.toList cs

/-- The first entry whose phrase is at the front. -/
def choose {α : Type} : List (String × α) → Reader α
  | [], _ => none
  | (phrase, a) :: entries, cs =>
    match expect phrase cs with
    | some cs => some (a, cs)
    | none => choose entries cs

/-- What a form without parentheses goes on with after its left operand. -/
inductive Form where
  | comparison (op : BinaryOperator)
  | isIn
  | between
  | isNull (negated : Bool)

/-- The phrases after a left operand. -/
def forms : List (String × Form) :=
  [BinaryOperator.eq, .notEq, .lt, .ltEq, .gt, .gtEq].map
      (fun op => (" " ++ op.sql ++ " ", .comparison op)) ++
    [(" IN (", .isIn), (" BETWEEN ", .between), (" IS NULL", .isNull false),
      (" IS NOT NULL", .isNull true)]

/-- The phrases between operands in parentheses. -/
def operations : List (String × BinaryOperator) :=
  [BinaryOperator.and, .or, .add, .sub, .mul, .div].map fun op => (" " ++ op.sql ++ " ", op)

/-! ## Numbers and types -/

def numeralOf (negative : Bool) (digits : List Char) : Numeral :=
  { negative
    whole := digits.takeWhile Char.isDigit
    fraction := (digits.dropWhile Char.isDigit).drop 1 }

/-- What a number stands for: an integer, unless it has a point. -/
def literalOf (n : Numeral) : Literal :=
  if n.fraction.isEmpty then .integer (.ofInt (if n.negative then -n.wholeValue else n.wholeValue))
  else .float (.ofNumeral .binary64 n)

/-- The text of a type, up to the parenthesis that closes what stands around it. -/
def readType : Nat → Reader (List Char)
  | _, [] => none
  | depth, c :: cs =>
    if c = '(' then (readType (depth + 1) cs).map fun (type, rest) => (c :: type, rest)
    else if c = ')' then
      match depth with
      | 0 => some ([], cs)
      | depth + 1 => (readType depth cs).map fun (type, rest) => (c :: type, rest)
    else (readType depth cs).map fun (type, rest) => (c :: type, rest)

/-! ## Expressions -/

section

/-! Readers around a reader of the expressions inside, which `steps` bounds. -/

variable (form : Reader Expr) (steps : Nat)

/-- An expression and what closes it. -/
def readEnclosed (close : String) : Reader Expr := fun cs => do
  let (e, cs) ← form cs
  let cs ← expect close cs
  some (e, cs)

def readTail : Nat → Reader (List Expr)
  | 0, _ => none
  | steps + 1, cs =>
    match expect ", " cs with
    | none => some ([], cs)
    | some cs => do
      let (e, cs) ← form cs
      let (es, cs) ← readTail steps cs
      some (e :: es, cs)

/-- Expressions with commas between them and what closes them. -/
def readList (close : String) : Reader (List Expr) := fun cs =>
  match form cs with
  | none => do
    let cs ← expect close cs
    some ([], cs)
  | some (e, cs) => do
    let (es, cs) ← readTail form steps cs
    let cs ← expect close cs
    some (e :: es, cs)

def readParens : Reader Expr := fun cs =>
  match form cs with
  | none => do
    let cs ← expect ")" cs
    some (.tuple [], cs)
  | some (e, cs) =>
    match choose operations cs with
    | some (op, cs) => do
      let (right, cs) ← readEnclosed form ")" cs
      some (.binary e op right, cs)
    | none => do
      let (es, cs) ← readTail form steps cs
      let cs ← expect ")" cs
      some (.tuple (e :: es), cs)

def readCount : Reader Expr := fun cs =>
  match readEnclosed form ")" cs with
  | some (e, cs) => some (.count (some e), cs)
  | none => do
    let cs ← expect "*)" cs
    some (.count none, cs)

def aggregate? (name : String) : Option AggregateFunction :=
  [AggregateFunction.sum, .avg, .min, .max].find? fun function => function.sql = name

/-- What a name is for: a call, if there are operands. -/
def readNamed (name : String) : Reader Expr := fun cs =>
  match expect "(" cs with
  | none => some (.field name, cs)
  | some cs =>
    if name = "COUNT" then readCount form cs
    else
      match aggregate? name with
      | some function => do
        let (e, cs) ← readEnclosed form ")" cs
        some (.aggregate function e, cs)
      | none => do
        let (es, cs) ← readList form steps ")" cs
        some (.call name es, cs)

def readBranches : Nat → Reader (List (Expr × Expr))
  | 0, _ => none
  | steps + 1, cs =>
    match expect " WHEN " cs with
    | none => some ([], cs)
    | some cs => do
      let (condition, cs) ← form cs
      let cs ← expect " THEN " cs
      let (result, cs) ← form cs
      let (bs, cs) ← readBranches steps cs
      some ((condition, result) :: bs, cs)

/-- An expression after a phrase, if there is one. -/
def readOptional (phrase : String) : Reader (Option Expr) := fun cs =>
  match (expect phrase cs).bind form with
  | none => some (none, cs)
  | some (e, cs) => some (some e, cs)

def readCase : Reader Expr := fun cs => do
  let (subject, cs) ← readOptional form " " cs
  let (bs, cs) ← readBranches form steps cs
  let (otherwise, cs) ← readOptional form " ELSE " cs
  let cs ← expect " END" cs
  some (.case subject bs otherwise, cs)

def readCast : Reader Expr := fun cs => do
  let cs ← expect "(" cs
  let (e, cs) ← form cs
  let cs ← expect " AS " cs
  let (type, cs) ← readType 0 cs
  some (.cast e (String.ofList type), cs)

/-- What a keyword begins. -/
def readKeyword (word : String) : Reader Expr := fun cs =>
  if word = "NULL" then some (.literal .null, cs)
  else if word = "TRUE" then some (.literal (.boolean true), cs)
  else if word = "FALSE" then some (.literal (.boolean false), cs)
  else if word = "NOT" then do
    let cs ← expect " (" cs
    let (e, cs) ← readEnclosed form ")" cs
    some (.not e, cs)
  else if word = "CASE" then readCase form steps cs
  else if word = "CAST" then readCast form cs
  else none

/-- The number after a sign. -/
def readNegative : Reader Expr := fun cs => do
  let (t, cs) ← token? cs
  match t with
  | .number digits => some (.literal (literalOf (numeralOf true digits.toList)), cs)
  | _ => none

/-- An expression that has no operand on its left. -/
def readClosed : Reader Expr := fun cs => do
  let (t, cs) ← token? cs
  match t with
  | .string s => some (.literal (.string s), cs)
  | .number digits => some (.literal (literalOf (numeralOf false digits.toList)), cs)
  | .symbol .minus => readNegative cs
  | .symbol .openParen => readParens form steps cs
  | .symbol .openBracket => do
    let (items, cs) ← readList form steps "]" cs
    some (.array items, cs)
  | .name name => readNamed form steps name cs
  | .keyword word => readKeyword form steps word cs
  | .symbol _ => none

/-- An expression, perhaps without parentheses. -/
def readForm : Reader Expr := fun cs => do
  let (e, cs) ← readClosed form steps cs
  match choose forms cs with
  | none => some (e, cs)
  | some (.comparison op, cs) => do
    let (right, cs) ← readClosed form steps cs
    some (.binary e op right, cs)
  | some (.isIn, cs) => do
    let (candidates, cs) ← readList form steps ")" cs
    some (.isIn e candidates, cs)
  | some (.between, cs) => do
    let (low, cs) ← readClosed form steps cs
    let cs ← expect " AND " cs
    let (high, cs) ← readClosed form steps cs
    some (.between e low high, cs)
  | some (.isNull negated, cs) => some (.isNull e negated, cs)

end

/-- The reader of expressions. -/
def reader : Nat → Reader Expr
  | 0 => fun _ => none
  | steps + 1 => readForm (reader steps) steps

/-- The reader of expressions that may have a name for their result. -/
def aliasReader (steps : Nat) : Reader Expr := fun cs => do
  let (e, cs) ← reader steps cs
  match expect " AS " cs with
  | none => some (e, cs)
  | some cs => do
    let (t, cs) ← token? cs
    match t with
    | .name name => some (.aliased e name, cs)
    | _ => none

end SqlSelect.Grammar
