/-!
# Operators, aggregates and directions

The fixed words of expressions. A comparison stands bare between its operands;
an arithmetic or logical operator puts its expression into parentheses.
-/

set_option autoImplicit false

namespace SqlSelect

/-- The operators with two operands. -/
inductive BinaryOperator where
  | eq | notEq | lt | ltEq | gt | gtEq
  | and | or
  | add | sub | mul | div
deriving DecidableEq

namespace BinaryOperator

def sql : BinaryOperator → String
  | .eq => "="
  | .notEq => "!="
  | .lt => "<"
  | .ltEq => "<="
  | .gt => ">"
  | .gtEq => ">="
  | .and => "AND"
  | .or => "OR"
  | .add => "+"
  | .sub => "-"
  | .mul => "*"
  | .div => "/"

def isComparison : BinaryOperator → Bool
  | .eq | .notEq | .lt | .ltEq | .gt | .gtEq => true
  | _ => false

def isLogical : BinaryOperator → Bool
  | .and | .or => true
  | _ => false

def isArithmetic : BinaryOperator → Bool
  | .add | .sub | .mul | .div => true
  | _ => false

/-- An expression with this operator stands in parentheses of its own. There is
no precedence among operators, so this alone decides where parentheses stand. -/
def wraps (op : BinaryOperator) : Bool := !op.isComparison

end BinaryOperator

/-- The aggregates with one operand. `COUNT` is not among them: it needs none. -/
inductive AggregateFunction where
  | sum | avg | min | max
deriving DecidableEq

def AggregateFunction.sql : AggregateFunction → String
  | .sum => "SUM"
  | .avg => "AVG"
  | .min => "MIN"
  | .max => "MAX"

inductive Direction where
  | asc | desc
deriving DecidableEq, Inhabited

def Direction.sql : Direction → String
  | .asc => "ASC"
  | .desc => "DESC"

end SqlSelect
