/-!
# Binary operators

The operators that queries and statements share.  A comparison, a logical operator, an arithmetic
operator and concatenation ask for different types of operands.
-/

namespace EntityQuery

/-- A binary operator. -/
inductive Operator where
  | eq
  | ne
  | lt
  | le
  | gt
  | ge
  | and
  | or
  | add
  | sub
  | mul
  | div
  | mod
  | concat
deriving DecidableEq, Repr

namespace Operator

/-- The operators. -/
def all : List Operator :=
  [.eq, .ne, .lt, .le, .gt, .ge, .and, .or, .add, .sub, .mul, .div, .mod, .concat]

/-- The name of an operator in a query. -/
def name : Operator → String
  | .eq => "eq"
  | .ne => "ne"
  | .lt => "lt"
  | .le => "le"
  | .gt => "gt"
  | .ge => "ge"
  | .and => "and"
  | .or => "or"
  | .add => "add"
  | .sub => "sub"
  | .mul => "mul"
  | .div => "div"
  | .mod => "mod"
  | .concat => "concat"

/-- The spelling of an operator in a statement. -/
def symbol : Operator → String
  | .eq => "="
  | .ne => "!="
  | .lt => "<"
  | .le => "<="
  | .gt => ">"
  | .ge => ">="
  | .and => "AND"
  | .or => "OR"
  | .add => "+"
  | .sub => "-"
  | .mul => "*"
  | .div => "/"
  | .mod => "%"
  | .concat => "||"

/-- Whether the operator compares two values. -/
def isComparison : Operator → Bool
  | .eq | .ne | .lt | .le | .gt | .ge => true
  | _ => false

/-- Whether the operator joins two truth values. -/
def isLogical : Operator → Bool
  | .and | .or => true
  | _ => false

/-- Whether the operator computes with two numbers. -/
def isArithmetic : Operator → Bool
  | .add | .sub | .mul | .div | .mod => true
  | _ => false

end Operator
end EntityQuery
