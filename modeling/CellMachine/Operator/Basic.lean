/-!
# CellMachine.Operator.Basic

The operators on cells and the symbols by which messages name them.
-/

namespace CellMachine

/-- The binary arithmetic operators. -/
inductive ArithOp where
  | add | sub | mul | div | mod
  deriving DecidableEq, Repr

namespace ArithOp

/-- How an operator is written in messages. -/
def symbol : ArithOp → String
  | add => "+"
  | sub => "-"
  | mul => "*"
  | div => "/"
  | mod => "mod"

end ArithOp

/-- The comparison operators. -/
inductive CompareOp where
  | gt | gte | lt | lte | eq | neq
  deriving DecidableEq, Repr

namespace CompareOp

/-- How an operator is written in messages. -/
def symbol : CompareOp → String
  | gt => ">"
  | gte => ">="
  | lt => "<"
  | lte => "<="
  | eq => "="
  | neq => "<>"

/-- Whether the operator asks for equality or its opposite. -/
def isEquality : CompareOp → Bool
  | eq | neq => true
  | _ => false

end CompareOp

end CellMachine
