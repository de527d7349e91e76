/-!
# Operators
-/

namespace FrontEnd

/-- Operators written before their operand. -/
inductive UnaryOp where
  | plus
  | neg
  | bitNot
  | not
  deriving DecidableEq, Repr

/-- Operators written between two operands. -/
inductive BinaryOp where
  | add
  | sub
  | mul
  | div
  | pow
  | bitAnd
  | bitOr
  | xor
  | shl
  | shr
  | eq
  | ne
  | lt
  | le
  | gt
  | ge
  | and
  | or
  deriving DecidableEq, Repr

/-- Operators written after their operand. -/
inductive PostOp where
  | increment
  | decrement
  deriving DecidableEq, Repr

/-- How a unary operator is written. -/
def UnaryOp.symbol : UnaryOp → String
  | .plus => "+"
  | .neg => "-"
  | .bitNot => "~"
  | .not => "!"

/-- How a binary operator is written. -/
def BinaryOp.symbol : BinaryOp → String
  | .add => "+"
  | .sub => "-"
  | .mul => "*"
  | .div => "/"
  | .pow => "**"
  | .bitAnd => "&"
  | .bitOr => "|"
  | .xor => "^"
  | .shl => "<<"
  | .shr => ">>"
  | .eq => "=="
  | .ne => "!="
  | .lt => "<"
  | .le => "<="
  | .gt => ">"
  | .ge => ">="
  | .and => "&&"
  | .or => "||"

/-- How a postfixed operator is written. -/
def PostOp.symbol : PostOp → String
  | .increment => "++"
  | .decrement => "--"

end FrontEnd
