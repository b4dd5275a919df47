/-!
# Operators of expressions

The operators that expression nodes carry, with the symbols they are shown by. The words `or`
and `and` are spellings of `||` and `&&`.
-/
namespace Vibescript

/-- Operators between two operands. -/
inductive BinaryOp where
  | or | and
  | equal | notEqual
  | less | greater | lessEqual | greaterEqual
  | range
  | add | subtract
  | multiply | divide | remainder
  deriving DecidableEq, Repr

/-- The symbol of a binary operator. -/
def BinaryOp.symbol : BinaryOp → String
  | or => "||"
  | and => "&&"
  | equal => "=="
  | notEqual => "!="
  | less => "<"
  | greater => ">"
  | lessEqual => "<="
  | greaterEqual => ">="
  | range => ".."
  | add => "+"
  | subtract => "-"
  | multiply => "*"
  | divide => "/"
  | remainder => "%"

/-- Operators before one operand. -/
inductive UnaryOp where
  | negate | not
  deriving DecidableEq, Repr

/-- The symbol of a unary operator. -/
def UnaryOp.symbol : UnaryOp → String
  | negate => "-"
  | not => "!"

/-- Operators that change a target in place. -/
inductive CompoundOp where
  | add | subtract
  deriving DecidableEq, Repr

/-- The symbol of a compound assignment. -/
def CompoundOp.symbol : CompoundOp → String
  | add => "+="
  | subtract => "-="

/-- Different binary operators have different symbols. -/
theorem BinaryOp.symbol_injective {left right : BinaryOp} (same : left.symbol = right.symbol) :
    left = right := by
  cases left <;> cases right <;> first | rfl | exact absurd same (by decide)

end Vibescript
