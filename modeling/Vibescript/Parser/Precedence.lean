import Vibescript.Token.Tag
import Vibescript.Tree.Operator

/-!
# Operator precedence

The binding power of each infix operator. Operators of one power group to the left, except
that assignments group to the right.
-/
namespace Vibescript

/-- How tightly an operator binds, loosest first. -/
inductive BindingPower where
  | assignment | or | and | equality | comparison | range | additive | multiplicative
  | unary | postfixed
  deriving DecidableEq, Repr

namespace BindingPower

/-- Place in the order, loosest first. -/
def rank (power : BindingPower) : Nat := power.ctorIdx

/-- The next tighter power; the tightest is its own. -/
def tighter : BindingPower → BindingPower
  | assignment => or
  | or => and
  | and => equality
  | equality => comparison
  | comparison => range
  | range => additive
  | additive => multiplicative
  | multiplicative => unary
  | unary => postfixed
  | postfixed => postfixed

/-- The next tighter power is one place further, the tightest apart. -/
theorem rank_tighter (power : BindingPower) (notLast : power ≠ postfixed) :
    power.tighter.rank = power.rank + 1 := by
  cases power <;> first | rfl | exact absurd rfl notLast

end BindingPower

/-- What an infix operator makes of its operands. -/
inductive InfixOp where
  /-- A value. -/
  | binary (op : BinaryOp)
  /-- An assignment. -/
  | assign
  /-- An assignment that uses the old value. -/
  | compound (op : CompoundOp)
  deriving DecidableEq, Repr

/-- The binding power of a binary operator. -/
def BinaryOp.power : BinaryOp → BindingPower
  | or => .or
  | and => .and
  | equal | notEqual => .equality
  | less | greater | lessEqual | greaterEqual => .comparison
  | range => .range
  | add | subtract => .additive
  | multiply | divide | remainder => .multiplicative

namespace InfixOp

/-- The binding power of an infix operator. -/
def power : InfixOp → BindingPower
  | binary op => op.power
  | assign | compound _ => .assignment

/-- The least power of the right operand: one tighter, so that operators group to the left,
except for assignments. -/
def rightPower : InfixOp → BindingPower
  | binary op => op.power.tighter
  | assign | compound _ => .assignment

/-- The infix operator that a token is. -/
def ofTag? : Tag → Option InfixOp
  | .assign => some assign
  | .plusAssign => some (compound .add)
  | .minusAssign => some (compound .subtract)
  | .doubleBar | .kwOr => some (binary .or)
  | .doubleAmpersand | .kwAnd => some (binary .and)
  | .equal => some (binary .equal)
  | .notEqual => some (binary .notEqual)
  | .less => some (binary .less)
  | .greater => some (binary .greater)
  | .lessEqual => some (binary .lessEqual)
  | .greaterEqual => some (binary .greaterEqual)
  | .doubleDot => some (binary .range)
  | .plus => some (binary .add)
  | .minus => some (binary .subtract)
  | .star => some (binary .multiply)
  | .slash => some (binary .divide)
  | .percent => some (binary .remainder)
  | _ => none

end InfixOp

/-- The unary operator that a token is. -/
def UnaryOp.ofTag? : Tag → Option UnaryOp
  | .minus => some negate
  | .bang => some not
  | _ => none

end Vibescript
