import Classlet.Fault

/-!
# Operators

How tightly each operator binds and what it makes of its operands' types.  All
operators associate to the left.
-/

namespace Classlet.Operator

/-- Operators of a higher level bind tighter. -/
def level : Operator → Nat
  | or => 0
  | and => 1
  | equal | notEqual => 2
  | less | greater | lessEqual | greaterEqual => 3
  | plus | minus => 4
  | times | divide => 5

def tightest : Nat := 5

/--
The type of an operation that stands at `sign`.  Logical operators take two
booleans; all others take two operands of one type, which arithmetic keeps.
-/
def typing (operator : Operator) (sign : Token) (left right : Ty) : Except Fault Ty :=
  match operator with
  | or | and =>
      if left = .bool ∧ right = .bool then .ok .bool
      else .error (.nonBoolean sign left right)
  | equal | notEqual | less | greater | lessEqual | greaterEqual =>
      if left = right then .ok .bool else .error (.operands sign left right)
  | plus | minus | times | divide =>
      if left = right then .ok left else .error (.operands sign left right)

end Classlet.Operator
