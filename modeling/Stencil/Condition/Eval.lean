import Stencil.Condition.Order
import Stencil.Condition.Parser

/-!
# Evaluating conditions

`and` and `or` give back one of their operands and look at the right one only if needed. A chain
of comparisons stops at its first false link.
-/

namespace Stencil.Condition

mutual

/-- The value of an expression. Reference: `eval`. -/
def eval : Expr → Except Error Value
  | .value v => .ok v
  | .not inner => do
    let v ← eval inner
    .ok (.bool (!v.isTruthy))
  | .and left right => do
    let v ← eval left
    if v.isTruthy then eval right else .ok v
  | .or left right => do
    let v ← eval left
    if v.isTruthy then .ok v else eval right
  | .unary op inner => do
    let v ← eval inner
    unary op v
  | .binary op left right => do
    let l ← eval left
    let r ← eval right
    binary op l r
  | .compare first op second links => do
    let left ← eval first
    let right ← eval second
    let holds ← compare op left right
    if holds then evalLinks right links else .ok (.bool false)

/-- The truth of the links of a chain whose left end has the value given. -/
def evalLinks (left : Value) : List (CompareOp × Expr) → Except Error Value
  | [] => .ok (.bool true)
  | (op, expr) :: links => do
    let right ← eval expr
    let holds ← compare op left right
    if holds then evalLinks right links else .ok (.bool false)

end

/-- The value of a condition. Reference: `evaluate`. -/
def evaluate (operands : List Operand) : Except Error Value := do
  let expr ← parse operands
  eval expr

end Stencil.Condition
