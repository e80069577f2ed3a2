import Stencil.Value.Basic

/-!
# Errors of conditions

A condition fails while it is read or while it is evaluated. Where an operation on integers of 64
bits is not checked, a result beyond them does not fail but halts the whole run: see `Halt`.
-/

namespace Stencil

/-- Why a run halts: an operation on integers of 64 bits that is not checked goes beyond them. -/
inductive Halt where
  | sum
  /-- The quotient that belongs to a remainder is beyond 64 bits. -/
  | remainder
  deriving DecidableEq, Repr

/-- The message of a halt. -/
def Halt.message : Halt → String
  | .sum => "attempt to add with overflow"
  | .remainder => "attempt to calculate the remainder with overflow"

namespace Condition

/-- How long a repeated string (in bytes) or list may become. Reference: `MAX_REPEAT_LEN`. -/
def maxRepeat : Nat := 0x100000

/-- Why a condition has no value. Reference: `ExprError`. -/
inductive Error where
  /-- There are no operands. -/
  | empty
  /-- An operand is missing at the end. -/
  | unexpectedEnd
  /-- An operand or operator stands where it cannot. -/
  | unexpected (word : String)
  /-- A binary operator does not take operands of these types. -/
  | operandTypes (symbol : String) (left right : ValueType)
  /-- A unary operator does not take an operand of this type. -/
  | operandType (symbol : String) (operand : ValueType)
  | divisionByZero
  /-- A result is beyond 64 bits, or not a finite double. -/
  | overflow
  /-- A repeated string or list would become too long. -/
  | tooLarge
  /-- There is no value, nor is there anything after it. -/
  | halts (reason : Halt)
  deriving DecidableEq, Repr

/-- The message of a condition error. -/
def Error.message : Error → String
  | .empty => "expression is empty"
  | .unexpectedEnd => "expression ended early"
  | .unexpected word => "unexpected `" ++ word ++ "`"
  | .operandTypes symbol left right =>
    "unsupported operand types for " ++ symbol ++ ": " ++ left.name ++ " and " ++ right.name
  | .operandType symbol operand =>
    "bad operand type for unary " ++ symbol ++ ": " ++ operand.name
  | .divisionByZero => "division by zero"
  | .overflow => "integer overflow"
  | .tooLarge => "repeated sequence would exceed " ++ toString maxRepeat ++ " elements"
  | .halts reason => reason.message

end Condition

end Stencil
