import Stencil.Value.Basic

/-!
# Expressions of conditions

A condition is a list of operands, each a value or an operator word. It reads as an expression
over the operators below.
-/

namespace Stencil.Condition

/-- A word of a condition. -/
inductive Operand where
  /-- An operator, by its word. -/
  | op (word : String)
  | value (v : Value)

/-- Operators of arithmetic and of bits. Reference: `BinOp`. -/
inductive BinaryOp where
  | add
  | sub
  | mul
  | div
  | floorDiv
  | mod
  | pow
  | bitAnd
  | bitOr
  | bitXor
  | shiftLeft
  | shiftRight
  deriving DecidableEq, Repr

/-- The word of a binary operator. Reference: `symbol`. -/
def BinaryOp.symbol : BinaryOp → String
  | .add => "+"
  | .sub => "-"
  | .mul => "*"
  | .div => "/"
  | .floorDiv => "//"
  | .mod => "%"
  | .pow => "**"
  | .bitAnd => "&"
  | .bitOr => "|"
  | .bitXor => "^"
  | .shiftLeft => "<<"
  | .shiftRight => ">>"

/-- Operators of comparison, membership and identity. Reference: `CmpOp`. -/
inductive CompareOp where
  | eq
  | ne
  | lt
  | le
  | gt
  | ge
  | isIn
  | notIn
  | is
  | isNot
  deriving DecidableEq, Repr

/-- The words of a comparison operator. -/
def CompareOp.words : CompareOp → List String
  | .eq => ["=="]
  | .ne => ["!="]
  | .lt => ["<"]
  | .le => ["<="]
  | .gt => [">"]
  | .ge => [">="]
  | .isIn => ["in"]
  | .notIn => ["not", "in"]
  | .is => ["is"]
  | .isNot => ["is", "not"]

/-- Operators with one operand. Reference: `UnOp`. -/
inductive UnaryOp where
  | neg
  | pos
  | invert
  deriving DecidableEq, Repr

/-- The word of a unary operator. -/
def UnaryOp.symbol : UnaryOp → String
  | .neg => "-"
  | .pos => "+"
  | .invert => "~"

/-- An expression. -/
inductive Expr where
  | value (v : Value)
  | not (inner : Expr)
  | and (left right : Expr)
  | or (left right : Expr)
  | unary (op : UnaryOp) (inner : Expr)
  | binary (op : BinaryOp) (left right : Expr)
  /-- A chain such as `a < b <= c`: every link compares two neighbours, and there is one at
  least. -/
  | compare (first : Expr) (op : CompareOp) (second : Expr) (links : List (CompareOp × Expr))

/-- A chain of comparisons, which is its first operand alone if there are no links. -/
def Expr.chain (first : Expr) : List (CompareOp × Expr) → Expr
  | [] => first
  | (op, second) :: links => .compare first op second links

end Stencil.Condition
