import Stencil.Condition.Error
import Stencil.Condition.Expr
import Stencil.Value.Json.Printer

/-!
# Reading conditions

Expressions have thirteen levels, from `or` down to the atoms. On most of them operators of equal
rank group to the left; comparisons form chains, and `**` takes an operand of the level of unary
operators on its right.
-/

namespace Stencil.Condition

/-- The levels of expressions, the loosest first. Reference: `parse_or`, `parse_atom`. -/
inductive Level where
  | or
  | and
  | not
  | comparison
  | bitOr
  | bitXor
  | bitAnd
  | shift
  | sum
  | term
  | factor
  | power
  | atom
  deriving DecidableEq, Repr

/-- The level one tighter. -/
def Level.tighter : Level → Level
  | .or => .and
  | .and => .not
  | .not => .comparison
  | .comparison => .bitOr
  | .bitOr => .bitXor
  | .bitXor => .bitAnd
  | .bitAnd => .shift
  | .shift => .sum
  | .sum => .term
  | .term => .factor
  | .factor => .power
  | .power | .atom => .atom

/-- How an operator word of a level joins two expressions, on the levels that group to the left. -/
def Level.join? : Level → String → Option (Expr → Expr → Expr)
  | .or, "or" => some .or
  | .and, "and" => some .and
  | .bitOr, "|" => some (.binary .bitOr)
  | .bitXor, "^" => some (.binary .bitXor)
  | .bitAnd, "&" => some (.binary .bitAnd)
  | .shift, "<<" => some (.binary .shiftLeft)
  | .shift, ">>" => some (.binary .shiftRight)
  | .sum, "+" => some (.binary .add)
  | .sum, "-" => some (.binary .sub)
  | .term, "*" => some (.binary .mul)
  | .term, "/" => some (.binary .div)
  | .term, "//" => some (.binary .floorDiv)
  | .term, "%" => some (.binary .mod)
  | _, _ => none

/-- The unary operator of a word. -/
def unaryOp? : String → Option UnaryOp
  | "-" => some .neg
  | "+" => some .pos
  | "~" => some .invert
  | _ => none

/-- The comparison operator of one word. Reference: `comparison_op`. -/
def compareOp? : String → Option CompareOp
  | "==" => some .eq
  | "!=" => some .ne
  | "<" => some .lt
  | "<=" => some .le
  | ">" => some .gt
  | ">=" => some .ge
  | "in" => some .isIn
  | "is" => some .is
  | _ => none

/-- The comparison operator at the front of the operands, and the rest. -/
def takeCompareOp? : List Operand → Option (CompareOp × List Operand)
  | .op "not" :: .op "in" :: rest => some (.notIn, rest)
  | .op "is" :: .op "not" :: rest => some (.isNot, rest)
  | .op word :: rest => (compareOp? word).map (·, rest)
  | _ => none

/-- The value of a constant word. -/
def constant? : String → Option Value
  | "True" => some (.bool true)
  | "False" => some (.bool false)
  | "None" => some .null
  | _ => none

/-- How an operand is named in a message. Reference: `describe`. -/
def Operand.describe : Operand → String
  | .op word => word
  | .value v => v.display

/-- An expression read from the front of the operands, and the rest. -/
abbrev Parsed := Except Error (Expr × List Operand)

mutual

/-- Reads an expression of a level. The first argument bounds the depth of the recursion. -/
def parseLevel : Nat → Level → List Operand → Parsed
  | 0, _, _ => .error .unexpectedEnd
  | depth + 1, .atom, operands =>
    match operands with
    | [] => .error .unexpectedEnd
    | .value v :: rest => .ok (.value v, rest)
    | .op "(" :: rest =>
      match parseLevel depth .or rest with
      | .error e => .error e
      | .ok (inner, .op ")" :: after) => .ok (inner, after)
      | .ok (_, []) => .error .unexpectedEnd
      | .ok (_, other :: _) => .error (.unexpected other.describe)
    | .op word :: rest =>
      match constant? word with
      | some v => .ok (.value v, rest)
      | none => .error (.unexpected word)
  | depth + 1, .power, operands =>
    match parseLevel depth .atom operands with
    | .ok (base, .op "**" :: rest) =>
      (parseLevel depth .factor rest).map fun (exponent, after) =>
        (.binary .pow base exponent, after)
    | result => result
  | depth + 1, .factor, operands =>
    match operands with
    | .op word :: rest =>
      match unaryOp? word with
      | some op =>
        (parseLevel depth .factor rest).map fun (inner, after) => (.unary op inner, after)
      | none => parseLevel depth .power operands
    | _ => parseLevel depth .power operands
  | depth + 1, .not, operands =>
    match operands with
    | .op "not" :: rest =>
      (parseLevel depth .not rest).map fun (inner, after) => (.not inner, after)
    | _ => parseLevel depth .comparison operands
  | depth + 1, .comparison, operands =>
    match parseLevel depth .bitOr operands with
    | .error e => .error e
    | .ok (first, rest) => parseLinks depth first [] rest
  | depth + 1, level, operands =>
    match parseLevel depth level.tighter operands with
    | .error e => .error e
    | .ok (left, rest) => parseJoins depth level left rest

/-- Goes on with operators of a level that groups to the left. Reference: `parse_binary`. -/
def parseJoins : Nat → Level → Expr → List Operand → Parsed
  | 0, _, _, _ => .error .unexpectedEnd
  | depth + 1, level, left, operands =>
    match operands with
    | .op word :: rest =>
      match level.join? word with
      | some join =>
        match parseLevel depth level.tighter rest with
        | .error e => .error e
        | .ok (right, after) => parseJoins depth level (join left right) after
      | none => .ok (left, operands)
    | _ => .ok (left, operands)

/-- Goes on with the links of a comparison chain. Reference: `parse_comparison`. -/
def parseLinks : Nat → Expr → List (CompareOp × Expr) → List Operand → Parsed
  | 0, _, _, _ => .error .unexpectedEnd
  | depth + 1, first, links, operands =>
    match takeCompareOp? operands with
    | some (op, rest) =>
      match parseLevel depth .bitOr rest with
      | .error e => .error e
      | .ok (right, after) => parseLinks depth first (links ++ [(op, right)]) after
    | none => .ok (.chain first links, operands)

end

/-- Reads all operands as one expression. Between two operands the recursion goes down at most
sixteen calls, so its depth is bounded by their number. -/
def parse (operands : List Operand) : Except Error Expr :=
  if operands.isEmpty then .error .empty
  else match parseLevel (16 * (operands.length + 1)) .or operands with
    | .error e => .error e
    | .ok (expr, []) => .ok expr
    | .ok (_, extra :: _) => .error (.unexpected extra.describe)

end Stencil.Condition
