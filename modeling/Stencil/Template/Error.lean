/-!
# Errors of templates

A template that does not compile has one error, at the byte where the tag at fault begins.
-/

namespace Stencil.Template

/-- What is wrong with a template. Reference: `LexErrorKind`. -/
inductive Fault where
  /-- A tag without its closing delimiter. -/
  | unclosedTag
  /-- A quote inside a tag is never closed. -/
  | unclosedString
  /-- A tag with nothing inside. -/
  | emptyTag
  /-- A block has no closing tag. -/
  | unclosedBlock (name : String)
  /-- A closing or continuing tag stands outside all blocks. -/
  | unexpectedClose (name : String)
  /-- A closing tag belongs to another kind of block. -/
  | mismatched (expected found : String)
  /-- A branch comes after the last one. -/
  | elseNotLast
  /-- A tag that needs arguments has none. -/
  | missingArguments (name : String)
  deriving DecidableEq, Repr

/-- The message of a fault. -/
def Fault.message : Fault → String
  | .unclosedTag => "unclosed tag"
  | .unclosedString => "unterminated string literal in tag"
  | .emptyTag => "empty tag"
  | .unclosedBlock name => "`" ++ name ++ "` block is never closed"
  | .unexpectedClose name => "`" ++ name ++ "` has no matching open block"
  | .mismatched expected found => "expected `" ++ expected ++ "`, found `" ++ found ++ "`"
  | .elseNotLast => "`else` must be the last branch of an `if`"
  | .missingArguments name => "`" ++ name ++ "` needs an argument"

/-- A fault and the byte at which its tag begins. Reference: `LexError`. -/
structure Error where
  offset : Nat
  fault : Fault
  deriving DecidableEq, Repr

/-- The message of a template error. -/
def Error.message (e : Error) : String :=
  "template error at byte " ++ toString e.offset ++ ": " ++ e.fault.message

end Stencil.Template
