import Stencil.Template.Token

/-!
# Compiled templates

A template compiles to a list of actions. Blocks own a body; a body keeps the template text
between its tags beside the actions that text compiles to.
-/

namespace Stencil.Template

/-- The tags whose content is kept as it is. -/
inductive Raw where
  | comment
  | copy
  | ignore
  deriving DecidableEq, Repr

/-- The tags that stand alone and have words as arguments. -/
inductive Instruction where
  | firstof
  | length
  | replace
  | useDataset
  | useTemplate
  /-- A tag of an unknown name, which does nothing. -/
  | unknown (name : String)
  deriving DecidableEq, Repr

mutual

/-- One step of rendering. -/
inductive Action where
  /-- Plain text. -/
  | literal (text : String)
  | raw (kind : Raw) (content : String)
  | instruction (kind : Instruction) (arguments : List Token)
  | forLoop (arguments : List Token) (body : Body)
  | filterBlock (arguments : List Token) (body : Body)
  /-- The branches with conditions, of which there is at least one, and the branch without. -/
  | conditional (branches : List Branch) (otherwise : Option Body)

/-- What a block encloses. -/
inductive Body where
  | mk (text : String) (actions : List Action)

/-- A condition and what it guards. -/
inductive Branch where
  | mk (condition : List Token) (body : Body)

end

/-- The template text of a body. -/
def Body.text : Body → String
  | .mk text _ => text

/-- The actions of a body. -/
def Body.actions : Body → List Action
  | .mk _ actions => actions

/-- The condition of a branch. -/
def Branch.condition : Branch → List Token
  | .mk condition _ => condition

/-- The body of a branch. -/
def Branch.body : Branch → Body
  | .mk _ body => body

/-- The name of a raw tag. -/
def Raw.name : Raw → String
  | .comment => "comment"
  | .copy => "copy"
  | .ignore => "ignore"

/-- The name of an instruction. -/
def Instruction.name : Instruction → String
  | .firstof => "firstof"
  | .length => "length"
  | .replace => "replace"
  | .useDataset => "usedataset"
  | .useTemplate => "usetemplate"
  | .unknown name => name

/-- What a tag's name says about it. -/
inductive TagRole where
  | raw (kind : Raw)
  | instruction (kind : Instruction)
  | openFor
  | openFilter
  | openIf
  | elif
  | otherwise
  | close

/-- The role of a tag. Reference: `DirectiveKind`, `TERMINATORS`. -/
def TagRole.ofName : String → TagRole
  | "comment" => .raw .comment
  | "copy" => .raw .copy
  | "ignore" => .raw .ignore
  | "firstof" => .instruction .firstof
  | "length" => .instruction .length
  | "replace" => .instruction .replace
  | "usedataset" => .instruction .useDataset
  | "usetemplate" => .instruction .useTemplate
  | "for" => .openFor
  | "filter" => .openFilter
  | "if" => .openIf
  | "elif" => .elif
  | "else" => .otherwise
  | "endif" => .close
  | "endfor" => .close
  | "endfilter" => .close
  | name => .instruction (.unknown name)

end Stencil.Template
