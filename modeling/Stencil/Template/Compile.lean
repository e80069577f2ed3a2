import Stencil.Template.Action
import Stencil.Template.Piece

/-!
# Compiling templates

The pieces of a template are read from the left, with a stack of the blocks that are still open.
Each piece takes one step: it adds an action, opens a block, goes on to the next branch of a
conditional, or closes the innermost block. Reading two lists of pieces one after the other is
reading them put together.
-/

namespace Stencil.Template

/-- A body while it is being read. -/
structure Draft where
  /-- The template text read so far. -/
  source : List Char
  /-- The actions read so far. -/
  actions : List Action

/-- Nothing read yet. -/
def Draft.empty : Draft := ⟨[], []⟩

/-- A draft as a finished body. -/
def Draft.body (d : Draft) : Body := .mk (String.ofList d.source) d.actions

/-- The part of a block that is being read. -/
inductive BlockPart where
  | forLoop (arguments : List Token)
  | filterBlock (arguments : List Token)
  /-- A branch with its condition, after the branches before it. -/
  | branch (earlier : List Branch) (condition : List Token)
  /-- The branch without a condition, after the branches before it. -/
  | otherwise (earlier : List Branch)

/-- The name of the tag that opens a block. -/
def BlockPart.opener : BlockPart → String
  | .forLoop _ => "for"
  | .filterBlock _ => "filter"
  | .branch .. | .otherwise _ => "if"

/-- The name of the tag that closes a block. -/
def BlockPart.closer (part : BlockPart) : String := "end" ++ part.opener

/-- The action of a block whose last part has been read. -/
def BlockPart.action (part : BlockPart) (body : Body) : Action :=
  match part with
  | .forLoop arguments => .forLoop arguments body
  | .filterBlock arguments => .filterBlock arguments body
  | .branch earlier condition => .conditional (earlier ++ [.mk condition body]) none
  | .otherwise earlier => .conditional earlier (some body)

/-- A block that is not closed yet. -/
structure OpenBlock where
  /-- The byte at which its opening tag begins. -/
  start : Nat
  part : BlockPart
  /-- What has been read around it, its own tags and finished parts included in the text. -/
  around : Draft

/-- What has been read of a template: the innermost body and the blocks around it, innermost
first. -/
structure Reading where
  draft : Draft
  blocks : List OpenBlock

/-- Nothing read yet. -/
def Reading.empty : Reading := ⟨.empty, []⟩

/-- The tokens of a tag's arguments. -/
def tokens (arguments : List Char) : List Token :=
  (splitArguments arguments).map (Token.parse · false)

/-- The tokens of a condition, of which there must be one. Reference: `condition`. -/
def condition (name : String) (offset : Nat) (arguments : List Char) :
    Except Error (List Token) :=
  match (splitCondition arguments).map (Token.parse · true) with
  | [] => .error ⟨offset, .missingArguments name⟩
  | token :: rest => .ok (token :: rest)

namespace Reading

/-- Adds an action to the innermost body. -/
def add (r : Reading) (source : List Char) (action : Action) : Reading :=
  { r with draft := ⟨r.draft.source ++ source, r.draft.actions ++ [action]⟩ }

/-- Opens a block. Reference: `parse_block`. -/
def openBlock (r : Reading) (piece : Piece) (part : BlockPart) : Reading :=
  ⟨.empty, ⟨piece.start, part, ⟨r.draft.source ++ piece.source, r.draft.actions⟩⟩ :: r.blocks⟩

/-- Goes on to the next part of the innermost block, whose part so far is finished.
Reference: `parse_if`. -/
def nextPart (r : Reading) (piece : Piece) (block : OpenBlock) (rest : List OpenBlock)
    (part : BlockPart) : Reading :=
  let around : Draft :=
    ⟨block.around.source ++ r.draft.source ++ piece.source, block.around.actions⟩
  ⟨.empty, ⟨block.start, part, around⟩ :: rest⟩

/-- Closes the innermost block. Reference: `parse_body`. -/
def closeBlock (r : Reading) (piece : Piece) (block : OpenBlock) (rest : List OpenBlock) :
    Reading :=
  ⟨⟨block.around.source ++ r.draft.source ++ piece.source,
    block.around.actions ++ [block.part.action r.draft.body]⟩, rest⟩

/-- Reads a tag that continues or closes the innermost block. -/
def continueBlock (r : Reading) (piece : Piece) (name : String) (arguments : List Char)
    (block : OpenBlock) (rest : List OpenBlock) : Except Error Reading :=
  if name = block.part.closer then .ok (r.closeBlock piece block rest)
  else match block.part, TagRole.ofName name with
    | .branch earlier cond, .elif => do
      let next ← condition "elif" piece.start arguments
      .ok (r.nextPart piece block rest (.branch (earlier ++ [.mk cond r.draft.body]) next))
    | .branch earlier cond, .otherwise =>
      .ok (r.nextPart piece block rest (.otherwise (earlier ++ [.mk cond r.draft.body])))
    | .otherwise _, .elif | .otherwise _, .otherwise => .error ⟨piece.start, .elseNotLast⟩
    | part, _ => .error ⟨piece.start, .mismatched part.closer name⟩

/-- Reads a tag. Reference: `parse_sequence`. -/
def readTag (r : Reading) (piece : Piece) (name : String) (arguments : List Char) :
    Except Error Reading :=
  match TagRole.ofName name with
  | .raw kind => .ok (r.add piece.source (.raw kind (String.ofList arguments)))
  | .instruction kind => .ok (r.add piece.source (.instruction kind (tokens arguments)))
  | .openFor => .ok (r.openBlock piece (.forLoop (tokens arguments)))
  | .openFilter => .ok (r.openBlock piece (.filterBlock (tokens arguments)))
  | .openIf => do
    let cond ← condition "if" piece.start arguments
    .ok (r.openBlock piece (.branch [] cond))
  | .elif | .otherwise | .close =>
    match r.blocks with
    | [] => .error ⟨piece.start, .unexpectedClose name⟩
    | block :: rest => r.continueBlock piece name arguments block rest

/-- Reads one piece. -/
def step (r : Reading) (piece : Piece) : Except Error Reading :=
  match piece.kind with
  | .text => .ok (r.add piece.source (.literal (String.ofList piece.source)))
  | .emit content => .ok (r.add piece.source (.instruction .replace [Token.parse content false]))
  | .comment content => .ok (r.add piece.source (.raw .comment (String.ofList content)))
  | .tag name arguments => r.readTag piece name arguments

/-- The actions read, if no block is left open. -/
def finish (r : Reading) : Except Error (List Action) :=
  match r.blocks with
  | [] => .ok r.draft.actions
  | block :: _ => .error ⟨block.start, .unclosedBlock block.part.opener⟩

end Reading

/-- The actions of a list of pieces. -/
def ofPieces (ps : List Piece) : Except Error (List Action) := do
  let reading ← ps.foldlM Reading.step .empty
  reading.finish

/-- Compiles template text. With `trim` a line break right after a tag is dropped.
Reference: `lex`. -/
def compile (trim : Bool) (template : String) : Except Error (List Action) := do
  let ps ← pieces trim template
  ofPieces ps

end Stencil.Template
