import Stencil.Template.Action

/-!
# The names a template mentions

Every name that rendering a template may look up can be listed without rendering it: bare words,
and bare words among the arguments of tokens and of filters, in all bodies. The word `in` of a loop
and the filter names of a filter block are no data.
-/

namespace Stencil.Template

/-- The value of an argument that is a name. -/
def Argument.names (a : Argument) : List String := if a.kind = .name then [a.value] else []

/-- The names among the arguments of a token and of its filters. Reference: `collect_arguments`. -/
def Token.argumentNames (t : Token) : List String :=
  t.argument.toList.flatMap Argument.names ++
    t.filters.flatMap fun call => call.arguments.flatMap Argument.names

/-- The names of a token. Reference: `collect`. -/
def Token.names (t : Token) : List String :=
  (if t.kind = .name ∧ !t.isOperator then [t.value] else []) ++ t.argumentNames

/-- The names of the arguments of a loop. -/
def loopNames : List Token → List String
  | first :: second :: rest =>
    first.names ++ (if second.value = "in" then [] else second.names) ++ rest.flatMap Token.names
  | arguments => arguments.flatMap Token.names

mutual

/-- The names of an action. -/
def Action.names : Action → List String
  | .literal _ | .raw .. => []
  | .instruction _ arguments => arguments.flatMap Token.names
  | .forLoop arguments body => loopNames arguments ++ body.names
  | .filterBlock arguments body => arguments.flatMap Token.argumentNames ++ body.names
  | .conditional branches none => branchNames branches
  | .conditional branches (some body) => branchNames branches ++ body.names

/-- The names of a body. Reference: `scan_body`. -/
def Body.names : Body → List String
  | .mk _ actions => actionNames actions

/-- The names of a branch. -/
def Branch.names : Branch → List String
  | .mk condition body => condition.flatMap Token.names ++ body.names

/-- The names of a list of actions. Reference: `scan_into`. -/
def actionNames : List Action → List String
  | [] => []
  | action :: rest => action.names ++ actionNames rest

/-- The names of a list of branches. -/
def branchNames : List Branch → List String
  | [] => []
  | branch :: rest => branch.names ++ branchNames rest

end

/-- A name put into a list in increasing order, unless it is there. -/
def insertName (name : String) : List String → List String
  | [] => [name]
  | other :: rest =>
    if name < other then name :: other :: rest
    else if name = other then other :: rest
    else other :: insertName name rest

/-- The names a template mentions, in increasing order. Reference: `scan`. -/
def scan (actions : List Action) : List String := (actionNames actions).foldr insertName []

end Stencil.Template
