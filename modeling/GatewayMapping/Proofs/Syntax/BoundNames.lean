import GatewayMapping.Template.Syntax

/-!
# The variables that a template may bind

An assignment to a variable without a path binds the variable, and a loop binds its own one. Both
may stand anywhere in a template, also in the double-quoted strings of arguments, indexes and
targets. `Node.boundNames` lists all these variables; the ones that tell about the rounds of
loops are not among them.

## Main definitions

* `Node.boundNames`, `Reference.boundNames`, `Segment.boundNames`, `Expr.boundNames`.
-/

namespace GatewayMapping.Template

/-- The variable that an assignment to a target binds: none if the target has a path. -/
def Reference.ownNames (r : Reference) : List String := if r.isBare then [r.name] else []

mutual

/-- All variables that are bound somewhere in a node. -/
def Node.boundNames : Node → List String
  | .text _ => []
  | .reference r => r.boundNames
  | .assign target value _ => target.ownNames ++ (target.boundNames ++ value.boundNames)
  | .conditional branches none _ => branchesBoundNames branches
  | .conditional branches (some ns) _ => branchesBoundNames branches ++ nodesBoundNames ns
  | .forEach loopVariable items body _ =>
    loopVariable :: (items.boundNames ++ nodesBoundNames body)
  | .leave _ => []
  | .stop _ => []
  | .parse name _ => name.boundNames
  | .insert name _ => name.boundNames

def nodesBoundNames : List Node → List String
  | [] => []
  | n :: ns => n.boundNames ++ nodesBoundNames ns

def branchesBoundNames : List (Expr × List Node) → List String
  | [] => []
  | (condition, ns) :: branches =>
    condition.boundNames ++ (nodesBoundNames ns ++ branchesBoundNames branches)

/-- All variables that are bound somewhere in the path of a reference. -/
def Reference.boundNames : Reference → List String
  | .mk _ segments _ _ _ => segmentsBoundNames segments

def segmentsBoundNames : List Segment → List String
  | [] => []
  | s :: segments => s.boundNames ++ segmentsBoundNames segments

/-- All variables that are bound somewhere in a step of a path. -/
def Segment.boundNames : Segment → List String
  | .property _ => []
  | .method _ args => exprsBoundNames args
  | .index i => i.boundNames

def exprsBoundNames : List Expr → List String
  | [] => []
  | e :: es => e.boundNames ++ exprsBoundNames es

def entriesBoundNames : List (Expr × Expr) → List String
  | [] => []
  | (key, value) :: entries =>
    key.boundNames ++ (value.boundNames ++ entriesBoundNames entries)

/-- All variables that are bound somewhere in an expression. -/
def Expr.boundNames : Expr → List String
  | .null => []
  | .bool _ => []
  | .int _ => []
  | .float _ => []
  | .string _ => []
  | .interpolated nodes => nodesBoundNames nodes
  | .list items => exprsBoundNames items
  | .range first last => first.boundNames ++ last.boundNames
  | .map entries => entriesBoundNames entries
  | .reference r => r.boundNames
  | .unary _ operand _ => operand.boundNames
  | .binary _ left right _ => left.boundNames ++ right.boundNames

end

/-- A loop in double quotes, in an index of a target, binds its variable. -/
example :
    (Node.assign (.mk "a" [.index (.interpolated [.forEach "x" .null [] .start])] false "" .start)
      .null .start).boundNames = ["x"] := by
  decide +kernel

end GatewayMapping.Template
