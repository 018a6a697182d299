/-!
# The syntax of templates

A template is a list of nodes that are rendered in order: texts, references and directives.
Nodes, references and expressions hold one another, since a double-quoted string is a template of
its own and a reference has expressions for its arguments and indexes.
-/

namespace GatewayMapping.Template

/-- A place in a source; lines and columns are counted from one, columns in characters. -/
structure Position where
  line : Nat
  column : Nat
  deriving DecidableEq, Repr, Inhabited

/-- The place of the first character. -/
def Position.start : Position := ⟨1, 1⟩

/-- The place after a character. -/
def Position.after (p : Position) (c : Char) : Position :=
  if c = '\n' then ⟨p.line + 1, 1⟩ else ⟨p.line, p.column + 1⟩

/-- The words after `#` that have a meaning. -/
inductive Directive where
  | assign
  | ifThen
  | elseIf
  | otherwise
  | finish
  | forEach
  | leave
  | stop
  | parse
  | insert
  deriving DecidableEq, Repr, Inhabited

/-- The word of a directive. -/
def Directive.word : Directive → List Char
  | .assign => ['s', 'e', 't']
  | .ifThen => ['i', 'f']
  | .elseIf => ['e', 'l', 's', 'e', 'i', 'f']
  | .otherwise => ['e', 'l', 's', 'e']
  | .finish => ['e', 'n', 'd']
  | .forEach => ['f', 'o', 'r', 'e', 'a', 'c', 'h']
  | .leave => ['b', 'r', 'e', 'a', 'k']
  | .stop => ['s', 't', 'o', 'p']
  | .parse => ['p', 'a', 'r', 's', 'e']
  | .insert => ['i', 'n', 'c', 'l', 'u', 'd', 'e']

/-- A directive as it is written. -/
def Directive.text (d : Directive) : String := String.ofList ('#' :: d.word)

/-- All directives. -/
def Directive.all : List Directive :=
  [.assign, .ifThen, .elseIf, .otherwise, .finish, .forEach, .leave, .stop, .parse, .insert]

/-- The directive of a word. -/
def Directive.ofWord? (word : List Char) : Option Directive :=
  Directive.all.find? fun d => d.word = word

/-- The operators of one operand. -/
inductive UnaryOp where
  | not
  | negate
  deriving DecidableEq, Repr, Inhabited

/-- The sign of an operator of one operand. -/
def UnaryOp.symbol : UnaryOp → List Char
  | .not => ['!']
  | .negate => ['-']

/-- The operators of two operands. -/
inductive BinaryOp where
  | or
  | and
  | eq
  | ne
  | lt
  | le
  | gt
  | ge
  | add
  | sub
  | mul
  | div
  | mod
  deriving DecidableEq, Repr, Inhabited

/-- The sign of an operator of two operands. -/
def BinaryOp.symbol : BinaryOp → List Char
  | .or => ['|', '|']
  | .and => ['&', '&']
  | .eq => ['=', '=']
  | .ne => ['!', '=']
  | .lt => ['<']
  | .le => ['<', '=']
  | .gt => ['>']
  | .ge => ['>', '=']
  | .add => ['+']
  | .sub => ['-']
  | .mul => ['*']
  | .div => ['/']
  | .mod => ['%']

/-- The word that may stand for an operator of two operands. -/
def BinaryOp.word? : BinaryOp → Option (List Char)
  | .or => some ['o', 'r']
  | .and => some ['a', 'n', 'd']
  | .eq => some ['e', 'q']
  | .ne => some ['n', 'e']
  | .lt => some ['l', 't']
  | .le => some ['l', 'e']
  | .gt => some ['g', 't']
  | .ge => some ['g', 'e']
  | .add | .sub | .mul | .div | .mod => none

mutual
/-- A part of a template. -/
inductive Node where
  | text (s : String)
  | reference (r : Reference)
  | assign (target : Reference) (value : Expr) (position : Position)
  /-- The branches of a condition in their order, and what is rendered when none applies. -/
  | conditional (branches : List (Expr × List Node)) (otherwise : Option (List Node))
      (position : Position)
  | forEach (loopVariable : String) (items : Expr) (body : List Node) (position : Position)
  | leave (position : Position)
  | stop (position : Position)
  | parse (name : Expr) (position : Position)
  | insert (name : Expr) (position : Position)

/-- A variable with a path into its value. -/
inductive Reference where
  /-- A quiet reference renders nothing when its value is null; any other one renders `literal`,
  its own source text. -/
  | mk (name : String) (segments : List Segment) (quiet : Bool) (literal : String)
      (position : Position)

/-- A step of the path of a reference. -/
inductive Segment where
  | property (name : String)
  | method (name : String) (args : List Expr)
  | index (i : Expr)

/-- An expression. -/
inductive Expr where
  | null
  | bool (b : Bool)
  | int (n : Int64)
  | float (x : Float)
  | string (s : String)
  /-- A string with references or directives inside. -/
  | interpolated (nodes : List Node)
  | list (items : List Expr)
  | range (first last : Expr)
  | map (entries : List (Expr × Expr))
  | reference (r : Reference)
  | unary (op : UnaryOp) (operand : Expr) (position : Position)
  | binary (op : BinaryOp) (left right : Expr) (position : Position)
end

namespace Reference

/-- The variable of a reference. -/
def name : Reference → String
  | mk name _ _ _ _ => name

/-- The path of a reference. -/
def segments : Reference → List Segment
  | mk _ segments _ _ _ => segments

/-- Whether a reference renders nothing when its value is null. -/
def quiet : Reference → Bool
  | mk _ _ quiet _ _ => quiet

/-- The source text of a reference. -/
def literal : Reference → String
  | mk _ _ _ literal _ => literal

/-- The place of the `$` of a reference. -/
def position : Reference → Position
  | mk _ _ _ _ position => position

/-- Whether a reference is a variable without a path. -/
def isBare (r : Reference) : Bool := r.segments.isEmpty

end Reference

end GatewayMapping.Template
