import GatewayMapping.Method.Error
import GatewayMapping.Template.SyntaxError

/-!
# Errors of rendering

Why a template cannot be rendered, and where. The wording of an error is found from its cause;
`Report` is an error with its wording, for those who read only that.
-/

namespace GatewayMapping.Template

/-- The member of a value that a step of a path asks for. -/
inductive Member where
  | property (name : String)
  | method (name : String)
  | index
  deriving DecidableEq, Repr, Inhabited

/-- The name of a member. -/
def Member.name : Member → String
  | .property name => name
  | .method name => name
  | .index => "get"

/-- A member as causes show it. -/
def Member.label : Member → String
  | .property name => name ++ " (property)"
  | .method name => name ++ "()"
  | .index => "get()"

/-- Why a path cannot be followed. The path walked so far comes first. -/
inductive PathFault where
  | onNull (path : String) (member : Member)
  | noMember (path : String) (member : Member) (typeName : String)
  | failed (path : String) (member : Member) (typeName : String) (fault : MethodFault)
  deriving DecidableEq, Repr, Inhabited

/-- The wording of a fault. -/
def PathFault.message : PathFault → String
  | .onNull _ member => "Attempted to access '" ++ member.name ++ "' on a null value"
  | .noMember _ (.property name) typeName =>
    "Object '" ++ typeName ++ "' does not contain property '" ++ name ++ "'"
  | .noMember _ member typeName =>
    "Object '" ++ typeName ++ "' does not contain method " ++ member.label
  | .failed _ member typeName _ =>
    "Invocation of method '" ++ member.name ++ "' on " ++ typeName ++ " threw exception"

/-- The wording of what is behind a fault. -/
def PathFault.causeText : PathFault → String
  | .onNull path member => path ++ "." ++ member.label ++ ": " ++ path ++ " is null"
  | .noMember path member typeName =>
    path ++ "." ++ member.label ++ ": no matching member on " ++ typeName
  | .failed path member _ fault => path ++ "." ++ member.label ++ ": " ++ fault.message

/-- Why a template cannot be rendered. -/
inductive RenderFault where
  /-- The source is no template. -/
  | malformed (fault : SyntaxFault)
  /-- A variable is not bound. -/
  | undefined (variableName reference : String)
  | path (fault : PathFault) (reference : String)
  /-- There is no resource of a name, which may have been given by a reference. -/
  | noResource (name : String) (reference : Option String)
  /-- Resources are read inside one another to the given depth. -/
  | tooDeep (depth : Nat)
  | nullOperand (operand : String)
  | nullSide (isLeft : Bool) (operand : String) (op : BinaryOp)
  | notComparable (left right : String) (op : BinaryOp)
  | assignToMethod (target : String)
  | listIndex (target : String)
  | assignOn (target typeName : String)
  deriving DecidableEq, Repr, Inhabited

/-- The wording of a fault. -/
def RenderFault.message : RenderFault → String
  | .malformed fault => fault.message
  | .undefined variableName _ => "Variable $" ++ variableName ++ " reference is not defined"
  | .path fault _ => fault.message
  | .noResource name reference =>
    "Unable to find resource '" ++ name ++ "'" ++
      match reference with
      | some literal => " referenced by " ++ literal
      | none => ""
  | .tooDeep depth => "Max recursion depth reached (" ++ toString depth ++ ") for #parse"
  | .nullOperand operand => "Operand (" ++ operand ++ ") of unary '-' has null value"
  | .nullSide isLeft operand op =>
    (if isLeft then "Left" else "Right") ++ " side (" ++ operand ++ ") of '" ++
      String.ofList op.symbol ++ "' operation has null value"
  | .notComparable left right op =>
    "Cannot compare " ++ left ++ " with " ++ right ++ " using '" ++
      String.ofList op.symbol ++ "'"
  | .assignToMethod target => "Cannot assign to method call " ++ target
  | .listIndex target => "List index in " ++ target ++ " must be an integer"
  | .assignOn target typeName => "Cannot assign " ++ target ++ " on " ++ typeName

/-- A fault with its place. -/
structure RenderError where
  template : String
  position : Position
  fault : RenderFault
  deriving DecidableEq, Repr, Inhabited

/-- The kinds of errors, with what is told of the ones that have more to tell. -/
inductive Report.Kind where
  | malformed
  | invocation (reference : String) (cause : Option String)
  | resource (name : String)
  | runtime
  deriving DecidableEq, Repr, Inhabited

/-- An error in words. -/
structure Report where
  kind : Report.Kind
  template : String
  message : String
  position : Position
  deriving DecidableEq, Repr, Inhabited

namespace Report

/-- A message with its place. -/
def text (r : Report) : String :=
  r.message ++ " at " ++ r.template ++ "[line " ++ toString r.position.line ++ ", column " ++
    toString r.position.column ++ "]"

/-- What is behind an error. -/
def cause? (r : Report) : Option String :=
  match r.kind with
  | .invocation _ cause => cause
  | _ => none

end Report

/-- The kind of a fault. -/
def RenderFault.kind : RenderFault → Report.Kind
  | .malformed _ => .malformed
  | .undefined _ reference => .invocation reference none
  | .path fault reference => .invocation reference (some fault.causeText)
  | .noResource name _ => .resource name
  | _ => .runtime

/-- An error in words. -/
def RenderError.report (e : RenderError) : Report :=
  ⟨e.fault.kind, e.template, e.fault.message, e.position⟩

/-- An error of syntax in a template. -/
def SyntaxError.inTemplate (e : SyntaxError) (template : String) : RenderError :=
  ⟨template, e.position, .malformed e.fault⟩

end GatewayMapping.Template
