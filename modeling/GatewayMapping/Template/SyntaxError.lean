import GatewayMapping.Template.Syntax

/-!
# Errors of syntax

Why a source is no template, and where. `SyntaxFault.message` has the wording.
-/

namespace GatewayMapping.Template

/-- What stands at a place of a source. -/
inductive Found where
  | endOfText
  | char (c : Char)
  | word (cs : List Char)
  deriving DecidableEq, Repr, Inhabited

/-- What stands at the beginning of a text. -/
def Found.ofChars : List Char → Found
  | [] => .endOfText
  | c :: _ => .char c

/-- The text of what stands at a place. -/
def Found.text : Found → String
  | .endOfText => "<EOF>"
  | .char c => c.toString
  | .word cs => String.ofList cs

/-- What should stand at a place of a source. -/
inductive Expected where
  | char (c : Char)
  | openParen (directive : Directive)
  | assignSign
  | inWord
  | reference
  | closeBrace
  | expression
  | argument
  | listItem
  | mapEntry
  /-- The end of a block, with its directive and the place where it was opened. -/
  | finish (directive : Directive) (opened : Position)
  deriving DecidableEq, Repr, Inhabited

/-- The wording for what should stand at a place. -/
def Expected.text : Expected → String
  | .char c => "\"" ++ c.toString ++ "\""
  | .openParen d => "\"(\" after " ++ d.text
  | .assignSign => "\"=\" in #set"
  | .inWord => "\"in\" in #foreach"
  | .reference => "a reference"
  | .closeBrace => "\"\x7d\" to close the reference"
  | .expression => "an expression"
  | .argument => "\",\" or \")\" in the argument list"
  | .listItem => "\",\" or \"]\" in the list"
  | .mapEntry => "\",\" or \"\x7d\" in the map"
  | .finish d opened =>
    "#end for " ++ d.text ++ " opened at line " ++ toString opened.line ++ ", column " ++
      toString opened.column

/-- Why a source is no template. -/
inductive SyntaxFault where
  | unexpected (found : Found) (expected : Expected)
  | strayFinish
  | strayOtherwise
  | secondOtherwise
  | otherwiseInLoop
  | unclosedComment
  | unclosedVerbatim
  | unclosedString
  /-- A loop over a reference with a path; `literal` is its source text. -/
  | loopVariable (literal : String)
  deriving DecidableEq, Repr, Inhabited

/-- The wording of a fault. -/
def SyntaxFault.message : SyntaxFault → String
  | .unexpected found expected =>
    "Encountered \"" ++ found.text ++ "\" but was expecting " ++ expected.text
  | .strayFinish => "Encountered \"#end\" without a matching #if or #foreach"
  | .strayOtherwise => "Encountered \"#else\" outside of an #if block"
  | .secondOtherwise => "Encountered \"#else\" after the #else branch of an #if block"
  | .otherwiseInLoop => "Encountered \"#else\" inside a #foreach block"
  | .unclosedComment => "Encountered \"<EOF>\" inside a #* comment *#"
  | .unclosedVerbatim => "Encountered \"<EOF>\" inside a #[[ unparsed ]]# block"
  | .unclosedString => "Encountered \"<EOF>\" inside a string literal"
  | .loopVariable literal => "#foreach needs a simple loop variable, found " ++ literal

/-- A fault with its place. -/
structure SyntaxError where
  fault : SyntaxFault
  position : Position
  deriving DecidableEq, Repr, Inhabited

end GatewayMapping.Template
