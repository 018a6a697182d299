import GatewayMapping.Template.Grammar
import GatewayMapping.Text.Search

/-!
# Blocks

A block is read character by character: texts, references, comments and directives. A directive
or a comment that stands alone on its line takes the indentation and the end of the line with it.

`Template.parse` reads a whole source.
-/

namespace GatewayMapping.Template

/-- What has been read of a block, the last first. -/
structure Draft where
  nodes : List Node
  text : List Char

namespace Draft

/-- Nothing yet. -/
def empty : Draft := ⟨[], []⟩

/-- Adds a character of text. -/
def push (d : Draft) (c : Char) : Draft := { d with text := c :: d.text }

/-- Adds text. -/
def append (d : Draft) (cs : List Char) : Draft := { d with text := cs.reverse ++ d.text }

/-- All nodes, the text that is open included, the last first. -/
def closed (d : Draft) : List Node :=
  if d.text.isEmpty then d.nodes else .text (String.ofList d.text.reverse) :: d.nodes

/-- Adds a node. -/
def add (d : Draft) (node : Node) : Draft := ⟨node :: d.closed, []⟩

/-- The nodes in their order. -/
def finish (d : Draft) : List Node := d.closed.reverse

/-- Removes at most `n` blanks at the beginning of a text. -/
def dropBlanks : Nat → List Char → List Char
  | n + 1, c :: cs => if isInlineBlank c then dropBlanks n cs else c :: cs
  | _, cs => cs

/-- Removes an indentation of `n` blanks. -/
def trimIndent (d : Draft) (n : Nat) : Draft := { d with text := dropBlanks n d.text }

end Draft

/-- The number of characters up to the beginning of the next line if nothing but blanks stands
before it. -/
def blankLineEnd? (cs : List Char) : Option Nat :=
  let blanks := (cs.takeWhile isInlineBlank).length
  match cs.dropWhile isInlineBlank with
  | [] => some blanks
  | '\n' :: _ => some (blanks + 1)
  | '\r' :: '\n' :: _ => some (blanks + 2)
  | _ => none

namespace Read

/-- Ends a construct that began with an indentation: if it stands alone on its line, the line goes
with it. -/
def gobble (indent : Option Nat) (d : Draft) : Read Draft := do
  match indent, blankLineEnd? (← rest) with
  | some n, some count =>
    skip count
    return d.trimIndent n
  | _, _ => return d

end Read

namespace Grammar

/-! ### Texts and comments -/

/-- Reads backslashes. Before `$` and `#` two of them stand for one, and one that is left over
makes a text of the character. -/
def escape (d : Draft) : Read Draft := do
  let slashes ← Read.takeWhile (· = '\\')
  match ← Read.peek? with
  | some c =>
    if c = '$' || c = '#' then
      let d := d.append (List.replicate (slashes.length / 2) '\\')
      if slashes.length % 2 = 1 then
        Read.skip 1
        return d.push c
      else return d
    else return d.append slashes
  | none => return d.append slashes

/-- Passes over a comment up to the end of its line. -/
def lineComment (d : Draft) : Read Draft := do
  let indent := (← get).indent
  Read.skipWhile (· ≠ '\n')
  Read.skip 1
  return match indent with
    | some n => d.trimIndent n
    | none => d

/-- Passes over a comment between `#*` and `*#`. -/
def blockComment (d : Draft) : Read Draft := do
  let indent := (← get).indent
  match Text.indexOf? ['*', '#'] ((← Read.rest).drop 2) with
  | some n =>
    Read.skip (n + 4)
    Read.gobble indent d
  | none => Read.fail .unclosedComment

/-- Reads the text between `#[[` and `]]#`. -/
def verbatim (d : Draft) : Read Draft := do
  let content := (← Read.rest).drop 3
  match Text.indexOf? [']', ']', '#'] content with
  | some n =>
    Read.skip (n + 6)
    return d.append (content.take n)
  | none => Read.fail .unclosedVerbatim

/-! ### Directives -/

/-- The directive that a text after `#` begins with, in braces or not, and the number of its
characters. -/
def directive? (cs : List Char) : Option (Directive × Nat) :=
  let braced := cs.head? = some '\x7b'
  let cs := if braced then cs.tail else cs
  let word := cs.takeWhile Char.isAlpha
  if braced && (cs.drop word.length).head? ≠ some '\x7d' then none
  else (Directive.ofWord? word).map fun d => (d, word.length + if braced then 2 else 0)

/-- Passes over the parenthesis that opens the arguments of a directive. -/
def openParen (d : Directive) : Read Unit := do
  Read.skipWhile isInlineBlank
  Read.char '(' (.openParen d)

/-- Passes over the parenthesis that closes the arguments of a directive. -/
def closeParen : Read Unit := do
  Read.skipBlanks
  Read.char ')' (.char ')')

/-- Reads the single argument of a directive. -/
def argument (inner : Inner) (d : Directive) : Read Expr := do
  openParen d
  let e ← inner.expr
  closeParen
  return e

/-- Reads a target and its value. -/
def assignment (inner : Inner) : Read (Reference × Expr) := do
  openParen .assign
  Read.skipBlanks
  let target ← reference inner
  Read.skipBlanks
  match ← Read.rest with
  | '=' :: '=' :: _ => Read.unexpected .assignSign
  | '=' :: _ =>
    Read.skip 1
    let value ← inner.expr
    closeParen
    return (target, value)
  | _ => Read.unexpected .assignSign

/-- Reads a loop variable and what it runs over. -/
def loopHead (inner : Inner) : Read (String × Expr) := do
  openParen .forEach
  Read.skipBlanks
  let r ← reference inner
  if r.isBare then
    Read.skipBlanks
    if ← Read.wholeWord ['i', 'n'] then
      let items ← inner.expr
      closeParen
      return (r.name, items)
    else Read.unexpected .inWord
  else Read.failAt r.position (.loopVariable r.literal)

/-- Stops at the end of the text inside a block. -/
def unfinished {α : Type} (d : Directive) (opened : Position) : Read α :=
  Read.unexpected (.finish d opened)

/-- Reads the blocks of a condition. -/
def branches (inner : Inner) (opened : Position) : (limit : Nat) → Expr →
    Read (List (Expr × List Node) × Option (List Node))
  | 0, _ => unfinished .ifThen opened
  | limit + 1, condition => do
    let body ← inner.block
    match body.ending with
    | .endOfText => unfinished .ifThen opened
    | .finish _ => return ([(condition, body.nodes)], none)
    | .elseIf next _ =>
      let (more, last) ← branches inner opened limit next
      return ((condition, body.nodes) :: more, last)
    | .otherwise _ =>
      let last ← inner.block
      match last.ending with
      | .endOfText => unfinished .ifThen opened
      | .finish _ => return ([(condition, body.nodes)], some last.nodes)
      | .otherwise position | .elseIf _ position => Read.failAt position .secondOtherwise

/-- Reads the body of a loop. -/
def loopBody (inner : Inner) (opened : Position) : Read (List Node) := do
  let body ← inner.block
  match body.ending with
  | .endOfText => unfinished .forEach opened
  | .finish _ => return body.nodes
  | .otherwise position | .elseIf _ position => Read.failAt position .otherwiseInLoop

/-- A block that goes on with a draft, or one that has ended. -/
inductive Step where
  | goOn (draft : Draft)
  | done (block : Block)

/-- Reads a directive after its word. It began at a place with an indentation. -/
def directive (inner : Inner) (position : Position) (indent : Option Nat) (d : Draft) :
    Directive → Read Step
  | .assign => do
    let (target, value) ← assignment inner
    let d ← Read.gobble indent d
    return .goOn (d.add (.assign target value position))
  | .ifThen => do
    let condition ← argument inner .ifThen
    let d ← Read.gobble indent d
    let (bodies, last) ← branches inner position (inner.limit + 1) condition
    return .goOn (d.add (.conditional bodies last position))
  | .elseIf => do
    let condition ← argument inner .elseIf
    let d ← Read.gobble indent d
    return .done ⟨d.finish, .elseIf condition position⟩
  | .otherwise => do
    let d ← Read.gobble indent d
    return .done ⟨d.finish, .otherwise position⟩
  | .finish => do
    let d ← Read.gobble indent d
    return .done ⟨d.finish, .finish position⟩
  | .forEach => do
    let (loopVariable, items) ← loopHead inner
    let d ← Read.gobble indent d
    let body ← loopBody inner position
    return .goOn (d.add (.forEach loopVariable items body position))
  | .leave => do
    let d ← Read.gobble indent d
    return .goOn (d.add (.leave position))
  | .stop => do
    let d ← Read.gobble indent d
    return .goOn (d.add (.stop position))
  | .parse => do
    let name ← argument inner .parse
    let d ← Read.gobble indent d
    return .goOn (d.add (.parse name position))
  | .insert => do
    let name ← argument inner .insert
    let d ← Read.gobble indent d
    return .goOn (d.add (.insert name position))

/-- Reads what begins with `#`. -/
def hash (inner : Inner) (d : Draft) : Read Step := do
  match (← Read.rest).tail with
  | '#' :: _ => return .goOn (← lineComment d)
  | '*' :: _ => return .goOn (← blockComment d)
  | '[' :: '[' :: _ => return .goOn (← verbatim d)
  | cs =>
    match directive? cs with
    | some (word, length) =>
      let start ← get
      Read.skip (length + 1)
      directive inner start.position start.indent d word
    | none =>
      Read.skip 1
      return .goOn (d.push '#')

/-! ### Blocks -/

/-- Reads one part of a block. -/
def step (inner : Inner) (d : Draft) : Read Step := do
  match ← Read.peek? with
  | none => return .done ⟨d.finish, .endOfText⟩
  | some '\\' => return .goOn (← escape d)
  | some '$' =>
    match ← reference? inner with
    | some r => return .goOn (d.add (.reference r))
    | none =>
      Read.skip 1
      return .goOn (d.push '$')
  | some '#' => hash inner d
  | some c =>
    Read.skip 1
    return .goOn (d.push c)

/-- Reads the rest of a block. -/
def blockFrom (inner : Inner) : (limit : Nat) → Draft → Read Block
  | 0, d => return ⟨d.finish, .endOfText⟩
  | limit + 1, d => do
    match ← step inner d with
    | .goOn d => blockFrom inner limit d
    | .done b => return b

/-- Reads a block. -/
def block (inner : Inner) : Read Block := blockFrom inner (inner.limit + 1) .empty

end Grammar

/-- The readers for where at most a number of characters is left. Where none is left, an
expression is missing and a block ends. -/
def Inner.upTo : Nat → Inner
  | 0 => ⟨0, Read.unexpected .expression, return ⟨[], .endOfText⟩⟩
  | limit + 1 =>
    ⟨limit + 1, fun cur => Grammar.expr (upTo limit) cur, fun cur => Grammar.block (upTo limit) cur⟩

/-- The nodes of a source. -/
def parse (source : String) : Except SyntaxError (List Node) := do
  let cs := source.toList
  let (block, _) ← (Inner.upTo cs.length).block.run (.ofChars cs .start)
  block.whole

end GatewayMapping.Template
