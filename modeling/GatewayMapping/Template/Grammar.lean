import GatewayMapping.Json.Reader
import GatewayMapping.Template.Reader

/-!
# Expressions and references

Expressions and references are read over given readers for what lies inside brackets and quotes,
so that each function here is a plain definition; `Template.Block` ties the knot. Inside brackets
and quotes fewer characters are left than outside, and `Inner.limit` bounds their number.

The operators of two operands form levels, the loosest first. All of them group to the left.
-/

namespace GatewayMapping.Template

/-- How a block ends. -/
inductive Ending where
  | endOfText
  | finish (position : Position)
  | otherwise (position : Position)
  | elseIf (condition : Expr) (position : Position)

/-- The nodes of a block and how it ends. -/
structure Block where
  nodes : List Node
  ending : Ending

/-- The nodes of a block that has to end with the text. -/
def Block.whole (b : Block) : Except SyntaxError (List Node) :=
  match b.ending with
  | .endOfText => .ok b.nodes
  | .finish position => .error ⟨.strayFinish, position⟩
  | .otherwise position | .elseIf _ position => .error ⟨.strayOtherwise, position⟩

/-- Readers for what lies inside other syntax, where at most `limit` characters are left. -/
structure Inner where
  limit : Nat
  expr : Read Expr
  block : Read Block

namespace Grammar

/-! ### Literals -/

/-- The value of a number that has digits of a whole part and may have digits of a fraction. -/
def numberValue (whole : List Char) (fraction : Option (List Char)) : Expr :=
  let n := Json.Read.digitsValue (whole ++ fraction.getD [])
  if fraction.isNone && n < Nat.pow 2 63 then .int (.ofNat n)
  else
    match Json.Read.nearestDouble? n (-(fraction.getD []).length) with
    | some x => .float x
    | none => .float (1.0 / 0.0)

/-- Reads a number without a sign. -/
def number : Read Expr := do
  let whole ← Read.takeWhile Char.isDigit
  match ← Read.rest with
  | '.' :: c :: _ =>
    if c.isDigit then
      Read.skip 1
      return numberValue whole (some (← Read.takeWhile Char.isDigit))
    else return numberValue whole none
  | _ => return numberValue whole none

/-- Reads a text in double quotes, which is a template when it holds `$` or `#`. -/
def doubleQuoted (inner : Inner) : Read Expr := do
  let base := (← Read.here).after '"'
  let content ← Read.quoted '"'
  if content.contains '$' || content.contains '#' then
    let (block, _) ← inner.block.run (.ofChars content base)
    return .interpolated (← block.whole)
  else return .string (String.ofList content)

/-- Reads an array or a range. -/
def list (inner : Inner) : Read Expr := do
  Read.skip 1
  Read.skipBlanks
  if (← Read.peek?) = some ']' then
    Read.skip 1
    return .list []
  else
    let first ← inner.expr
    Read.skipBlanks
    if ← Read.sign ['.', '.'] then
      let last ← inner.expr
      Read.skipBlanks
      Read.char ']' (.char ']')
      return .range first last
    else return .list (first :: (← Read.itemsAfter inner.expr ']' .listItem inner.limit))

/-- Reads a key and its value. -/
def entry (inner : Inner) : Read (Expr × Expr) := do
  let key ← inner.expr
  Read.skipBlanks
  Read.char ':' (.char ':')
  return (key, ← inner.expr)

/-- Reads a map. -/
def map (inner : Inner) : Read Expr := do
  Read.skip 1
  return .map (← Read.items (entry inner) '\x7d' .mapEntry inner.limit)

/-! ### References -/

/-- Reads the path of a reference. -/
def segments (inner : Inner) : (limit : Nat) → Read (List Segment)
  | 0 => return []
  | limit + 1 => do
    match ← Read.rest with
    | '.' :: c :: _ =>
      if isNameStart c then
        Read.skip 1
        let member ← Read.name
        if (← Read.peek?) = some '(' then
          Read.skip 1
          let args ← Read.items inner.expr ')' .argument inner.limit
          return .method member args :: (← segments inner limit)
        else return .property member :: (← segments inner limit)
      else return []
    | '[' :: _ =>
      Read.skip 1
      let i ← inner.expr
      Read.skipBlanks
      Read.char ']' (.char ']')
      return .index i :: (← segments inner limit)
    | _ => return []

/-- How a reference begins. -/
structure Sigil where
  quiet : Bool
  braced : Bool
  deriving DecidableEq, Repr

/-- The number of characters of the beginning of a reference. -/
def Sigil.length (s : Sigil) : Nat := 1 + s.quiet.toNat + s.braced.toNat

/-- How a reference begins after its `$`, if a name follows. -/
def sigil? (cs : List Char) : Option Sigil :=
  let quiet := cs.head? = some '!'
  let cs := if quiet then cs.tail else cs
  let braced := cs.head? = some '\x7b'
  let cs := if braced then cs.tail else cs
  if cs.head?.any isNameStart then some ⟨quiet, braced⟩ else none

/-- Reads a reference after its `$`, which stands here, has been found to begin one. -/
def referenceAfter (inner : Inner) (s : Sigil) : Read Reference := do
  let start ← get
  Read.skip s.length
  let name ← Read.name
  let path ← segments inner (inner.limit + 1)
  if s.braced then Read.char '\x7d' .closeBrace
  return .mk name path s.quiet (String.ofList (start.upTo (← get))) start.position

/-- Reads a reference if a `$` that stands here begins one. -/
def reference? (inner : Inner) : Read (Option Reference) := do
  match sigil? (← Read.rest).tail with
  | some s => return some (← referenceAfter inner s)
  | none => return none

/-- Reads a reference. -/
def reference (inner : Inner) : Read Reference := do
  if (← Read.peek?) = some '$' then
    match ← reference? inner with
    | some r => return r
    | none => Read.unexpected .reference
  else Read.unexpected .reference

/-! ### Operators -/

/-- Reads the word of a constant. -/
def constant : Read Expr := do
  if ← Read.wholeWord ['t', 'r', 'u', 'e'] then return .bool true
  else if ← Read.wholeWord ['f', 'a', 'l', 's', 'e'] then return .bool false
  else if ← Read.wholeWord ['n', 'u', 'l', 'l'] then return .null
  else
    let position ← Read.here
    let word ← Read.takeWhile isNameChar
    Read.failAt position (.unexpected (.word word) .expression)

/-- Reads an expression without operators. -/
def primary (inner : Inner) : Read Expr := do
  Read.skipBlanks
  match ← Read.peek? with
  | none => Read.unexpected .expression
  | some '(' =>
    Read.skip 1
    let e ← inner.expr
    Read.skipBlanks
    Read.char ')' (.char ')')
    return e
  | some '\'' => return .string (String.ofList (← Read.quoted '\''))
  | some '"' => doubleQuoted inner
  | some '[' => list inner
  | some '\x7b' => map inner
  | some '$' => return .reference (← reference inner)
  | some c =>
    if c.isDigit then number
    else if isNameStart c then constant
    else Read.unexpected .expression

/-- Reads an operator of one operand if one stands here. -/
def unaryOp? : Read (Option UnaryOp) := do
  match ← Read.rest with
  | '!' :: '=' :: _ => return none
  | '!' :: _ =>
    Read.skip 1
    return some .not
  | cs =>
    if ← Read.wholeWord ['n', 'o', 't'] then return some .not
    else if cs.head? = some '-' then
      Read.skip 1
      return some .negate
    else return none

/-- Reads an operand with the operators of one operand before it. -/
def unary (inner : Inner) : (limit : Nat) → Read Expr
  | 0 => primary inner
  | limit + 1 => do
    Read.skipBlanks
    let position ← Read.here
    match ← unaryOp? with
    | some op => return .unary op (← unary inner limit) position
    | none => primary inner

/-- The operators of two operands, the loosest level first. Within a level a longer sign stands
before its beginning. -/
def levels : List (List BinaryOp) :=
  [[.or], [.and], [.eq, .ne], [.le, .ge, .lt, .gt], [.add, .sub], [.mul, .div, .mod]]

/-- Reads one of some operators if it stands here. -/
def binaryOp? : List BinaryOp → Read (Option BinaryOp)
  | [] => return none
  | op :: ops => do
    if ← Read.sign op.symbol then return some op
    else
      match op.word? with
      | some word => if ← Read.wholeWord word then return some op else binaryOp? ops
      | none => binaryOp? ops

/-- Reads what follows an operand of a level: operators of the level with their right operands. -/
def chain (operand : Read Expr) (ops : List BinaryOp) : (limit : Nat) → Expr → Read Expr
  | 0, left => return left
  | limit + 1, left => do
    Read.skipBlanks
    let position ← Read.here
    match ← binaryOp? ops with
    | some op => chain operand ops limit (.binary op left (← operand) position)
    | none => return left

/-- Reads an expression of a level and of all tighter ones. -/
def level (limit : Nat) (ops : List BinaryOp) (operand : Read Expr) : Read Expr := do
  chain operand ops limit (← operand)

/-- Reads an expression. -/
def expr (inner : Inner) : Read Expr :=
  levels.foldr (level (inner.limit + 1)) (unary inner (inner.limit + 1))

end Grammar
end GatewayMapping.Template
