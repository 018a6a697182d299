import GatewayMapping.Json.Reader
import GatewayMapping.JsonPath.Basic
import GatewayMapping.Text.Search
import GatewayMapping.Text.WholeNumber

/-!
# Reading paths

Paths are written with dots and names, with brackets, or with both. A filter inside brackets holds
paths of its own; the readers here are written over a reader of such filters, and `JsonPath.parse`
ties the knot. Inside brackets fewer characters are left than outside, and a number that bounds
them bounds every loop.
-/

namespace GatewayMapping.JsonPath

/-- A reader of a part of a path, which leaves the rest. -/
abbrev Read := StateT (List Char) (Except Fault)

namespace Read

/-- Stops at the place reached. -/
def fail {α : Type} (flaw : Flaw) : Read α := fun cs => .error ⟨flaw, cs.length⟩

/-- The next character, which stays. -/
def peek? : Read (Option Char) := fun cs => .ok (cs.head?, cs)

/-- Passes over `n` characters. -/
def skip (n : Nat) : Read Unit := fun cs => .ok ((), cs.drop n)

/-- Passes over the characters of a class and gives them back. -/
def takeWhile (p : Char → Bool) : Read (List Char) :=
  fun cs => .ok (cs.takeWhile p, cs.dropWhile p)

/-- Passes over blanks. -/
def skipBlanks : Read Unit := fun cs => .ok ((), cs.dropWhile Text.isBlank)

/-- Passes over a character that has to stand here. -/
def char (c : Char) : Read Unit := do
  if (← peek?) = some c then skip 1 else fail (.expected c)

/-- Passes over a sign if it stands here. -/
def sign (s : List Char) : Read Bool := do
  if s.isPrefixOf (← get) then
    skip s.length
    return true
  else return false

/-- Whether a character ends a name without quotes. -/
def endsName (c : Char) : Bool :=
  ['.', '[', ']', '(', ')', ' ', '=', '!', '<', '>', '&', '|', ',', '~'].contains c

/-- Reads a name without quotes. -/
def name : Read String := return String.ofList (← takeWhile fun c => !endsName c)

/-- The content of a text up to the closing quote, where a backslash makes a text of the character
after it, and the text after the quote. -/
def quotedContent? (quote : Char) : List Char → Option (List Char × List Char)
  | [] => none
  | c :: cs =>
    if c = '\\' then
      match cs with
      | [] => none
      | d :: ds => (quotedContent? quote ds).map fun (content, rest) => (d :: content, rest)
    else if c = quote then some ([], cs)
    else (quotedContent? quote cs).map fun (content, rest) => (c :: content, rest)

/-- Reads a text in quotes. -/
def quoted (quote : Char) : Read String := fun cs =>
  match quotedContent? quote cs.tail with
  | some (content, rest) => .ok (String.ofList content, rest)
  | none => .error ⟨.openString, 0⟩

/-- Whether a character is a quote. -/
def isQuote (c : Char) : Bool := c = '\'' || c = '"'

/-- Reads further quoted names after commas. -/
def moreNames : (limit : Nat) → Read (List String)
  | 0 => return []
  | limit + 1 => do
    skipBlanks
    if (← peek?) = some ',' then
      skip 1
      skipBlanks
      match ← peek? with
      | some c =>
        if isQuote c then
          let name ← quoted c
          return name :: (← moreNames limit)
        else fail .noQuotedName
      | none => fail .noQuotedName
    else return []

/-- The integer of a text, or nothing if it is blank. -/
def integer? (cs : List Char) : Read (Option Int64) := do
  let cs := Text.trimWhere Text.isBlank cs
  if cs.isEmpty then return none
  else
    match (Text.wholeNumber? cs).bind int64? with
    | some i => return some i
    | none => fail (.badIndex (String.ofList cs))

/-- The integer of a text. -/
def integer (cs : List Char) : Read Int64 := do
  match ← integer? cs with
  | some i => return i
  | none => fail .noIndex

/-- The selector of the text between brackets that holds numbers. -/
def numbers (content : List Char) : Read Selector := do
  match Text.cutAt? ':' content with
  | some (first, last) => return .slice (← integer? first) (← integer? last)
  | none =>
    match ← (Text.splitAt ',' content).mapM integer with
    | [i] => return .index i
    | is => return .indexes is

/-- Reads a selector after its opening bracket. -/
def bracket (limit : Nat) (filter : Read Filter) : Read Selector := do
  skipBlanks
  let selector ← do
    match ← peek? with
    | some '*' =>
      skip 1
      pure .wildcard
    | some '?' =>
      skip 1
      skipBlanks
      char '('
      let f ← filter
      skipBlanks
      char ')'
      pure (.filter f)
    | some c =>
      if isQuote c then
        let name ← quoted c
        match ← moreNames limit with
        | [] => pure (.name name)
        | names => pure (.names (name :: names))
      else numbers (Text.trimWhere Text.isBlank (← takeWhile (· ≠ ']')))
    | none => numbers []
  skipBlanks
  char ']'
  return selector

/-- Reads the rest of a function after its name. Outside filters a function ends the text. -/
def function (inFilter : Bool) (name : String) : Read Function := do
  skip 1
  skipBlanks
  char ')'
  match Function.named? name with
  | none => fail (.unknownFunction name)
  | some f =>
    let next ← peek?
    let atEnd := if inFilter then next ≠ some '.' && next ≠ some '[' else next.isNone
    if atEnd then return f else fail .afterFunction

/-- Reads steps and the function after them. -/
def steps (inFilter : Bool) (filter : Read Filter) :
    (limit : Nat) → Read (List Step × Option Function)
  | 0 => return ([], none)
  | limit + 1 => do
    let next (s : Step) := do
      let (ss, f) ← steps inFilter filter limit
      return (s :: ss, f)
    match ← peek? with
    | some '.' =>
      skip 1
      let deep ← sign ['.']
      match ← peek? with
      | some '*' =>
        skip 1
        next (.mk deep .wildcard)
      | other =>
        if other = some '[' && deep then
          skip 1
          next (.mk deep (← bracket limit filter))
        else
          let name ← name
          if name.isEmpty then fail .noName
          else if (← peek?) = some '(' then return ([], some (← function inFilter name))
          else next (.mk deep (.name name))
    | some '[' =>
      skip 1
      next (.mk false (← bracket limit filter))
    | _ => return ([], none)

/-- Reads a path after its first sign. -/
def route (inFilter : Bool) (filter : Read Filter) (limit : Nat) : Read Route := do
  let (ss, f) ← steps inFilter filter limit
  return .ofSteps ss f

/-! ### Filters -/

/-- Whether a character may stand in a number after its sign. -/
def isNumberChar (c : Char) : Bool :=
  c.isDigit || c = '.' || c = 'e' || c = 'E' || c = '+'

/-- Reads a number. -/
def number : Read Operand := do
  let minus ← sign ['-']
  let cs ← takeWhile isNumberChar
  let text := String.ofList (if minus then '-' :: cs else cs)
  match Json.parse text with
  | .ok j => if j.number?.isSome then return .literal j else fail (.badNumber text)
  | .error _ => fail (.badNumber text)

/-- The content of a regular expression up to the closing slash, where a backslash makes a text of
a slash, and the text after it. -/
def patternContent? : List Char → Option (List Char × List Char)
  | [] => none
  | '\\' :: '/' :: cs => (patternContent? cs).map fun (content, rest) => ('/' :: content, rest)
  | c :: cs =>
    if c = '/' then some ([], cs)
    else (patternContent? cs).map fun (content, rest) => (c :: content, rest)

/-- The text of a regular expression with flags after it. -/
def withFlags (flags content : List Char) : List Char :=
  if flags.isEmpty then content else ['(', '?'] ++ flags ++ [')'] ++ content

/-- Reads a regular expression between slashes. -/
def pattern : Read Operand := do
  match patternContent? (← get).tail with
  | none => fun _ => .error ⟨.openPattern, 0⟩
  | some (content, rest) =>
    set rest
    let flags ← takeWhile fun c => c = 'i' || c = 'm' || c = 's' || c = 'x'
    match Pattern.parse? (withFlags flags content) with
    | some p => return .pattern p
    | none => fail .badPattern

/-- Reads a constant. -/
def constant : Read Operand := do
  let word ← name
  match word with
  | "true" => return .literal (.bool true)
  | "false" => return .literal (.bool false)
  | "null" => return .literal .null
  | _ => fail (.badWord word)

/-- Reads an operand. -/
def operand (filter : Read Filter) (limit : Nat) : Read Operand := do
  skipBlanks
  match ← peek? with
  | none => fail .endOfFilter
  | some '@' =>
    skip 1
    return .path false (← route true filter limit)
  | some '$' =>
    skip 1
    return .path true (← route true filter limit)
  | some '/' => pattern
  | some c =>
    if isQuote c then return .literal (.string (← quoted c))
    else if c.isDigit || c = '-' then number
    else constant

/-- The signs of comparisons; a sign stands before its beginning. The sign without a comparison is
the one of regular expressions. -/
def comparisons : List (List Char × Option CompareOp) :=
  [(['=', '='], some .eq), (['!', '='], some .ne), (['<', '='], some .le),
    (['>', '='], some .ge), (['=', '~'], none), (['<'], some .lt), (['>'], some .gt)]

/-- Reads the sign of a comparison if one stands here. -/
def comparison? : List (List Char × Option CompareOp) → Read (Option (Option CompareOp))
  | [] => return none
  | (s, op) :: rest => do if ← sign s then return some op else comparison? rest

/-- Reads a comparison, or a path whose presence is asked for. -/
def comparison (filter : Read Filter) (limit : Nat) : Read Filter := do
  let left ← operand filter limit
  skipBlanks
  match ← comparison? comparisons with
  | none =>
    match left with
    | .path _ _ => return .present left
    | _ => fail .noComparison
  | some (some op) => return .compare left op (← operand filter limit)
  | some none =>
    match ← operand filter limit with
    | .pattern p => return .matched left p
    | _ => fail .noPattern

/-- Reads a condition with the negations before it. -/
def negations (filter : Read Filter) (size : Nat) : (limit : Nat) → Read Filter
  | 0 => comparison filter size
  | limit + 1 => do
    skipBlanks
    match ← get with
    | '!' :: '=' :: _ => comparison filter size
    | '!' :: _ =>
      skip 1
      return .not (← negations filter size limit)
    | '(' :: _ =>
      skip 1
      let f ← filter
      skipBlanks
      char ')'
      return f
    | _ => comparison filter size

/-- Reads further conditions joined by a sign. -/
def chain (operand : Read Filter) (s : List Char) (join : Filter → Filter → Filter) :
    (limit : Nat) → Filter → Read Filter
  | 0, left => return left
  | limit + 1, left => do
    skipBlanks
    if ← sign s then chain operand s join limit (join left (← operand)) else return left

/-- Reads conditions joined by `&&`. -/
def conjunction (filter : Read Filter) (limit : Nat) : Read Filter := do
  chain (negations filter limit limit) ['&', '&'] .and limit (← negations filter limit limit)

/-- Reads conditions joined by `||`. -/
def disjunction (filter : Read Filter) (limit : Nat) : Read Filter := do
  chain (conjunction filter limit) ['|', '|'] .or limit (← conjunction filter limit)

/-- Reads a filter where at most a number of characters is left. -/
def filterUpTo : (limit : Nat) → Read Filter
  | 0 => fail .endOfFilter
  | limit + 1 => fun cs => disjunction (filterUpTo limit) (limit + 1) cs

end Read

/-- The text of a path with the sign of the root before it. -/
def rooted (cs : List Char) : List Char :=
  match cs with
  | '$' :: _ => cs
  | '[' :: _ => '$' :: cs
  | _ => '$' :: '.' :: cs

/-- The path that a text writes. A path may begin without the sign of the root. -/
def parse (expression : String) : Except Error JsonPath :=
  let cs := Text.trimWhere Text.isBlank expression.toList
  if cs.isEmpty then .error (.emptyPath expression)
  else
    let source := rooted cs
    let rest := source.tail
    let invalid (f : Fault) := Error.invalid (String.ofList source) f.flaw (source.length - f.left)
    match (Read.route false (Read.filterUpTo rest.length) rest.length).run rest with
    | .ok (route, []) => .ok ⟨String.ofList source, route⟩
    | .ok (_, left) => .error (invalid ⟨.unexpected, left.length⟩)
    | .error f => .error (invalid f)

end GatewayMapping.JsonPath
