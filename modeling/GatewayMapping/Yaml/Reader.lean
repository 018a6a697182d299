import GatewayMapping.Text.Search
import GatewayMapping.Yaml.Flow

/-!
# Reading YAML

A document is a flow node, a scalar, or a block of members or items that stand in lines of equal
indentation. Texts after `|` and `>` keep their lines or have them folded. Anchors, tags,
directives and keys that are not scalars are not read, and a text holds one document.
-/

namespace GatewayMapping.Yaml

/-- A line without its end. -/
abbrev Line := List Char

namespace Block

open Read (isSpace isGap)

/-- The number of blanks in front of a line. -/
def indentation (line : Line) : Nat := (line.takeWhile (· = ' ')).length

/-- A line without the blanks in front of it. -/
def content (line : Line) : List Char := line.dropWhile (· = ' ')

/-- Whether nothing but a comment stands in a text. -/
def isVoid (cs : List Char) : Bool :=
  match cs.dropWhile isSpace with
  | [] => true
  | c :: _ => c = '#'

/-- The lines from the first that is not void. -/
def skipVoid (lines : List Line) : List Line := lines.dropWhile isVoid

/-- Cuts a text at its line breaks. -/
def linesOf (cs : List Char) : List Line := Text.splitAt '\n' cs

/-- A text of lines. -/
def joinLines (lines : List Line) : List Char := ['\n'].intercalate lines

/-- Runs a reader of flow nodes at the front of a text and the lines after it. What remains of its
last line has to be void. -/
def readFlow {α : Type} (r : Read α) (cs : List Char) (lines : List Line) :
    Option (α × List Line) := do
  let (x, rest) ← r.run (joinLines (cs :: lines))
  match linesOf rest with
  | [] => return (x, [])
  | last :: lines =>
    if last.isEmpty || isSpace (last.headD ' ') && isVoid last then some (x, lines) else none

/-- The key of a member at the front of a line, and what follows its colon. -/
def key? (cs : List Char) : Option (String × List Char) := do
  let (key, rest) ← match cs with
    | '\'' :: _ | '"' :: _ => Read.quoted.run cs
    | _ => (Read.plain false).run cs
  match rest.dropWhile isSpace with
  | [':'] => some (key, [])
  | ':' :: c :: cs => if isSpace c then some (key, cs) else none
  | _ => none

/-- What an item of a list has after its dash. -/
def item? : List Char → Option (List Char)
  | ['-'] => some []
  | '-' :: c :: cs => if isSpace c then some (c :: cs) else none
  | _ => none

/-- The further lines of a plain text in a block that is indented by less than `least`. -/
def furtherLines (least : Nat) : List Line → List Line × List Line
  | [] => ([], [])
  | line :: lines =>
    let next := (line :: lines).dropWhile fun l => l.all isSpace
    let goesOn := match next with
      | l :: _ => least ≤ indentation l && !isVoid l
      | [] => false
    if goesOn then
      let (more, rest) := furtherLines least lines
      (line :: more, rest)
    else ([], line :: lines)

/-- What is done with the line breaks at the end of a text after `|` or `>`. -/
inductive Ending where
  | clip
  | strip
  | keep
  deriving DecidableEq, Repr, Inhabited

/-- What follows `|` or `>`: the indentation of the text, if it is given, and its ending. -/
def header? : Option Nat → Ending → List Char → Option (Option Nat × Ending)
  | indent, ending, [] => some (indent, ending)
  | indent, ending, c :: cs =>
    if c = '-' then header? indent .strip cs
    else if c = '+' then header? indent .keep cs
    else if '1' ≤ c ∧ c ≤ '9' then header? (some (c.toNat - 48)) ending cs
    else if isSpace c && isVoid cs then some (indent, ending)
    else none

/-- Folds lines: a single break between two lines that are not further indented is a blank. -/
def foldBlock : List Line → List Char
  | [] => []
  | [line] => line
  | line :: next :: lines =>
    let isText (l : Line) := match l with
      | [] => false
      | c :: _ => !isSpace c
    if isText line then
      if isText next then line ++ ' ' :: foldBlock (next :: lines)
      else if next.isEmpty then
        let gap := (next :: lines).takeWhile List.isEmpty
        let rest := lines.drop (gap.length - 1)
        if (rest.head?.map isText).getD false then
          line ++ List.replicate gap.length '\n' ++ foldAfter (gap.length - 1) lines
        else line ++ '\n' :: foldBlock (next :: lines)
      else line ++ '\n' :: foldBlock (next :: lines)
    else line ++ '\n' :: foldBlock (next :: lines)
where
  /-- Folds lines after the first `skip` ones. -/
  foldAfter : Nat → List Line → List Char
    | 0, lines => foldBlock lines
    | _, [] => []
    | skip + 1, _ :: lines => foldAfter skip lines

/-- The text of a block after `|` or `>`, which stands in a block indented by `indent`. -/
def blockText (isFolded : Bool) (ending : Ending) (lines : List Line) : String :=
  let text := (lines.reverse.dropWhile List.isEmpty).reverse
  let breaks := lines.length - text.length + 1
  let body := if isFolded then foldBlock text else joinLines text
  String.ofList <| match ending with
    | .strip => body
    | .clip => if text.isEmpty then [] else body ++ ['\n']
    | .keep => body ++ List.replicate (if text.isEmpty then breaks - 1 else breaks) '\n'

/-- Reads a block after `|` or `>` whose lines are indented by `least` at least. -/
def readBlockText (isFolded : Bool) (least : Nat) (header : List Char) (lines : List Line) :
    Option (Node × List Line) := do
  let (given, ending) ← header? none .clip header
  let indent := match given with
    | some n => least - 1 + n
    | none => ((lines.find? fun l => !(l.all (· = ' '))).map indentation).getD 0
  let indent := max least indent
  let belongs (l : Line) := indent ≤ indentation l || l.all (· = ' ')
  let text := (lines.takeWhile belongs).map fun l => l.drop indent
  return (.scalar (blockText isFolded ending text) false, lines.dropWhile belongs)

mutual
/-- Reads the node that stands in the lines indented by `least` at least. Every node and every
member takes a line at least. -/
def node : (limit : Nat) → (least : Nat) → List Line → Option (Node × List Line)
  | 0, _, _ => none
  | limit + 1, least, lines =>
    match skipVoid lines with
    | [] => some (.nothing, [])
    | line :: rest =>
      let indent := indentation line
      if indent < least then some (.nothing, line :: rest)
      else if (item? (content line)).isSome then do
        let (items, rest) ← items limit indent (line :: rest)
        return (.sequence items, rest)
      else if (key? (content line)).isSome then do
        let (members, rest) ← members limit indent (line :: rest)
        return (.mapping members, rest)
      else inline limit least (content line) rest

/-- Reads the node that begins in a line and goes on in lines indented by `least` at least. -/
def inline : (limit : Nat) → (least : Nat) → List Char → List Line → Option (Node × List Line)
  | 0, _, _, _ => none
  | limit + 1, least, cs, lines =>
    let cs := cs.dropWhile isSpace
    if isVoid cs then node limit least lines
    else match cs with
      | '|' :: header => readBlockText false least header lines
      | '>' :: header => readBlockText true least header lines
      | '[' :: _ | '\x7b' :: _ =>
        readFlow (Read.flowNode ((joinLines (cs :: lines)).length + 2)) cs lines
      | '\'' :: _ | '"' :: _ => do
        let (text, rest) ← readFlow Read.quoted cs lines
        return (.scalar text false, rest)
      | _ => do
        let (more, rest) := furtherLines least lines
        let (text, after) ← (Read.plain false).run (joinLines (cs :: more))
        if isVoid after then return (.scalar text true, rest) else none

/-- Reads the members of a block indented by `indent`. -/
def members : (limit : Nat) → (indent : Nat) → List Line →
    Option (List (String × Node) × List Line)
  | 0, _, _ => none
  | limit + 1, indent, lines =>
    match skipVoid lines with
    | [] => some ([], [])
    | line :: rest =>
      if indentation line < indent then some ([], line :: rest)
      else if indentation line > indent then none
      else do
        let (key, cs) ← key? (content line)
        let ownItems := isVoid cs && (match skipVoid rest with
          | next :: _ => indentation next = indent && (item? (content next)).isSome
          | [] => false)
        let (value, rest) ←
          if ownItems then do
            let (items, rest) ← items limit indent rest
            pure (Node.sequence items, rest)
          else inline limit (indent + 1) cs rest
        let (more, rest) ← members limit indent rest
        return ((key, value) :: more, rest)

/-- Reads the items of a block indented by `indent`. An item may be a block of its own that begins
behind the dash. -/
def items : (limit : Nat) → (indent : Nat) → List Line → Option (List Node × List Line)
  | 0, _, _ => none
  | limit + 1, indent, lines =>
    match skipVoid lines with
    | [] => some ([], [])
    | line :: rest =>
      if indentation line < indent then some ([], line :: rest)
      else if indentation line > indent then none
      else match item? (content line) with
        | none => some ([], line :: rest)
        | some cs => do
          let (value, rest) ←
            if (item? (cs.dropWhile isSpace)).isSome || (key? (cs.dropWhile isSpace)).isSome then
              node limit (indent + 1) ((List.replicate (indent + 1) ' ' ++ cs) :: rest)
            else inline limit (indent + 1) cs rest
          let (more, rest) ← items limit indent rest
          return (value :: more, rest)
end

/-- Whether a line begins or ends a document. -/
def isMark (mark : List Char) (line : Line) : Bool :=
  mark.isPrefixOf line && ((line.drop 3).head?.map isSpace).getD true

end Block

open Block in
/-- The document of a text; an empty one has none. -/
def parse (text : String) : Option Node := do
  let lines := (linesOf text.toList).map fun l => if l.getLast? = some '\r' then l.dropLast else l
  let lines := match skipVoid lines with
    | line :: rest =>
      if isMark ['-', '-', '-'] line then
        if isVoid (line.drop 3) then rest else line.drop 3 :: rest
      else line :: rest
    | [] => []
  let inside := lines.takeWhile fun l => !isMark ['.', '.', '.'] l && !isMark ['-', '-', '-'] l
  let after := lines.drop (inside.length + 1)
  let endsHere := match lines.drop inside.length with
    | line :: _ => isMark ['.', '.', '.'] line && (skipVoid after).isEmpty
    | [] => true
  if !endsHere || (skipVoid inside).isEmpty then none
  else
    let (n, rest) ← node (text.length + 2) 0 inside
    if (skipVoid rest).isEmpty then some n else none

end GatewayMapping.Yaml
