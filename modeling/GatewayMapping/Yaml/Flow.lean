import GatewayMapping.Text.Blank
import GatewayMapping.Yaml.Basic

/-!
# Flow nodes

Nodes written with quotes and brackets, over several lines if need be. A line break inside a text
counts as a blank, and every further one as a line break. JSON documents are flow nodes.
-/

namespace GatewayMapping.Yaml

/-- Reads a part of a text and leaves the rest; nothing comes of a text that is not well formed. -/
abbrev Read := StateT (List Char) Option

namespace Read

/-- Whether a character is a blank inside a line. -/
def isSpace (c : Char) : Bool := c = ' ' || c = '\t'

/-- Whether a character is a blank or a line break. -/
def isGap (c : Char) : Bool := isSpace c || c = '\n'

/-- What blanks and line breaks inside a text stand for. -/
def foldGap (gap : List Char) : List Char :=
  match gap.count '\n' with
  | 0 => gap
  | 1 => [' ']
  | n + 2 => List.replicate (n + 1) '\n'

/-- A text of several lines, folded. Each piece takes a character at least. -/
def foldLines : (limit : Nat) → List Char → List Char
  | 0, cs => cs
  | _, [] => []
  | limit + 1, c :: cs =>
    if isGap c then
      let rest := cs.dropWhile isGap
      foldGap (c :: cs.takeWhile isGap) ++ foldLines limit rest
    else c :: foldLines limit cs

/-- Passes over blanks, line breaks and comments, which begin after a blank. -/
def gap : Read Unit := modify (go · true)
where
  /-- Drops them, knowing whether a comment may begin. -/
  go : List Char → Bool → List Char
    | [], _ => []
    | c :: cs, afterBlank =>
      if isGap c then go cs true
      else if c = '#' && afterBlank then inComment cs
      else c :: cs
  /-- Drops the rest of a comment and what comes after it. -/
  inComment : List Char → List Char
    | [] => []
    | c :: cs => if c = '\n' then go cs true else inComment cs

/-- Passes over one character. -/
def expect (c : Char) : Read Unit := do
  match ← get with
  | d :: cs => if c = d then set cs else failure
  | [] => failure

/-- The rest of a text in single quotes, where a quote is written twice. -/
def singleQuoted : List Char → Option (List Char × List Char)
  | [] => none
  | '\'' :: '\'' :: cs => (singleQuoted cs).map fun (text, rest) => ('\'' :: text, rest)
  | '\'' :: cs => some ([], cs)
  | c :: cs => (singleQuoted cs).map fun (text, rest) => (c :: text, rest)

/-- The character of a code point. -/
def char? (n : Nat) : Option Char := if n.isValidChar then some (Char.ofNat n) else none

/-- The character that an escape without a code stands for. -/
def escape? (c : Char) : Option Char :=
  [('0', 0), ('a', 7), ('b', 8), ('t', 9), ('\t', 9), ('n', 10), ('v', 11), ('f', 12), ('r', 13),
    ('e', 27), (' ', 32), ('"', 34), ('/', 47), ('\\', 92), ('N', 0x85), ('_', 0xA0),
    ('L', 0x2028), ('P', 0x2029)].findSome? fun (name, n) => if name = c then char? n else none

/-- The number of digits of the code after an escape. -/
def codeLength? : Char → Option Nat
  | 'x' => some 2
  | 'u' => some 4
  | 'U' => some 8
  | _ => none

/-- The rest of a text in double quotes. Each piece takes a character at least. -/
def doubleQuoted : (limit : Nat) → List Char → Option (List Char × List Char)
  | 0, _ => none
  | _, [] => none
  | _, '"' :: cs => some ([], cs)
  | limit + 1, '\\' :: '\n' :: cs => doubleQuoted limit (cs.dropWhile isSpace)
  | limit + 1, '\\' :: c :: cs => do
    match codeLength? c with
    | some n =>
      let code ← Node.digits? 16 (cs.take n)
      let ch ← if (cs.take n).length = n then char? code else none
      let (text, rest) ← doubleQuoted limit (cs.drop n)
      return (ch :: text, rest)
    | none =>
      let ch ← escape? c
      let (text, rest) ← doubleQuoted limit cs
      return (ch :: text, rest)
  | limit + 1, c :: cs => do
    if isGap c then
      let (text, rest) ← doubleQuoted limit (cs.dropWhile isGap)
      return (foldGap (c :: cs.takeWhile isGap) ++ text, rest)
    else
      let (text, rest) ← doubleQuoted limit cs
      return (c :: text, rest)

/-- Reads a text in quotes. -/
def quoted : Read String := do
  match ← get with
  | '\'' :: cs =>
    let (text, rest) ← (singleQuoted cs : Option _)
    set rest
    return String.ofList (foldLines text.length text)
  | '"' :: cs =>
    let (text, rest) ← (doubleQuoted (cs.length + 1) cs : Option _)
    set rest
    return String.ofList text
  | _ => failure

/-- Whether a character ends a plain text between brackets. -/
def isFlowMark (c : Char) : Bool := c ∈ [',', '[', ']', '\x7b', '\x7d']

/-- Cuts off the plain text at the front. It ends before a comment, a colon with a blank after it,
and, between brackets, a mark. -/
def cutPlain (inFlow : Bool) : List Char → List Char × List Char
  | [] => ([], [])
  | c :: cs =>
    let ends := match c, cs with
      | ':', [] => true
      | ':', d :: _ => isGap d || inFlow && isFlowMark d
      | c, '#' :: _ => isGap c
      | c, _ => inFlow && isFlowMark c
    if ends then ([], c :: cs)
    else
      let (text, rest) := cutPlain inFlow cs
      (c :: text, rest)

/-- Whether a plain text may begin with a character. -/
def mayBeginPlain (c : Char) : Bool :=
  !(isGap c || c ∈ [',', '[', ']', '\x7b', '\x7d', '#', '&', '*', '!', '|', '>', '\'', '"', '%', '@',
    '\x60'])

/-- Reads a plain text. -/
def plain (inFlow : Bool) : Read String := do
  match ← get with
  | [] => failure
  | c :: cs =>
    if mayBeginPlain c then
      let (text, rest) := cutPlain inFlow (c :: cs)
      if text.isEmpty then failure
      set rest
      let text := Text.trimWhere isGap text
      return String.ofList (foldLines text.length text)
    else failure

mutual
/-- Reads a flow node. Every node takes a character at least. -/
def flowNode : (limit : Nat) → Read Node
  | 0 => failure
  | limit + 1 => do
    gap
    match ← get with
    | '[' :: cs =>
      set cs
      return .sequence (← flowItems limit)
    | '\x7b' :: cs =>
      set cs
      return .mapping (← flowMembers limit)
    | '\'' :: _ | '"' :: _ => return .scalar (← quoted) false
    | _ => return .scalar (← plain true) true

/-- Reads items up to the closing bracket. -/
def flowItems : (limit : Nat) → Read (List Node)
  | 0 => failure
  | limit + 1 => do
    gap
    match ← get with
    | ']' :: cs =>
      set cs
      return []
    | _ =>
      let item ← flowNode limit
      gap
      match ← get with
      | ',' :: cs =>
        set cs
        return item :: (← flowItems limit)
      | _ =>
        expect ']'
        return [item]

/-- Reads members up to the closing brace. -/
def flowMembers : (limit : Nat) → Read (List (String × Node))
  | 0 => failure
  | limit + 1 => do
    gap
    match ← get with
    | '\x7d' :: cs =>
      set cs
      return []
    | c :: _ =>
      let key ← if c = '\'' || c = '"' then quoted else plain true
      gap
      let value ← flowValue limit
      gap
      match ← get with
      | ',' :: cs =>
        set cs
        return (key, value) :: (← flowMembers limit)
      | _ =>
        expect '\x7d'
        return [(key, value)]
    | [] => failure

/-- Reads the value of a member, which may be missing. -/
def flowValue : (limit : Nat) → Read Node
  | 0 => failure
  | limit + 1 => do
    match ← get with
    | ':' :: cs =>
      set cs
      gap
      match ← get with
      | ',' :: _ | '\x7d' :: _ => return .nothing
      | _ => flowNode limit
    | _ => return .nothing
end

end Read
end GatewayMapping.Yaml
