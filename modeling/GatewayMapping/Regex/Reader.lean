import GatewayMapping.Regex.Basic
import GatewayMapping.Text.FormUrl

/-!
# Reading regular expressions

The notation has literals, classes with set operations, groups with numbers or names, flags,
alternatives, repetitions and anchors. It has neither references back to groups nor conditions
on what stands around a place, other than the anchors.

Readers are written over a reader for what lies inside brackets; `Pattern.parse?` ties the knot.
-/

namespace GatewayMapping.Regex

/-- Which rules of reading are switched on. -/
structure Flags where
  ignoreCase : Bool := false
  multiLine : Bool := false
  dotIsAny : Bool := false
  swapGreed : Bool := false
  verbose : Bool := false
  deriving DecidableEq, Repr, Inhabited

/-- How far a pattern has been read. -/
structure Reading where
  rest : List Char
  flags : Flags
  /-- The number of groups opened so far. -/
  groups : Nat
  names : List (String × Nat)
  deriving Repr, Inhabited

/-- A reader of a part of a pattern, which leaves the rest or finds that the pattern is none. -/
abbrev Read := StateT Reading Option

namespace Read

/-- Finds that the pattern is none. -/
def refuse {α : Type} : Read α := fun _ => none

/-- The characters that are left. -/
def rest : Read (List Char) := return (← get).rest

/-- Passes over `n` characters. -/
def skip (n : Nat) : Read Unit := modify fun st => { st with rest := st.rest.drop n }

/-- Passes over the characters of a class and gives them back. -/
def takeWhile (p : Char → Bool) : Read (List Char) := do
  let cs ← rest
  skip (cs.takeWhile p).length
  return cs.takeWhile p

/-- A text without leading blanks and comments. -/
def afterBlanks : (inComment : Bool) → List Char → List Char
  | _, [] => []
  | true, c :: cs => afterBlanks (c ≠ '\n') cs
  | false, c :: cs =>
    if Text.isBlank c then afterBlanks false cs
    else if c = '#' then afterBlanks true cs
    else c :: cs

/-- Passes over blanks and comments where they have no meaning. -/
def skipBlanks : Read Unit :=
  modify fun st => if st.flags.verbose then { st with rest := afterBlanks false st.rest } else st

/-! ### Single characters -/

/-- A part of a pattern that stands for a character, for a set or for an anchor. -/
inductive Primitive where
  | char (c : Char)
  | set (s : CharSet)
  | anchor (a : Anchor)

/-- The signs that have a meaning of their own. -/
def isSign (c : Char) : Bool :=
  ['\\', '.', '+', '*', '?', '(', ')', '|', '[', ']', '\x7b', '\x7d', '^', '$', '#', '&', '-',
    '~'].contains c

/-- The character of a code point, which must be one. -/
def codePoint (n : Nat) : Read Primitive :=
  if n.isValidChar then return .char (.ofNat n) else refuse

/-- The value of hexadecimal digits, of which there has to be one. -/
def hexDigits (cs : List Char) : Read Nat :=
  if cs.isEmpty then refuse
  else
    match cs.mapM Text.hexValue? with
    | some ds => return ds.foldl (fun n d => n * 16 + d) 0
    | none => refuse

/-- Reads a code point of a number of digits, or of any number in braces. -/
def hexEscape (digits : Nat) : Read Primitive := do
  if (← rest).head? = some '\x7b' then
    skip 1
    let n ← hexDigits (← takeWhile (· ≠ '\x7d'))
    if (← rest).head? = some '\x7d' then
      skip 1
      codePoint n
    else refuse
  else
    let cs := (← rest).take digits
    if cs.length = digits then
      skip digits
      codePoint (← hexDigits cs)
    else refuse

/-- Reads what follows a backslash. -/
def escape : Read Primitive := do
  match ← rest with
  | [] => refuse
  | c :: _ =>
    skip 1
    match c with
    | 'x' => hexEscape 2
    | 'u' => hexEscape 4
    | 'U' => hexEscape 8
    | 'd' => return .set .digit
    | 'D' => return .set (.not .digit)
    | 's' => return .set .space
    | 'S' => return .set (.not .space)
    | 'w' => return .set .word
    | 'W' => return .set (.not .word)
    | 'a' => return .char '\x07'
    | 'f' => return .char '\x0c'
    | 't' => return .char '\t'
    | 'n' => return .char '\n'
    | 'r' => return .char '\r'
    | 'v' => return .char '\x0b'
    | 'A' => return .anchor .textStart
    | 'z' => return .anchor .textEnd
    | 'b' => return .anchor .wordBoundary
    | 'B' => return .anchor .noWordBoundary
    | c =>
      if isSign c || (c.toNat < 128 && !c.isAlphanum && c ≠ '<' && c ≠ '>') then return .char c
      else refuse

/-! ### Classes -/

/-- The operations on sets within a class. -/
inductive SetOp where
  | inter
  | diff
  | symmetricDiff

/-- What an operation makes of two sets. -/
def SetOp.apply : SetOp → CharSet → CharSet → CharSet
  | .inter, s, t => .inter s t
  | .diff, s, t => s.diff t
  | .symmetricDiff, s, t => s.symmetricDiff t

/-- The operation that a text begins with. -/
def setOp? : List Char → Option SetOp
  | '&' :: '&' :: _ => some .inter
  | '-' :: '-' :: _ => some .diff
  | '~' :: '~' :: _ => some .symmetricDiff
  | _ => none

/-- The set of a name between `[:` and `:]`. -/
def namedSet? : List Char → Option CharSet
  | ['a', 'l', 'n', 'u', 'm'] => some (.union (.range 48 57) (.union (.range 65 90) (.range 97 122)))
  | ['a', 'l', 'p', 'h', 'a'] => some (.union (.range 65 90) (.range 97 122))
  | ['a', 's', 'c', 'i', 'i'] => some (.range 0 127)
  | ['b', 'l', 'a', 'n', 'k'] => some (.union (.range 9 9) (.range 32 32))
  | ['c', 'n', 't', 'r', 'l'] => some (.union (.range 0 31) (.range 127 127))
  | ['d', 'i', 'g', 'i', 't'] => some (.range 48 57)
  | ['g', 'r', 'a', 'p', 'h'] => some (.range 33 126)
  | ['l', 'o', 'w', 'e', 'r'] => some (.range 97 122)
  | ['p', 'r', 'i', 'n', 't'] => some (.range 32 126)
  | ['p', 'u', 'n', 'c', 't'] =>
    some (.union (.union (.range 33 47) (.range 58 64)) (.union (.range 91 96) (.range 123 126)))
  | ['s', 'p', 'a', 'c', 'e'] => some (.union (.range 9 13) (.range 32 32))
  | ['u', 'p', 'p', 'e', 'r'] => some (.range 65 90)
  | ['w', 'o', 'r', 'd'] =>
    some (.union (.union (.range 48 57) (.range 65 90)) (.union (.range 95 95) (.range 97 122)))
  | ['x', 'd', 'i', 'g', 'i', 't'] =>
    some (.union (.range 48 57) (.union (.range 65 70) (.range 97 102)))
  | _ => none

/-- The named set that a text after `[` begins with, and the number of its characters. -/
def namedSetAt? (cs : List Char) : Option (CharSet × Nat) :=
  match cs with
  | ':' :: cs =>
    let negated := cs.head? = some '^'
    let cs := if negated then cs.tail else cs
    let name := cs.takeWhile fun c => c ≠ ':'
    if [':', ']'].isPrefixOf (cs.drop name.length) then
      (namedSet? name).map fun s =>
        (if negated then .not s else s, name.length + if negated then 4 else 3)
    else none
  | _ => none

/-- A set that stands for all variants of its characters if case is ignored. -/
def folded (s : CharSet) : Read CharSet := do
  return if (← get).flags.ignoreCase then .anyCase s else s

/-- Reads a single member of a class. -/
def classMember : Read Primitive := do
  match ← rest with
  | [] => refuse
  | '\\' :: _ =>
    skip 1
    escape
  | c :: _ =>
    skip 1
    return .char c

/-- The set of a member of a class. -/
def Primitive.asSet : Primitive → Read CharSet
  | .char c => return .single c
  | .set s => return s
  | .anchor _ => refuse

/-- Reads a member of a class or a range of them. -/
def classRange : Read CharSet := do
  let low ← classMember
  skipBlanks
  let afterDash := do
    skip 1
    skipBlanks
    rest
  match ← rest with
  | [] => refuse
  | '-' :: _ =>
    let start ← get
    match ← afterDash with
    | [] => refuse
    | c :: _ =>
      if c = ']' || c = '-' then
        set start
        low.asSet
      else
        match low, ← classMember with
        | .char a, .char b => if a ≤ b then return .range a.toNat b.toNat else refuse
        | _, _ => refuse
  | _ => low.asSet

/-- The members of a class read so far, and an operation that waits for its right side. -/
structure ClassDraft where
  members : CharSet
  waiting : Option (CharSet × SetOp)

/-- The set read so far. -/
def ClassDraft.close (d : ClassDraft) : Read CharSet := do
  match d.waiting with
  | some (s, op) => return op.apply (← folded s) (← folded d.members)
  | none => return d.members

/-- Reads the members of a class up to its end. -/
def classMembers (inner : Read CharSet) : (limit : Nat) → ClassDraft → Read CharSet
  | 0, _ => refuse
  | limit + 1, d => do
    skipBlanks
    match ← rest with
    | [] => refuse
    | '[' :: cs =>
      match namedSetAt? cs with
      | some (s, length) =>
        skip (length + 1)
        classMembers inner limit { d with members := .union d.members s }
      | none =>
        skip 1
        let s ← inner
        classMembers inner limit { d with members := .union d.members s }
    | ']' :: _ =>
      skip 1
      d.close
    | cs =>
      match setOp? cs with
      | some op =>
        skip 2
        classMembers inner limit ⟨.none, some (← d.close, op)⟩
      | none =>
        let s ← classRange
        classMembers inner limit { d with members := .union d.members s }

/-- Reads a class after its opening bracket. -/
def «class» (inner : Read CharSet) (limit : Nat) : Read CharSet := do
  skipBlanks
  let negated := (← rest).head? = some '^'
  if negated then
    skip 1
    skipBlanks
  let dashes ← takeWhile (· = '-')
  skipBlanks
  let first : CharSet := if dashes.isEmpty then .none else .single '-'
  let first ← do
    if dashes.isEmpty && (← rest).head? = some ']' then
      skip 1
      pure (CharSet.single ']')
    else pure first
  let s ← folded (← classMembers inner limit ⟨first, none⟩)
  return if negated then .not s else s

/-- Reads a class inside at most `depth` others. -/
def classWithin (limit : Nat) : (depth : Nat) → Read CharSet
  | 0 => refuse
  | depth + 1 => fun st => «class» (fun st => classWithin limit depth st) limit st

/-! ### Groups and flags -/

/-- Switches a flag. -/
def Flags.switch? (f : Flags) (on : Bool) : Char → Option Flags
  | 'i' => some { f with ignoreCase := on }
  | 'm' => some { f with multiLine := on }
  | 's' => some { f with dotIsAny := on }
  | 'U' => some { f with swapGreed := on }
  | 'x' => some { f with verbose := on }
  | 'u' => if on then some f else none
  | _ => none

/-- Reads flags up to `:` or `)`, each at most once, those after `-` to switch off. -/
def flagsFrom : List Char → (seen : List Char) → (on : Bool) → Flags → Option (Flags × List Char)
  | [], _, _, _ => none
  | c :: cs, seen, on, f =>
    if c = ':' || c = ')' then
      if seen.head? = some '-' then none else some (f, c :: cs)
    else if seen.contains c then none
    else if c = '-' then flagsFrom cs (c :: seen) false f
    else
      match Flags.switch? f on c with
      | some f => flagsFrom cs (c :: seen) on f
      | none => none

/-- Whether a character may begin the name of a group. -/
def isNameStart (c : Char) : Bool :=
  c = '_' || Text.inRanges Text.wordRanges c.toNat && !Text.inRanges Text.digitRanges c.toNat

/-- Whether a character may stand in the name of a group. -/
def isNameChar (c : Char) : Bool :=
  c = '_' || c = '.' || c = '[' || c = ']' || Text.inRanges Text.wordRanges c.toNat

/-- Opens a group with the next number. -/
def openNumbered : Read Nat := do
  let st ← get
  set { st with groups := st.groups + 1 }
  return st.groups + 1

/-- Reads the name of a group up to `>` and opens the group. -/
def openNamed : Read Nat := do
  let name ← takeWhile (· ≠ '>')
  let number ← openNumbered
  let st ← get
  match name, st.rest with
  | c :: cs, '>' :: _ =>
    let text := String.ofList (c :: cs)
    if isNameStart c && cs.all isNameChar && !(st.names.any fun n => n.1 = text) then
      skip 1
      modify fun st => { st with names := (text, number) :: st.names }
      return number
    else refuse
  | _, _ => refuse

/-- How a group begins. -/
inductive Opening where
  | numbered (number : Nat)
  | plain
  /-- Flags alone, which hold up to the end of the group around them. -/
  | flagsOnly

/-- Reads the beginning of a group after its parenthesis. -/
def opening : Read Opening := do
  match ← rest with
  | '?' :: 'P' :: '<' :: _ =>
    skip 3
    return .numbered (← openNamed)
  | '?' :: '<' :: _ =>
    skip 2
    return .numbered (← openNamed)
  | '?' :: cs =>
    match flagsFrom cs [] true (← get).flags with
    | some (f, ':' :: rest) =>
      modify fun st => { st with flags := f, rest := rest }
      return .plain
    | some (f, ')' :: rest) =>
      if cs.head? = some ')' then refuse
      else
        modify fun st => { st with flags := f, rest := rest }
        return .flagsOnly
    | _ => refuse
  | _ => return .numbered (← openNumbered)

/-! ### Repetitions -/

/-- Reads a decimal number with blanks around it; there may be none. -/
def decimal? : Read (Option Nat) := do
  let _ ← takeWhile Text.isBlank
  let ds ← takeWhile Char.isDigit
  skipBlanks
  let _ ← takeWhile Text.isBlank
  skipBlanks
  if ds.isEmpty then return none
  else
    let n := ds.foldl (fun n d => n * 10 + (d.toNat - 48)) 0
    if n < Nat.pow 2 32 then return some n else refuse

/-- Reads the bounds of a repetition after the opening brace. -/
def bounds : Read (Nat × Option Nat) := do
  skipBlanks
  match ← decimal? with
  | none => refuse
  | some least =>
    match ← rest with
    | '\x7d' :: _ =>
      skip 1
      return (least, some least)
    | ',' :: _ =>
      skip 1
      skipBlanks
      if (← rest).head? = some '\x7d' then
        skip 1
        return (least, none)
      else
        match ← decimal? with
        | some most =>
          if least ≤ most && (← rest).head? = some '\x7d' then
            skip 1
            return (least, some most)
          else refuse
        | none => refuse
    | _ => refuse

/-- Whether a repetition is greedy, after its sign. -/
def greed : Read Bool := do
  let swap := (← get).flags.swapGreed
  if (← rest).head? = some '?' then
    skip 1
    return swap
  else return !swap

/-! ### Alternatives -/

/-- What has been read of the alternatives of a group. In the present one the last part comes
first, and `none` marks flags, which cannot be repeated. -/
structure Draft where
  earlier : List Regex
  parts : List (Option Regex)

/-- The expression of the present alternative. -/
def Draft.present (d : Draft) : Regex :=
  match d.parts.filterMap id with
  | [] => .empty
  | r :: rs => rs.foldl (fun later r => .cat r later) r

/-- Adds a part to the present alternative. -/
def Draft.add (d : Draft) (r : Regex) : Draft := { d with parts := some r :: d.parts }

/-- The expression of all alternatives, of which the earlier ones are preferred. -/
def Draft.close (d : Draft) : Regex :=
  d.earlier.foldl (fun later r => .alt r later) d.present

/-- Repeats the last part. -/
def Draft.repeatLast (d : Draft) (least : Nat) (most? : Option Nat) (greedy : Bool) :
    Read Draft :=
  match d.parts with
  | some r :: parts => return { d with parts := some (.rep least most? greedy r) :: parts }
  | _ => refuse

/-- Reads a part that is neither a group nor a class. -/
def primitive : Read Regex := do
  match ← classMember with
  | .char c => return .chars (← folded (.single c))
  | .set s => return .chars s
  | .anchor a => return .anchor a

/-- The expression of a sign that stands for a place or for any character. -/
def sign (flags : Flags) : Char → Option Regex
  | '.' => some (.chars (if flags.dotIsAny then .not .none else .not (.single '\n')))
  | '^' => some (.anchor (if flags.multiLine then .lineStart else .textStart))
  | '$' => some (.anchor (if flags.multiLine then .lineEnd else .textEnd))
  | _ => none

/-- Reads a group after its parenthesis. -/
def group (inner : Read Regex) (d : Draft) : Read Draft := do
  let outside := (← get).flags
  match ← opening with
  | .flagsOnly => return { d with parts := none :: d.parts }
  | .numbered number =>
    let r ← inner
    modify fun st => { st with flags := outside }
    return d.add (.group number r)
  | .plain =>
    let r ← inner
    modify fun st => { st with flags := outside }
    return d.add r

/-- Reads alternatives up to a closing parenthesis, or up to the end at the outermost level. -/
def alternatives (inner : Read Regex) (outermost : Bool) (size : Nat) :
    (limit : Nat) → Draft → Read Regex
  | 0, _ => refuse
  | limit + 1, d => do
    skipBlanks
    let again := alternatives inner outermost size limit
    match ← rest with
    | [] => if outermost then return d.close else refuse
    | c :: _ =>
      match c with
      | ')' =>
        skip 1
        if outermost then refuse else return d.close
      | '|' =>
        skip 1
        again ⟨d.present :: d.earlier, []⟩
      | '(' =>
        skip 1
        again (← group inner d)
      | '[' =>
        skip 1
        let s ← classWithin size size
        again (d.add (.chars s))
      | '?' =>
        skip 1
        again (← d.repeatLast 0 (some 1) (← greed))
      | '*' =>
        skip 1
        again (← d.repeatLast 0 none (← greed))
      | '+' =>
        skip 1
        again (← d.repeatLast 1 none (← greed))
      | '\x7b' =>
        skip 1
        let (least, most?) ← bounds
        again (← d.repeatLast least most? (← greed))
      | c =>
        match sign (← get).flags c with
        | some r =>
          skip 1
          again (d.add r)
        | none => again (d.add (← primitive))

/-- Reads the alternatives inside a group that lies in at most `depth` others. -/
def within (size : Nat) : (depth : Nat) → Read Regex
  | 0 => refuse
  | depth + 1 =>
    fun st => alternatives (fun st => within size depth st) false size size ⟨[], []⟩ st

end Read
end GatewayMapping.Regex

namespace GatewayMapping

/-- The regular expression that a text writes, if it writes one. -/
def Pattern.parse? (cs : List Char) : Option Pattern :=
  let size := cs.length + 1
  let read := Regex.Read.alternatives (Regex.Read.within size size) true size size ⟨[], []⟩
  (read.run ⟨cs, {}, 0, []⟩).map fun (r, st) => ⟨r, st.names⟩

end GatewayMapping
