import GatewayMapping.Template.Cursor
import GatewayMapping.Template.SyntaxError

/-!
# Reading parts of a source

A `Read` moves a cursor forward or stops at the first fault. Here are the reads that look at
single characters and words; grammar is built from them elsewhere.
-/

namespace GatewayMapping.Template

/-- A reader of a part of a source, which leaves the rest. -/
abbrev Read := StateT Cursor (Except SyntaxError)

/-- Whether a character may begin a name. -/
def isNameStart (c : Char) : Bool := c.isAlpha || c = '_'

/-- Whether a character may stand in a name. -/
def isNameChar (c : Char) : Bool := c.isAlphanum || c = '_'

namespace Read

/-- The place reached. -/
def here : Read Position := fun cur => .ok (cur.position, cur)

/-- The characters that are left. -/
def rest : Read (List Char) := fun cur => .ok (cur.rest, cur)

/-- The next character, which stays. -/
def peek? : Read (Option Char) := fun cur => .ok (cur.rest.head?, cur)

/-- Passes over `n` characters. -/
def skip (n : Nat) : Read Unit := fun cur => .ok ((), cur.skip n)

/-- Passes over the characters of a class. -/
def skipWhile (p : Char → Bool) : Read Unit := fun cur => .ok ((), cur.skipWhile p)

/-- Passes over the characters of a class and gives them back. -/
def takeWhile (p : Char → Bool) : Read (List Char) :=
  fun cur => .ok (cur.rest.takeWhile p, cur.skipWhile p)

/-- Stops with a fault of a given place. -/
def failAt {α : Type} (position : Position) (fault : SyntaxFault) : Read α :=
  fun _ => .error ⟨fault, position⟩

/-- Stops with a fault of the place reached. -/
def fail {α : Type} (fault : SyntaxFault) : Read α := fun cur => .error ⟨fault, cur.position⟩

/-- Stops at what stands at the place reached, where something else should stand. -/
def unexpected {α : Type} (expected : Expected) : Read α :=
  fun cur => .error ⟨.unexpected (.ofChars cur.rest) expected, cur.position⟩

/-- Passes over blanks within an expression. -/
def skipBlanks : Read Unit := skipWhile isExprBlank

/-- Passes over a character that has to stand here. -/
def char (c : Char) (expected : Expected) : Read Unit := do
  if (← peek?) = some c then skip 1 else unexpected expected

/-- Passes over a sign if it stands here. -/
def sign (cs : List Char) : Read Bool := do
  if cs.isPrefixOf (← rest) then
    skip cs.length
    return true
  else return false

/-- Whether a text begins with a word that no name character follows. -/
def beginsWithWord (word cs : List Char) : Bool :=
  word.isPrefixOf cs && !(cs.drop word.length).head?.any isNameChar

/-- Passes over a whole word if it stands here. -/
def wholeWord (word : List Char) : Read Bool := do
  if beginsWithWord word (← rest) then
    skip word.length
    return true
  else return false

/-- Reads a name. -/
def name : Read String := return String.ofList (← takeWhile isNameChar)

/-- The content of a text in quotes up to the closing quote, where two quotes stand for one, and
how many characters it takes with the closing quote. -/
def quotedContent? (quote : Char) : List Char → Option (List Char × Nat)
  | [] => none
  | [c] => if c = quote then some ([], 1) else none
  | c :: d :: cs =>
    if c = quote then
      if d = quote then
        (quotedContent? quote cs).map fun (content, n) => (quote :: content, n + 2)
      else some ([], 1)
    else (quotedContent? quote (d :: cs)).map fun (content, n) => (c :: content, n + 1)

/-- Reads a text in quotes. -/
def quoted (quote : Char) : Read (List Char) := do
  match quotedContent? quote (← rest).tail with
  | some (content, n) =>
    skip (n + 1)
    return content
  | none => fail .unclosedString

/-- Reads what follows an item of a sequence: further items after commas, then the closing
character. -/
def itemsAfter {α : Type} (item : Read α) (close : Char) (expected : Expected) :
    (limit : Nat) → Read (List α)
  | 0 => unexpected expected
  | limit + 1 => do
    skipBlanks
    match ← peek? with
    | some c =>
      if c = ',' then
        skip 1
        let x ← item
        let xs ← itemsAfter item close expected limit
        return x :: xs
      else if c = close then
        skip 1
        return []
      else unexpected expected
    | none => unexpected expected

/-- Reads a sequence after its opening character. -/
def items {α : Type} (item : Read α) (close : Char) (expected : Expected) (limit : Nat) :
    Read (List α) := do
  skipBlanks
  if (← peek?) = some close then
    skip 1
    return []
  else
    let x ← item
    let xs ← itemsAfter item close expected limit
    return x :: xs

end Read
end GatewayMapping.Template
