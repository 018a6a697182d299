import GatewayMapping.Template.Syntax

/-!
# A place in a source with what follows it

A `Cursor` is the rest of a source together with the place where it begins and the indentation
before it. All three change character by character, so that a cursor is known from the one at the
beginning and the characters passed.
-/

namespace GatewayMapping.Template

/-- The rest of a source. -/
structure Cursor where
  rest : List Char
  position : Position
  /-- The number of blanks before the rest if its line begins with nothing else. -/
  indent : Option Nat
  deriving DecidableEq, Repr, Inhabited

/-- Whether a character is a blank within a line. -/
def isInlineBlank (c : Char) : Bool := c = ' ' || c = '\t'

/-- Whether a character may stand between the parts of an expression. -/
def isExprBlank (c : Char) : Bool := c = ' ' || c = '\t' || c = '\n' || c = '\r'

/-- The indentation after one more character. -/
def indentAfter (indent : Option Nat) (c : Char) : Option Nat :=
  if c = '\n' then some 0 else if isInlineBlank c then indent.map (· + 1) else none

namespace Cursor

/-- The cursor at the beginning of a text that begins at `base`. -/
def ofChars (cs : List Char) (base : Position) : Cursor := ⟨cs, base, some 0⟩

/-- The cursor after one more character; at the end it stays. -/
def next : Cursor → Cursor
  | ⟨[], position, indent⟩ => ⟨[], position, indent⟩
  | ⟨c :: cs, position, indent⟩ => ⟨cs, position.after c, indentAfter indent c⟩

/-- The cursor after `n` more characters. -/
def skip : Nat → Cursor → Cursor
  | 0, cur => cur
  | n + 1, cur => skip n cur.next

/-- The cursor after the characters of a class. -/
def skipWhile (p : Char → Bool) (cur : Cursor) : Cursor :=
  cur.skip (cur.rest.takeWhile p).length

/-- The characters from one cursor up to a later one. -/
def upTo (cur later : Cursor) : List Char := cur.rest.take (cur.rest.length - later.rest.length)

@[simp] theorem rest_next (cur : Cursor) : cur.next.rest = cur.rest.tail := by
  rcases cur with ⟨_ | _, _, _⟩ <;> rfl

@[simp] theorem rest_skip (n : Nat) (cur : Cursor) : (cur.skip n).rest = cur.rest.drop n := by
  induction n generalizing cur with
  | zero => simp [skip]
  | succ n ih => simp [skip, ih]

@[simp] theorem rest_skipWhile (p : Char → Bool) (cur : Cursor) :
    (cur.skipWhile p).rest = cur.rest.dropWhile p := by
  have h : ∀ cs : List Char, cs.drop (cs.takeWhile p).length = cs.dropWhile p := by
    intro cs
    induction cs with
    | nil => rfl
    | cons c cs ih => by_cases hc : p c <;> simp [hc, ih]
  simp [skipWhile, h]

end Cursor
end GatewayMapping.Template
