import GatewayMapping.Text.Blank
import GatewayMapping.Text.Case
import GatewayMapping.Text.WordTable

/-!
# Regular expressions

The syntax of regular expressions and the meaning of their character sets. What a regular
expression matches is said in `Regex.Match`.
-/

namespace GatewayMapping

/-- A set of characters. -/
inductive CharSet where
  | none
  | range (first last : Nat)
  | word
  | digit
  | space
  | not (s : CharSet)
  | union (s t : CharSet)
  | inter (s t : CharSet)
  /-- The characters that differ in case only from one of a set. -/
  | anyCase (s : CharSet)
  deriving Repr, Inhabited

namespace CharSet

/-- The set of one character. -/
def single (c : Char) : CharSet := .range c.toNat c.toNat

/-- The characters of one set that are not in another. -/
def diff (s t : CharSet) : CharSet := .inter s (.not t)

/-- The characters of one of two sets that are not in both. -/
def symmetricDiff (s t : CharSet) : CharSet := .union (s.diff t) (t.diff s)

/-- Whether a code point is in a set. -/
def mem : CharSet → Nat → Bool
  | .none, _ => false
  | .range first last, n => first ≤ n && n ≤ last
  | .word, n => Text.inRanges Text.wordRanges n
  | .digit, n => Text.inRanges Text.digitRanges n
  | .space, n => Text.blankRanges.any fun range => range.1 ≤ n && n ≤ range.2
  | .not s, n => !s.mem n
  | .union s t, n => s.mem n || t.mem n
  | .inter s t, n => s.mem n && t.mem n
  | .anyCase s, n => (Text.caseVariants n).any s.mem

end CharSet

/-- A condition on a place of a text. -/
inductive Anchor where
  | textStart
  | textEnd
  | lineStart
  | lineEnd
  | wordBoundary
  | noWordBoundary
  deriving DecidableEq, Repr, Inhabited

/-- A regular expression. -/
inductive Regex where
  | empty
  | chars (s : CharSet)
  | anchor (a : Anchor)
  /-- A group whose text is kept under a number. -/
  | group (number : Nat) (r : Regex)
  | cat (r s : Regex)
  /-- The first one is preferred. -/
  | alt (r s : Regex)
  /-- At least `least` times and, if there is a bound, at most `most?` times; if `greedy`, as
  often as possible, and as seldom as possible otherwise. -/
  | rep (least : Nat) (most? : Option Nat) (greedy : Bool) (r : Regex)
  deriving Repr, Inhabited

/-- A regular expression with the names of its groups. -/
structure Pattern where
  regex : Regex
  names : List (String × Nat)
  deriving Repr, Inhabited

end GatewayMapping
