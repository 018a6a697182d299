import GatewayMapping.Regex.Match
import GatewayMapping.Regex.Reader

/-!
# Replacing and splitting

A replacement is a text with references to groups: `$1`, `$name` and `$\x7bname\x7d`. A name after `$`
is as long as possible, `$$` is a single `$`, and a `$` that begins no reference stands for
itself. A group that is unknown or has no text is empty.
-/

namespace GatewayMapping.Pattern

/-- A part of a replacement. -/
inductive Part where
  | text (c : Char)
  | number (n : Nat)
  | name (cs : List Char)
  deriving DecidableEq, Repr, Inhabited

/-- Whether a character may stand in a reference without braces. -/
def isReferenceChar (c : Char) : Bool := c.isAlphanum || c = '_'

/-- A reference to a group by its number or, if it is no number, by its name. -/
def Part.reference (cs : List Char) : Part :=
  let ds := if cs.head? = some '+' then cs.tail else cs
  let n := ds.foldl (fun n d => n * 10 + (d.toNat - 48)) 0
  if !ds.isEmpty && ds.all Char.isDigit && n < Nat.pow 2 64 then .number n else .name cs

/-- The reference that a text after `$` begins with, and the number of its characters. -/
def reference? (cs : List Char) : Option (Part × Nat) :=
  match cs with
  | '\x7b' :: cs =>
    let name := cs.takeWhile (· ≠ '\x7d')
    if (cs.drop name.length).isEmpty then none
    else some (.reference name, name.length + 2)
  | cs =>
    let name := cs.takeWhile isReferenceChar
    if name.isEmpty then none else some (.reference name, name.length)

/-- The parts of a replacement; `skip` characters of a reference already read are passed over. -/
def partsFrom : (skip : Nat) → List Char → List Part
  | _, [] => []
  | skip + 1, _ :: cs => partsFrom skip cs
  | 0, c :: cs =>
    if c = '$' then
      if cs.head? = some '$' then .text '$' :: partsFrom 1 cs
      else
        match reference? cs with
        | some (part, length) => part :: partsFrom length cs
        | none => .text '$' :: partsFrom 0 cs
    else .text c :: partsFrom 0 cs

/-- The parts of a replacement. -/
def replacement (cs : List Char) : List Part := partsFrom 0 cs

/-- The characters of a range of a text. -/
def slice (cs : List Char) (first last : Nat) : List Char := (cs.drop first).take (last - first)

/-- The text of a group in a match; the match itself is group 0. -/
def groupText (cs : List Char) (m : Regex.Match) (n : Nat) : List Char :=
  match ((0, m.first, m.last) :: m.groups).find? fun g => g.1 = n with
  | some (_, first, last) => slice cs first last
  | none => []

/-- The text that stands for a match. -/
def fill (p : Pattern) (cs : List Char) (m : Regex.Match) (parts : List Part) : List Char :=
  parts.flatMap fun part =>
    match part with
    | .text c => [c]
    | .number n => groupText cs m n
    | .name name =>
      match p.names.lookup (String.ofList name) with
      | some n => groupText cs m n
      | none => []

/-- Replaces matches in a text, of which everything before `done` is already replaced. -/
def replaceMatches (p : Pattern) (parts : List Part) (cs : List Char) :
    (done : Nat) → List Regex.Match → List Char
  | done, [] => cs.drop done
  | done, m :: ms =>
    slice cs done m.first ++ p.fill cs m parts ++ replaceMatches p parts cs m.last ms

/-- Replaces all matches. -/
def replaceAll (p : Pattern) (new cs : List Char) : List Char :=
  p.replaceMatches (replacement new) cs 0 (p.regex.matches cs)

/-- Replaces the first match. -/
def replaceFirst (p : Pattern) (new cs : List Char) : List Char :=
  p.replaceMatches (replacement new) cs 0 ((p.regex.matches cs).take 1)

/-- The texts between matches, of which everything before `done` is already given. -/
def piecesFrom (cs : List Char) : (done : Nat) → List Regex.Match → List (List Char)
  | done, [] => [cs.drop done]
  | done, m :: ms => slice cs done m.first :: piecesFrom cs m.last ms

/-- The texts between the matches. -/
def split (p : Pattern) (cs : List Char) : List (List Char) :=
  piecesFrom cs 0 (p.regex.matches cs)

/-- Whether a text has a match. -/
def isMatch (p : Pattern) (cs : List Char) : Bool := p.regex.isMatch cs

end GatewayMapping.Pattern
