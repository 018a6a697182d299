import GatewayMapping.Regex.Basic

/-!
# Matching

`Regex.ends` lists the places where a match that begins at a given place may end, the preferred
one first and each place once. A later way to the same place is never preferred, since both ways
go on alike; so a place is kept with the groups of the first way only, and the number of places
bounds the work.

`Regex.matches` are the matches that do not overlap, from left to right.
-/

namespace GatewayMapping.Regex

/-- A place in a text. -/
structure Place where
  index : Nat
  before : Option Char
  rest : List Char
  deriving Repr, Inhabited

/-- The place after the next character. -/
def Place.next? (p : Place) : Option (Char × Place) :=
  match p.rest with
  | [] => none
  | c :: cs => some (c, ⟨p.index + 1, some c, cs⟩)

/-- A place and the ranges of the groups passed on the way to it, the latest first. -/
structure Trace where
  place : Place
  groups : List (Nat × Nat × Nat)
  deriving Repr, Inhabited

/-- The index of the place of a trace. -/
def Trace.index (t : Trace) : Nat := t.place.index

/-- Whether a character belongs to a word. -/
def isWordChar (c : Char) : Bool := CharSet.word.mem c.toNat

/-- Whether a condition holds at a place. -/
def Anchor.holds (a : Anchor) (p : Place) : Bool :=
  let atWord := p.before.any isWordChar != p.rest.head?.any isWordChar
  match a with
  | .textStart => p.before.isNone
  | .textEnd => p.rest.isEmpty
  | .lineStart => p.before.isNone || p.before = some '\n'
  | .lineEnd => p.rest.isEmpty || p.rest.head? = some '\n'
  | .wordBoundary => atWord
  | .noWordBoundary => !atWord

/-- The traces whose place is met for the first time. -/
def firsts (seen : List Nat) : List Trace → List Trace
  | [] => []
  | t :: ts =>
    if seen.contains t.index then firsts seen ts else t :: firsts (t.index :: seen) ts

/-- Takes a step from each of some traces in turn. -/
def andThen (step : Trace → List Trace) (ts : List Trace) : List Trace :=
  firsts [] (ts.flatMap step)

/-- Takes a step a number of times. -/
def times (step : Trace → List Trace) : Nat → List Trace → List Trace
  | 0, ts => ts
  | n + 1, ts => times step n (andThen step ts)

/-- Puts a trace after others if as much as possible is wanted, and before them otherwise. -/
def orStay (greedy : Bool) (t : Trace) (ts : List Trace) : List Trace :=
  if greedy then ts ++ [t] else t :: ts

/-- Visits traces in turn, with the places visited before. -/
def visitAll {κ : Type} (visit : List κ → Trace → List Trace × List κ) :
    List κ → List Trace → List Trace × List κ
  | seen, [] => ([], seen)
  | seen, t :: ts =>
    let (found, seen) := visit seen t
    let (more, seen) := visitAll visit seen ts
    (found ++ more, seen)

/-- Takes at most `limit` steps. A place is left only once after the same number of steps. -/
def atMost (step : Trace → List Trace) (greedy : Bool) :
    (limit : Nat) → List (Nat × Nat) → Trace → List Trace × List (Nat × Nat)
  | 0, seen, t => ([t], seen)
  | limit + 1, seen, t =>
    if seen.contains (limit, t.index) then ([], seen)
    else
      let (found, seen) := visitAll (atMost step greedy limit) ((limit, t.index) :: seen) (step t)
      (orStay greedy t found, seen)

/-- Takes any number of steps, each of which leads to a later place that has not been left. At
most `limit` characters are left. -/
def anyTimes (step : Trace → List Trace) (greedy : Bool) :
    (limit : Nat) → List Nat → Trace → List Trace × List Nat
  | 0, seen, t => (if seen.contains t.index then [] else [t], t.index :: seen)
  | limit + 1, seen, t =>
    if seen.contains t.index then ([], seen)
    else
      let (found, seen) := visitAll (anyTimes step greedy limit) (t.index :: seen) (step t)
      (orStay greedy t found, seen)

/-- Takes one step or more. A first step that does not move is not followed by another one. -/
def oneOrMore (step : Trace → List Trace) (greedy : Bool) (t : Trace) : List Trace :=
  let visit (seen : List Nat) (u : Trace) :=
    if u.index = t.index then (if seen.contains u.index then [] else [u], u.index :: seen)
    else anyTimes step greedy t.place.rest.length seen u
  (visitAll visit [] (step t)).1

/-- The places where a match that begins at a place may end, the preferred one first. -/
def ends : Regex → Trace → List Trace
  | .empty, t => [t]
  | .chars s, t =>
    match t.place.next? with
    | some (c, p) => if s.mem c.toNat then [{ t with place := p }] else []
    | none => []
  | .anchor a, t => if Anchor.holds a t.place then [t] else []
  | .group number r, t =>
    (ends r t).map fun u => { u with groups := (number, t.index, u.index) :: u.groups }
  | .cat r s, t => andThen (ends s) (ends r t)
  | .alt r s, t => firsts [] (ends r t ++ ends s t)
  | .rep least (some most) greedy r, t =>
    firsts [] ((times (ends r) least [t]).flatMap fun u =>
      (atMost (ends r) greedy (most - least) [] u).1)
  | .rep 0 none greedy r, t => firsts [] (orStay greedy t (oneOrMore (ends r) greedy t))
  | .rep (least + 1) none greedy r, t =>
    andThen (oneOrMore (ends r) greedy) (times (ends r) least [t])

/-- A match: where it begins and ends, and the ranges of its groups. -/
structure Match where
  first : Nat
  last : Nat
  groups : List (Nat × Nat × Nat)
  deriving Repr, Inhabited

/-- The preferred match that begins at a place. -/
def matchAt? (r : Regex) (p : Place) : Option Match :=
  (ends r ⟨p, []⟩).head?.map fun t => ⟨p.index, t.index, t.groups⟩

/-- All places from a given one on. -/
def placesFrom : (index : Nat) → Option Char → List Char → List Place
  | index, before, [] => [⟨index, before, []⟩]
  | index, before, c :: cs => ⟨index, before, c :: cs⟩ :: placesFrom (index + 1) (some c) cs

/-- The matches at or after some places in turn. A match begins where the last one ended or
later, and an empty one later; `free` is where the next one may begin at the earliest, and
`closed` a place where it must not be empty. -/
def matchesFrom (r : Regex) : (free : Nat) → (closed : Option Nat) → List Place → List Match
  | _, _, [] => []
  | free, closed, p :: ps =>
    if p.index < free then matchesFrom r free closed ps
    else
      match matchAt? r p with
      | some m =>
        if m.last = p.index then
          if closed = some p.index then matchesFrom r (p.index + 1) closed ps
          else m :: matchesFrom r (p.index + 1) (some m.last) ps
        else m :: matchesFrom r m.last (some m.last) ps
      | none => matchesFrom r free closed ps

/-- The matches that do not overlap, from left to right. -/
def «matches» (r : Regex) (cs : List Char) : List Match :=
  matchesFrom r 0 none (placesFrom 0 none cs)

/-- Whether a text has a match. -/
def isMatch (r : Regex) (cs : List Char) : Bool :=
  (placesFrom 0 none cs).any fun p => !(ends r ⟨p, []⟩).isEmpty

end GatewayMapping.Regex
