/-!
# Searching and replacing

Where one text occurs in another, counted in characters or in bytes, as the texts are lists of
these, and replacing its occurrences. The empty text occurs at every position, the end included.
-/

namespace GatewayMapping.Text

section

variable {α : Type} [DecidableEq α]

/-- The least position at which `needle` occurs. -/
def indexOf? (needle : List α) : List α → Option Nat
  | [] => if needle.isPrefixOf [] then some 0 else none
  | c :: cs => if needle.isPrefixOf (c :: cs) then some 0 else (indexOf? needle cs).map (· + 1)

/-- The greatest position at which `needle` occurs. -/
def lastIndexOf? (needle : List α) : List α → Option Nat
  | [] => if needle.isPrefixOf [] then some 0 else none
  | c :: cs =>
    match lastIndexOf? needle cs with
    | some i => some (i + 1)
    | none => if needle.isPrefixOf (c :: cs) then some 0 else none

/-- Whether `needle` occurs at all. -/
def occursIn (needle cs : List α) : Bool := (indexOf? needle cs).isSome

end

/-- Replaces the occurrences of a nonempty `needle` from left to right; `skip` characters of an
occurrence already replaced are passed over first. -/
def replaceFrom (needle new : List Char) : Nat → List Char → List Char
  | _, [] => []
  | skip + 1, _ :: cs => replaceFrom needle new skip cs
  | 0, c :: cs =>
    if needle.isPrefixOf (c :: cs) then new ++ replaceFrom needle new (needle.length - 1) cs
    else c :: replaceFrom needle new 0 cs

/-- Replaces every occurrence of `needle` that does not overlap an earlier one. The empty text is
replaced before every character and at the end. -/
def replace (needle new cs : List Char) : List Char :=
  if needle.isEmpty then new ++ cs.flatMap fun c => c :: new
  else replaceFrom needle new 0 cs

/-- Cuts a text at every separator character; a text without one is a single piece. -/
def splitAt (separator : Char) : List Char → List (List Char)
  | [] => [[]]
  | c :: cs =>
    if c = separator then [] :: splitAt separator cs
    else match splitAt separator cs with
      | [] => [[c]]
      | piece :: pieces => (c :: piece) :: pieces

/-- Cuts a text at its first separator character. -/
def cutAt? (separator : Char) : List Char → Option (List Char × List Char)
  | [] => none
  | c :: cs =>
    if c = separator then some ([], cs)
    else (cutAt? separator cs).map fun (before, after) => (c :: before, after)

end GatewayMapping.Text
