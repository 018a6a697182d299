import GatewayMapping.Text.CaseTable

/-!
# Upper and lower case

The Unicode mappings of whole texts. A character may become several (`ß` is `SS` in capitals),
and a capital sigma at the end of a word becomes the final form of the small letter.
-/

namespace GatewayMapping.Text

/-- The characters that a table of single images and a table of longer ones give for one. -/
def mapCase (ranges : List CaseRange) (expansions : List (Nat × List Nat)) (c : Char) :
    List Char :=
  match expansions.lookup c.toNat with
  | some image => image.map Char.ofNat
  | none =>
    match imageIn? ranges c.toNat with
    | some n => [Char.ofNat n]
    | none => [c]

/-- The upper case of a character. -/
def upperChar (c : Char) : List Char := mapCase upperRanges upperExpansions c

/-- The lower case of a character that stands alone. -/
def lowerChar (c : Char) : List Char := mapCase lowerRanges lowerExpansions c

/-- The upper case of a text. -/
def upper (cs : List Char) : List Char := cs.flatMap upperChar

/-- Whether the first character that is not ignored where cases are compared has a case. -/
def meetsCased (cs : List Char) : Bool :=
  match cs.dropWhile fun c => inRanges caseIgnorableRanges c.toNat with
  | c :: _ => inRanges casedRanges c.toNat
  | [] => false

/-- The lower case of the text that follows `before`, which is given backwards. -/
def lowerFrom (before : List Char) : List Char → List Char
  | [] => []
  | c :: cs =>
    let image :=
      if c = 'Σ' then
        if meetsCased before && !meetsCased cs then ['ς'] else ['σ']
      else lowerChar c
    image ++ lowerFrom (c :: before) cs

/-- The lower case of a text. -/
def lower (cs : List Char) : List Char := lowerFrom [] cs

/-- The code point that stands for all code points that differ from one in case only. -/
def foldCase (n : Nat) : Nat := (imageIn? foldRanges n).getD n

/-- The code points that differ from one in case only, the code point itself included. -/
def caseVariants (n : Nat) : List Nat := foldCase n :: preimagesIn foldRanges (foldCase n)

/-- A text whose first character is in upper case. -/
def capitalize (s : String) : String :=
  match s.toList with
  | [] => ""
  | c :: cs => String.ofList (upperChar c ++ cs)

end GatewayMapping.Text
