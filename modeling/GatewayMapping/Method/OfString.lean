import GatewayMapping.Method.Error
import GatewayMapping.Regex.Replace
import GatewayMapping.Text.Search
import GatewayMapping.Text.Utf8

/-!
# Methods of strings

All positions count characters. Texts are searched and cut by their bytes, so a position is turned
into a byte before and back afterwards. Methods that take a regular expression fail if the text is
none.
-/

namespace GatewayMapping

/-- A method of strings. -/
inductive StringMethod where
  | length
  | isEmpty
  | toString
  | toUpperCase
  | toLowerCase
  | trim
  | substring
  | charAt
  | indexOf
  | lastIndexOf
  | contains
  | startsWith
  | endsWith
  | equals
  | equalsIgnoreCase
  | concat
  | compareTo
  | replace
  | replaceAll
  | replaceFirst
  | matches
  | split
  deriving DecidableEq, Repr, Inhabited

namespace StringMethod

/-- The method of a name. -/
def named? : String → Option StringMethod
  | "length" => some .length
  | "isEmpty" => some .isEmpty
  | "toString" => some .toString
  | "toUpperCase" => some .toUpperCase
  | "toLowerCase" => some .toLowerCase
  | "trim" => some .trim
  | "substring" => some .substring
  | "charAt" => some .charAt
  | "indexOf" => some .indexOf
  | "lastIndexOf" => some .lastIndexOf
  | "contains" => some .contains
  | "startsWith" => some .startsWith
  | "endsWith" => some .endsWith
  | "equals" => some .equals
  | "equalsIgnoreCase" => some .equalsIgnoreCase
  | "concat" => some .concat
  | "compareTo" => some .compareTo
  | "replace" => some .replace
  | "replaceAll" => some .replaceAll
  | "replaceFirst" => some .replaceFirst
  | "matches" => some .matches
  | "split" => some .split
  | _ => none

/-- The byte at which the character at a position begins, or the end of the text. -/
def charIndex : Nat → List Char → Nat
  | n + 1, c :: cs => c.utf8Size + charIndex n cs
  | _, _ => 0

/-- The number of characters before a byte. -/
def charPosition (cs : List Char) (byte : Nat) : Nat := (Text.Utf8.takeBytes byte cs).length

/-- The characters from one position up to another. -/
def substringOf (cs : List Char) (first last : Int64) : Except MethodError Value :=
  let length : Int64 := .ofNat cs.length
  if 0 ≤ first ∧ first ≤ last ∧ last ≤ length then
    let start := charIndex first.toInt.toNat cs
    let stop := charIndex last.toInt.toNat cs
    .ok (.string (.ofList (Text.Utf8.dropBytes start (Text.Utf8.takeBytes stop cs))))
  else .error (.failed (.substring first.toInt last.toInt length.toInt))

/-- The character at a position. -/
def characterAt (cs : List Char) (index : Int64) : Except MethodError Value :=
  match if 0 ≤ index then cs[index.toInt.toNat]? else none with
  | some c => .ok (.string c.toString)
  | none => .error (.failed (.character index.toInt cs.length))

/-- The position of a byte, or -1 if there is none. -/
def positionValue (cs : List Char) : Option Nat → Value
  | some byte => .int (.ofNat (charPosition cs byte))
  | none => .int (-1)

/-- The first byte not before a position at which a text occurs. -/
def indexFrom? (needle cs : List Char) (first : Int64) : Option Nat :=
  let start := charIndex (if first < 0 then 0 else min first.toInt.toNat cs.length) cs
  (Text.indexOf? (Text.Utf8.encode needle)
    (Text.Utf8.encode (Text.Utf8.dropBytes start cs))).map (start + ·)

/-- The last byte at which a text occurs. -/
def lastIndex? (needle cs : List Char) : Option Nat :=
  Text.lastIndexOf? (Text.Utf8.encode needle) (Text.Utf8.encode cs)

/-- How two texts compare: the difference of the first code points that differ, or else of the
lengths. -/
def comparison : List Char → List Char → Int
  | a :: as, b :: bs => if a = b then comparison as bs else (a.toNat : Int) - b.toNat
  | as, bs => (as.length : Int) - bs.length

/-- The regular expression of a text. -/
def patternOf (text : String) : Except MethodError Pattern :=
  match Pattern.parse? text.toList with
  | some p => .ok p
  | none => .error (.failed (.pattern text))

/-- The text of an argument that has to be a string. -/
def stringArg : Value → Except MethodError String
  | .string s => .ok s
  | _ => .error .notFound

/-- Pieces without the empty ones at the end; the first piece stays. -/
def dropFinalEmpty : List (List Char) → List (List Char)
  | [] => []
  | piece :: pieces => piece :: (pieces.reverse.dropWhile List.isEmpty).reverse

/-- The value of a method whose result is no list. -/
def scalar (s : String) : StringMethod → List Value → Except MethodError Value
  | .length, [] => .ok (.int (.ofNat s.toList.length))
  | .isEmpty, [] => .ok (.bool s.isEmpty)
  | .toString, [] => .ok (.string s)
  | .toUpperCase, [] => .ok (.string (.ofList (Text.upper s.toList)))
  | .toLowerCase, [] => .ok (.string (.ofList (Text.lower s.toList)))
  | .trim, [] => .ok (.string (.ofList (Text.trimWhere (· ≤ ' ') s.toList)))
  | .substring, [.int first] => substringOf s.toList first (.ofNat s.toList.length)
  | .substring, [.int first, .int last] => substringOf s.toList first last
  | .charAt, [.int index] => characterAt s.toList index
  | .indexOf, [.string t] => .ok (positionValue s.toList (indexFrom? t.toList s.toList 0))
  | .indexOf, [.string t, .int first] =>
    .ok (positionValue s.toList (indexFrom? t.toList s.toList first))
  | .lastIndexOf, [.string t] => .ok (positionValue s.toList (lastIndex? t.toList s.toList))
  | .contains, [.string t] => .ok (.bool (Text.occursIn t.toList s.toList))
  | .startsWith, [.string t] => .ok (.bool (t.toList.isPrefixOf s.toList))
  | .endsWith, [.string t] => .ok (.bool (t.toList.isSuffixOf s.toList))
  | .equals, [v] => .ok (.bool (v.string? = some s))
  | .equalsIgnoreCase, [v] =>
    .ok (.bool (v.string?.any fun t => Text.lower t.toList = Text.lower s.toList))
  | .concat, [.string t] => .ok (.string (s ++ t))
  | .compareTo, [.string t] => .ok (.int (.ofInt (comparison s.toList t.toList)))
  | .replace, [.string old, .string new] =>
    .ok (.string (.ofList (Text.replace old.toList new.toList s.toList)))
  | .replaceAll, [.string text, new] => do
    let p ← patternOf text
    return .string (.ofList (p.replaceAll (← stringArg new).toList s.toList))
  | .replaceFirst, [.string text, new] => do
    let p ← patternOf text
    return .string (.ofList (p.replaceFirst (← stringArg new).toList s.toList))
  | .matches, [.string text] => do
    let p ← patternOf ("^(?:" ++ text ++ ")$")
    return .bool (p.isMatch s.toList)
  | _, _ => .error .notFound

/-- The value of a method. -/
def run (h : Heap) (s : String) : StringMethod → List Value → MethodResult
  | .split, [.string text] => do
    let p ← patternOf text
    return h.newList ((dropFinalEmpty (p.split s.toList)).map fun piece =>
      .string (.ofList piece))
  | m, args => do return (← scalar s m args, h)

end StringMethod
end GatewayMapping
