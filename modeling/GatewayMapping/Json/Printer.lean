import GatewayMapping.Decimal.Layout
import GatewayMapping.Json.Basic
import GatewayMapping.Text.FormUrl

/-!
# Writing JSON

The compact form has no blanks; the pretty form puts every item and member on a line of its own,
two blanks further in than what holds it. In strings only quotes, backslashes and control
characters are escaped.
-/

namespace GatewayMapping.Json

/-- Doubles in JSON: the point at its place from `10 ^ -5` up to below `10 ^ 16`, an exponent with
a sign elsewhere. -/
def numberLayout : Decimal.Layout where
  positional e := -5 ≤ e && e < 16
  wholeEnd := ".0"
  digitEnd := ""
  mark := "e"
  plus := "+"
  notANumber := "null"
  infinity := "null"
  zero := "0.0"
  tie := .even

/-- The hexadecimal digit of a value below sixteen, in small letters. -/
def smallHexDigit (n : Nat) : Char := if n < 10 then Char.ofNat (48 + n) else Char.ofNat (87 + n)

/-- The escaped form of a character in a string. -/
def escapeChar (c : Char) : List Char :=
  if c = '"' || c = '\\' then ['\\', c]
  else if c = Char.ofNat 8 then ['\\', 'b']
  else if c = Char.ofNat 12 then ['\\', 'f']
  else if c = '\n' then ['\\', 'n']
  else if c = '\r' then ['\\', 'r']
  else if c = '\t' then ['\\', 't']
  else if c.toNat < 0x20 then
    ['\\', 'u', '0', '0', smallHexDigit (c.toNat / 16), smallHexDigit (c.toNat % 16)]
  else [c]

/-- A string in quotes. -/
def quote (s : String) : String :=
  "\"" ++ String.ofList (s.toList.flatMap escapeChar) ++ "\""

mutual
/-- The compact text of a document. -/
def compact : Json → String
  | .null => "null"
  | .bool b => if b then "true" else "false"
  | .int n => toString n
  | .float x => numberLayout.text x
  | .string s => quote s
  | .array items => "[" ++ compactItems items ++ "]"
  | .object fields => "\x7b" ++ compactMembers fields ++ "\x7d"

/-- The compact texts of items, with commas between them. -/
def compactItems : List Json → String
  | [] => ""
  | [x] => compact x
  | x :: xs => compact x ++ "," ++ compactItems xs

/-- The compact texts of members, with commas between them. -/
def compactMembers : List (String × Json) → String
  | [] => ""
  | [(key, x)] => quote key ++ ":" ++ compact x
  | (key, x) :: fs => quote key ++ ":" ++ compact x ++ "," ++ compactMembers fs
end

/-- The start of a line that lies `depth` steps in. -/
def newLine (depth : Nat) : String := "\n" ++ String.ofList (List.replicate (2 * depth) ' ')

mutual
/-- The pretty text of a document that lies `depth` steps in. -/
def prettyAt (depth : Nat) : Json → String
  | .array [] => "[]"
  | .array (x :: xs) => "[" ++ prettyItems (depth + 1) (x :: xs) ++ newLine depth ++ "]"
  | .object [] => "\x7b\x7d"
  | .object (f :: fs) => "\x7b" ++ prettyMembers (depth + 1) (f :: fs) ++ newLine depth ++ "\x7d"
  | .null => "null"
  | .bool b => if b then "true" else "false"
  | .int n => toString n
  | .float x => numberLayout.text x
  | .string s => quote s

/-- The pretty texts of items, each on a line of its own. -/
def prettyItems (depth : Nat) : List Json → String
  | [] => ""
  | [x] => newLine depth ++ prettyAt depth x
  | x :: xs => newLine depth ++ prettyAt depth x ++ "," ++ prettyItems depth xs

/-- The pretty texts of members, each on a line of its own. -/
def prettyMembers (depth : Nat) : List (String × Json) → String
  | [] => ""
  | [(key, x)] => newLine depth ++ quote key ++ ": " ++ prettyAt depth x
  | (key, x) :: fs =>
    newLine depth ++ quote key ++ ": " ++ prettyAt depth x ++ "," ++ prettyMembers depth fs
end

/-- The pretty text of a document. -/
def pretty (j : Json) : String := prettyAt 0 j

end GatewayMapping.Json
