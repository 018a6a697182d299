import GatewayMapping.Text.PrintTable
import GatewayMapping.Text.Ranges

/-!
# Quoted texts

The double-quoted form in which values are shown for inspection: quotes and backslashes take a
backslash, four control characters have a letter, and a character that cannot be seen on its own
is written as its code point in braces.
-/

namespace GatewayMapping.Text.Quoted

/-- The digits of a number to base sixteen, in small letters. -/
def hexDigits (n : Nat) : List Char := Nat.toDigits 16 n

/-- The quoted form of one character. -/
def encodeChar (c : Char) : List Char :=
  if c = Char.ofNat 0 then ['\\', '0']
  else if c = '\t' then ['\\', 't']
  else if c = '\r' then ['\\', 'r']
  else if c = '\n' then ['\\', 'n']
  else if c = '"' || c = '\\' then ['\\', c]
  else if inRanges graphemeExtendRanges c.toNat || inRanges unprintableRanges c.toNat then
    ['\\', 'u', '\x7b'] ++ hexDigits c.toNat ++ ['\x7d']
  else [c]

/-- The quoted form of a text. -/
def encode (s : String) : String :=
  String.ofList (['"'] ++ s.toList.flatMap encodeChar ++ ['"'])

end GatewayMapping.Text.Quoted
