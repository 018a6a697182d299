import GatewayMapping.Text.FormUrl

/-!
# Script string literals

Escaping a text for the inside of a JavaScript or JSON string literal: quotes, backslash and slash
take a backslash, five control characters have a letter, and whatever lies outside the printable
ASCII range and `DEL` is written as its UTF-16 units.
-/

namespace GatewayMapping.Text.ScriptString

/-- A UTF-16 unit as a `\u` escape with four capital digits. -/
def unitEscape (n : Nat) : List Char :=
  ['\\', 'u', hexDigit (n / 4096 % 16), hexDigit (n / 256 % 16), hexDigit (n / 16 % 16),
    hexDigit (n % 16)]

/-- The UTF-16 units of a code point. -/
def units (n : Nat) : List Nat :=
  if n < 0x10000 then [n] else [0xD800 + (n - 0x10000) / 1024, 0xDC00 + (n - 0x10000) % 1024]

/-- The escaped form of one character. -/
def encodeChar (c : Char) : List Char :=
  if c = '\'' || c = '"' || c = '\\' || c = '/' then ['\\', c]
  else if c = Char.ofNat 8 then ['\\', 'b']
  else if c = '\n' then ['\\', 'n']
  else if c = '\t' then ['\\', 't']
  else if c = Char.ofNat 12 then ['\\', 'f']
  else if c = '\r' then ['\\', 'r']
  else if c.toNat < 0x20 || 0x7F < c.toNat then (units c.toNat).flatMap unitEscape
  else [c]

/-- The escaped form of a text. -/
def encode (s : String) : String := String.ofList (s.toList.flatMap encodeChar)

end GatewayMapping.Text.ScriptString
