import GatewayMapping.Text.Utf8

/-!
# Base64

The standard alphabet. Writing pads the last group with `=`; reading takes the padding in full, in
part or not at all, and refuses a group whose left-over bits are not zero.
-/

namespace GatewayMapping.Text.Base64

/-- The symbol of a value below 64. -/
def symbol (n : Nat) : Char :=
  if n < 26 then Char.ofNat (0x41 + n)
  else if n < 52 then Char.ofNat (0x61 + (n - 26))
  else if n < 62 then Char.ofNat (0x30 + (n - 52))
  else if n = 62 then '+'
  else '/'

/-- The value of a symbol. -/
def value? (c : Char) : Option Nat :=
  if 'A' ≤ c && c ≤ 'Z' then some (c.toNat - 0x41)
  else if 'a' ≤ c && c ≤ 'z' then some (c.toNat - 0x61 + 26)
  else if '0' ≤ c && c ≤ '9' then some (c.toNat - 0x30 + 52)
  else if c = '+' then some 62
  else if c = '/' then some 63
  else none

/-- The symbols of a list of bytes, padded to whole groups of four. -/
def encodeBytes : List UInt8 → List Char
  | [] => []
  | [a] =>
    let n := a.toNat
    [symbol (n / 4), symbol (n % 4 * 16), '=', '=']
  | [a, b] =>
    let n := a.toNat * 256 + b.toNat
    [symbol (n / 1024), symbol (n / 16 % 64), symbol (n % 16 * 4), '=']
  | a :: b :: c :: rest =>
    let n := (a.toNat * 256 + b.toNat) * 256 + c.toNat
    symbol (n / 262144) :: symbol (n / 4096 % 64) :: symbol (n / 64 % 64) :: symbol (n % 64) ::
      encodeBytes rest

/-- The byte of two symbols. -/
def oneByte? (a b : Char) : Option (List UInt8) := do
  let n := (← value? a) * 64 + (← value? b)
  if n % 16 = 0 then some [UInt8.ofNat (n / 16)] else none

/-- The bytes of three symbols. -/
def twoBytes? (a b c : Char) : Option (List UInt8) := do
  let n := ((← value? a) * 64 + (← value? b)) * 64 + (← value? c)
  if n % 4 = 0 then some [UInt8.ofNat (n / 1024), UInt8.ofNat (n / 4 % 256)] else none

/-- The bytes of four symbols. -/
def threeBytes? (a b c d : Char) : Option (List UInt8) := do
  let n := (((← value? a) * 64 + (← value? b)) * 64 + (← value? c)) * 64 + (← value? d)
  return [UInt8.ofNat (n / 65536), UInt8.ofNat (n / 256 % 256), UInt8.ofNat (n % 256)]

/-- The bytes that a text in base64 stands for. Only the last group may be short or padded. -/
def bytes? : List Char → Option (List UInt8)
  | [] => some []
  | a :: b :: c :: d :: e :: rest => do return (← threeBytes? a b c d) ++ (← bytes? (e :: rest))
  | [a, b] | [a, b, '='] | [a, b, '=', '='] => oneByte? a b
  | [a, b, c] | [a, b, c, '='] => twoBytes? a b c
  | [a, b, c, d] => threeBytes? a b c d
  | [_] => none

/-- The base64 form of a text. -/
def encode (s : String) : String := String.ofList (encodeBytes (Utf8.encode s.toList))

/-- The text that a base64 text stands for; a text that is no base64 is kept. -/
def decode (s : String) : String :=
  match bytes? s.toList with
  | some bytes => String.ofList (Utf8.decode bytes)
  | none => s

end GatewayMapping.Text.Base64
