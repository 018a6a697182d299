import GatewayMapping.Text.Utf8

/-!
# Form encoding

The encoding of form fields in URLs: letters, digits and `*-._` stand for themselves, a blank is
`+`, and every other byte of the UTF-8 form is `%` with two hexadecimal digits.
-/

namespace GatewayMapping.Text

/-- The digit of a value below sixteen, in capitals. -/
def hexDigit (n : Nat) : Char :=
  if n < 10 then Char.ofNat (0x30 + n) else Char.ofNat (0x37 + n)

/-- The value of a hexadecimal digit of either case. -/
def hexValue? (c : Char) : Option Nat :=
  if '0' ≤ c && c ≤ '9' then some (c.toNat - 0x30)
  else if 'A' ≤ c && c ≤ 'F' then some (c.toNat - 0x37)
  else if 'a' ≤ c && c ≤ 'f' then some (c.toNat - 0x57)
  else none

namespace FormUrl

/-- Whether a byte stands for itself. -/
def isUnreserved (b : UInt8) : Bool :=
  let c := Char.ofNat b.toNat
  c.isAlphanum || c = '*' || c = '-' || c = '.' || c = '_'

/-- The encoding of one byte. -/
def encodeByte (b : UInt8) : List Char :=
  if isUnreserved b then [Char.ofNat b.toNat]
  else if b = 0x20 then ['+']
  else ['%', hexDigit (b.toNat / 16), hexDigit (b.toNat % 16)]

/-- The form encoding of a text. -/
def encode (s : String) : String :=
  String.ofList ((Utf8.encode s.toList).flatMap encodeByte)

/-- The bytes that a form-encoded text stands for, or nothing when an escape is not complete. -/
def bytes? : List Char → Option (List UInt8)
  | [] => some []
  | '%' :: a :: b :: cs => do
    let high ← hexValue? a
    let low ← hexValue? b
    let rest ← bytes? cs
    return UInt8.ofNat (high * 16 + low) :: rest
  | '%' :: _ => none
  | '+' :: cs => (bytes? cs).map (0x20 :: ·)
  | c :: cs => (bytes? cs).map (Utf8.encodeChar c ++ ·)

/-- The text that a form-encoded text stands for; a text with an incomplete escape is kept. -/
def decode (s : String) : String :=
  match bytes? s.toList with
  | some bytes => String.ofList (Utf8.decode bytes)
  | none => s

end FormUrl
end GatewayMapping.Text
