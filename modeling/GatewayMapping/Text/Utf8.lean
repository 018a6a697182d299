/-!
# UTF-8

The bytes of a text, and the text of bytes. Bytes that are no UTF-8 still give a text: each
longest start of a character that cannot be completed, and each byte that starts none, becomes
one replacement character.
-/

namespace GatewayMapping.Text.Utf8

/-- The bytes of a character. -/
def encodeChar (c : Char) : List UInt8 :=
  let n := c.toNat
  if n < 0x80 then [UInt8.ofNat n]
  else if n < 0x800 then [UInt8.ofNat (0xC0 + n / 64), UInt8.ofNat (0x80 + n % 64)]
  else if n < 0x10000 then
    [UInt8.ofNat (0xE0 + n / 4096), UInt8.ofNat (0x80 + n / 64 % 64), UInt8.ofNat (0x80 + n % 64)]
  else
    [UInt8.ofNat (0xF0 + n / 262144), UInt8.ofNat (0x80 + n / 4096 % 64),
      UInt8.ofNat (0x80 + n / 64 % 64), UInt8.ofNat (0x80 + n % 64)]

/-- The bytes of a text. -/
def encode (cs : List Char) : List UInt8 := cs.flatMap encodeChar

/-- The number of bytes of a text. -/
def size : List Char → Nat
  | [] => 0
  | c :: cs => c.utf8Size + size cs

/-- The characters that end by a byte position. -/
def takeBytes : Nat → List Char → List Char
  | _, [] => []
  | n, c :: cs => if c.utf8Size ≤ n then c :: takeBytes (n - c.utf8Size) cs else []

/-- The characters from a byte position on. -/
def dropBytes : Nat → List Char → List Char
  | _, [] => []
  | n, c :: cs => if c.utf8Size ≤ n then dropBytes (n - c.utf8Size) cs else c :: cs

/-- What stands in for bytes that are no character. -/
def replacement : Char := Char.ofNat 0xFFFD

/-- A character begun and not finished: how many bytes it needs after the next one, between which
bounds the next one has to lie, and the bits read so far. -/
structure Begun where
  owed : Nat
  low : Nat
  high : Nat
  bits : Nat
  deriving Repr, DecidableEq

/-- Reads a byte where a character starts: what it completes, and what it begins. -/
def start (b : UInt8) : List Char × Option Begun :=
  let n := b.toNat
  if n < 0x80 then ([Char.ofNat n], none)
  else if n < 0xC2 then ([replacement], none)
  else if n < 0xE0 then ([], some ⟨0, 0x80, 0xBF, n - 0xC0⟩)
  else if n = 0xE0 then ([], some ⟨1, 0xA0, 0xBF, 0⟩)
  else if n = 0xED then ([], some ⟨1, 0x80, 0x9F, 0xD⟩)
  else if n < 0xF0 then ([], some ⟨1, 0x80, 0xBF, n - 0xE0⟩)
  else if n = 0xF0 then ([], some ⟨2, 0x90, 0xBF, 0⟩)
  else if n < 0xF4 then ([], some ⟨2, 0x80, 0xBF, n - 0xF0⟩)
  else if n = 0xF4 then ([], some ⟨2, 0x80, 0x8F, 4⟩)
  else ([replacement], none)

/-- Reads a byte after a character was begun, or after none was. A byte that cannot continue the
character begun leaves a replacement character and starts anew. -/
def step : Option Begun → UInt8 → List Char × Option Begun
  | none, b => start b
  | some begun, b =>
    if begun.low ≤ b.toNat && b.toNat ≤ begun.high then
      let bits := begun.bits * 64 + (b.toNat - 0x80)
      match begun.owed with
      | 0 => ([Char.ofNat bits], none)
      | owed + 1 => ([], some ⟨owed, 0x80, 0xBF, bits⟩)
    else (replacement :: (start b).1, (start b).2)

/-- The text of the bytes that follow a character begun, or none. -/
def decodeFrom : Option Begun → List UInt8 → List Char
  | none, [] => []
  | some _, [] => [replacement]
  | state, b :: bs => (step state b).1 ++ decodeFrom (step state b).2 bs

/-- The text of a list of bytes, with replacement characters for what is no UTF-8. -/
def decode (bytes : List UInt8) : List Char := decodeFrom none bytes

example : decode (encode "aé€😀".toList) = "aé€😀".toList := by decide
example : decode [0xED, 0xA0, 0x80] = [replacement, replacement, replacement] := by decide
example : decode [0xE2, 0x82, 0x28] = [replacement, '('] := by decide

end GatewayMapping.Text.Utf8
