import GatewayMapping.Decimal.Double
import GatewayMapping.Json.Basic
import GatewayMapping.Json.Error

/-!
# Reading JSON

A reader of texts that stops at the first flaw. Objects keep the order in which their keys are
first seen, and a repeated key takes the last value. Whole numbers between the least 64-bit
integer and the greatest unsigned one stay whole; every other number, and `-0`, is a double. At
most 127 arrays and objects lie inside one another.

`Json.parse` reads a whole text. The functions below it read a part and leave the rest.
-/

namespace GatewayMapping.Json

/-- A reader of a part of a text, which leaves the rest. -/
abbrev Read := StateT (List Char) (Except Fault)

namespace Read

/-- Stops at the place reached. -/
def failHere {α : Type} (flaw : Flaw) : Read α := fun cs => .error ⟨flaw, Text.Utf8.size cs⟩

/-- Stops at the byte after the place reached, or at the end. -/
def failNext {α : Type} (flaw : Flaw) : Read α := fun cs => .error ⟨flaw, Text.Utf8.size cs - 1⟩

/-- The next character, which stays. -/
def peek? : Read (Option Char) := fun cs => .ok (cs.head?, cs)

/-- Passes over one character. -/
def drop : Read Unit := fun cs => .ok ((), cs.tail)

/-- Passes over the characters of a class and gives them back. -/
def takeWhile (p : Char → Bool) : Read (List Char) := fun cs => .ok (cs.takeWhile p, cs.dropWhile p)

/-- Whether a character may stand between the parts of a document. -/
def isSpace (c : Char) : Bool := c = ' ' || c = '\n' || c = '\t' || c = '\r'

/-- Passes over blanks and looks at what follows. -/
def next? : Read (Option Char) := do
  let _ ← takeWhile isSpace
  peek?

/-- Reads the rest of a word that stands for a value. -/
def word : List Char → Json → Read Json
  | [], value => pure value
  | w :: ws, value => do
    match ← peek? with
    | none => failHere .endInValue
    | some c =>
      if c = w then
        drop
        word ws value
      else failNext .expectedIdent

/-! ### Numbers -/

/-- The value of a list of decimal digits. -/
def digitsValue (ds : List Char) : Nat := ds.foldl (fun n d => n * 10 + (d.toNat - 48)) 0

/-- The double nearest to `significand * 10 ^ exponent`, if there is one. -/
def nearestDouble? (significand : Nat) (exponent : Int) : Option Float :=
  let size := (Nat.toDigits 10 significand).length
  if significand = 0 then some 0.0
  else if 310 < exponent + size then none
  else if exponent + size < -330 then some 0.0
  else
    let x :=
      if exponent < 0 then Float.ofScientific significand true exponent.natAbs
      else Float.ofScientific significand false exponent.natAbs
    if x.isInf then none else some x

/-- A double of given sign, or a flaw when it is too large. -/
def double (negative : Bool) (significand : Nat) (exponent : Int) : Read Json := do
  match nearestDouble? significand exponent with
  | some x => return .float (if negative then -x else x)
  | none => failHere .numberOutOfRange

/-- The greatest exponent that is taken as it stands. -/
def greatestExponent : Nat := 2147483647

/-- Reads the digits of an exponent up to the first one that makes it too large. -/
def exponentDigits : Nat → List Char → Nat × List Char
  | n, [] => (n, [])
  | n, c :: cs =>
    if greatestExponent < n then (n, c :: cs)
    else if c.isDigit then exponentDigits (n * 10 + (c.toNat - 48)) cs
    else (n, c :: cs)

/-- Reads an exponent after its mark, and with it ends the number. -/
def exponent (negative : Bool) (significand : Nat) (scale : Int) : Read Json := do
  drop
  let sign ← peek?
  if sign = some '+' || sign = some '-' then drop
  match ← peek? with
  | none => failHere .endInValue
  | some c =>
    if c.isDigit then
      let n ← fun cs => .ok (exponentDigits 0 cs)
      if greatestExponent < n then
        if significand ≠ 0 && sign ≠ some '-' then failHere .numberOutOfRange
        else
          let _ ← takeWhile Char.isDigit
          return .float (if negative then -0.0 else 0.0)
      else if sign = some '-' then double negative significand (scale - n)
      else double negative significand (scale + n)
    else failNext .invalidNumber

/-- Reads a fraction after the whole part, and with it ends the number. -/
def fraction (negative : Bool) (whole : List Char) : Read Json := do
  drop
  let ds ← takeWhile Char.isDigit
  let significand := digitsValue (whole ++ ds)
  if ds.isEmpty then
    match ← peek? with
    | some _ => failNext .invalidNumber
    | none => failNext .endInValue
  else
    match ← peek? with
    | some 'e' | some 'E' => exponent negative significand (-ds.length)
    | _ => double negative significand (-ds.length)

/-- A whole number of given sign: whole if it fits, a double otherwise. -/
def whole (negative : Bool) (n : Nat) : Read Json :=
  if negative then
    if 0 < n && n ≤ Nat.pow 2 63 then pure (.int (-n)) else double true n 0
  else if n < Nat.pow 2 64 then pure (.int n) else double false n 0

/-- Reads the digits before the point, the first of which is seen already: a zero stands alone. -/
def wholeDigits (first : Char) : Read (List Char) :=
  if first = '0' then takeWhileOne else takeWhile Char.isDigit
where
  /-- Reads one character. -/
  takeWhileOne : Read (List Char) := fun cs => .ok (cs.take 1, cs.drop 1)

/-- Reads a number after its sign. -/
def number (negative : Bool) : Read Json := do
  match ← peek? with
  | none => failHere .endInValue
  | some c =>
    if c.isDigit then
      let ds ← wholeDigits c
      match ← peek? with
      | some '.' => fraction negative ds
      | some 'e' | some 'E' => exponent negative (digitsValue ds) 0
      | some d =>
        if c = '0' && d.isDigit then failNext .invalidNumber
        else whole negative (digitsValue ds)
      | none => whole negative (digitsValue ds)
    else failNext .invalidNumber

/-! ### Strings -/

/-- The value of a hexadecimal digit. -/
def hexValue? (c : Char) : Option Nat :=
  if c.isDigit then some (c.toNat - 0x30)
  else if 'A' ≤ c && c ≤ 'F' then some (c.toNat - 0x37)
  else if 'a' ≤ c && c ≤ 'f' then some (c.toNat - 0x57)
  else none

/-- Reads the four digits of a hexadecimal escape. They are the next four bytes. -/
def hexUnit : List Char → Except Fault (Nat × List Char)
  | a :: b :: c :: d :: rest =>
    match hexValue? a, hexValue? b, hexValue? c, hexValue? d with
    | some a, some b, some c, some d => .ok (((a * 16 + b) * 16 + c) * 16 + d, rest)
    | _, _, _, _ => .error ⟨.invalidEscape, Text.Utf8.size (a :: b :: c :: d :: rest) - 4⟩
  | cs =>
    if Text.Utf8.size cs < 4 then .error ⟨.endInString, 0⟩
    else .error ⟨.invalidEscape, Text.Utf8.size cs - 4⟩

/-- Reads the second half of a surrogate pair. -/
def lowSurrogate (high : Nat) : List Char → Except Fault (Char × List Char)
  | [] => .error ⟨.endInString, 0⟩
  | ['\\'] => .error ⟨.endInString, 0⟩
  | '\\' :: 'u' :: cs => do
    let (low, rest) ← hexUnit cs
    if 0xDC00 ≤ low && low ≤ 0xDFFF then
      return (Char.ofNat ((high - 0xD800) * 1024 + (low - 0xDC00) + 0x10000), rest)
    else .error ⟨.loneSurrogate, Text.Utf8.size rest⟩
  | '\\' :: cs => .error ⟨.endInHexEscape, Text.Utf8.size cs - 1⟩
  | cs => .error ⟨.endInHexEscape, Text.Utf8.size cs - 1⟩

/-- Reads an escape after its backslash. -/
def escape : List Char → Except Fault (Char × List Char)
  | [] => .error ⟨.endInString, 0⟩
  | '"' :: cs => .ok ('"', cs)
  | '\\' :: cs => .ok ('\\', cs)
  | '/' :: cs => .ok ('/', cs)
  | 'b' :: cs => .ok (Char.ofNat 8, cs)
  | 'f' :: cs => .ok (Char.ofNat 12, cs)
  | 'n' :: cs => .ok ('\n', cs)
  | 'r' :: cs => .ok ('\r', cs)
  | 't' :: cs => .ok ('\t', cs)
  | 'u' :: cs => do
    let (unit, rest) ← hexUnit cs
    if 0xDC00 ≤ unit && unit ≤ 0xDFFF then .error ⟨.loneSurrogate, Text.Utf8.size rest⟩
    else if 0xD800 ≤ unit && unit ≤ 0xDBFF then lowSurrogate unit rest
    else return (Char.ofNat unit, rest)
  | c :: cs => .error ⟨.invalidEscape, Text.Utf8.size (c :: cs) - 1⟩

theorem length_hexUnit {cs rest : List Char} {n : Nat} (h : hexUnit cs = .ok (n, rest)) :
    rest.length < cs.length := by
  unfold hexUnit at h
  split at h
  · split at h
    · injection h with h
      injection h with _ h
      subst h
      simp only [List.length_cons]
      omega
    · injection h
  · split at h <;> injection h

theorem length_lowSurrogate {high : Nat} {cs rest : List Char} {c : Char}
    (h : lowSurrogate high cs = .ok (c, rest)) : rest.length < cs.length := by
  unfold lowSurrogate at h
  split at h
  · injection h
  · injection h
  · rename_i ds
    simp only [bind, Except.bind] at h
    split at h
    · injection h
    · rename_i v hv
      split at h
      · injection h with h
        injection h with _ h
        have : v.2.length < _ := length_hexUnit hv
        rw [← h]
        simp only [List.length_cons]
        omega
      · injection h
  · injection h
  · injection h

theorem length_escape {cs rest : List Char} {c : Char} (h : escape cs = .ok (c, rest)) :
    rest.length < cs.length := by
  unfold escape at h
  split at h
  all_goals first
    | (cases h; done)
    | (cases h; simp only [List.length_cons]; omega)
    | skip
  simp only [bind, Except.bind] at h
  split at h
  · injection h
  · rename_i v hv
    have hunit : v.2.length < _ := length_hexUnit hv
    split at h
    · injection h
    · split at h
      · have := length_lowSurrogate h
        simp only [List.length_cons]
        omega
      · injection h with h
        injection h with _ h
        subst h
        simp only [List.length_cons]
        omega

/-- Reads the inside of a string and its closing quote. -/
def stringBody (cs : List Char) : Except Fault (List Char × List Char) :=
  match cs with
  | [] => .error ⟨.endInString, 0⟩
  | '"' :: cs => .ok ([], cs)
  | '\\' :: cs =>
    match _h : escape cs with
    | .error fault => .error fault
    | .ok (c, rest) => do
      let (body, rest) ← stringBody rest
      return (c :: body, rest)
  | c :: cs =>
    if c.toNat < 0x20 then .error ⟨.controlCharacter, Text.Utf8.size cs⟩
    else do
      let (body, rest) ← stringBody cs
      return (c :: body, rest)
termination_by cs.length
decreasing_by
  · have := length_escape _h
    simp only [List.length_cons]
    omega
  · simp only [List.length_cons]
    omega

/-- Reads a string from its opening quote on. -/
def string : Read String := do
  drop
  let body ← stringBody
  return String.ofList body

/-! ### Arrays and objects -/

/-- Reads the rest of an array after an item. Each step passes over a character, so a text of
`fuel` characters is read to its end. -/
def itemsAfter (item : Read Json) : (fuel : Nat) → Read (List Json)
  | 0 => failHere .endInList
  | fuel + 1 => do
    match ← next? with
    | none => failNext .endInList
    | some ']' =>
      drop
      return []
    | some ',' =>
      drop
      match ← next? with
      | none => failNext .endInValue
      | some ']' => failNext .trailingComma
      | some _ =>
        let first ← item
        let rest ← itemsAfter item fuel
        return first :: rest
    | some _ => failNext .expectedListEnd

/-- Reads an array after its opening bracket. -/
def items (item : Read Json) : Read (List Json) := do
  match ← next? with
  | none => failNext .endInList
  | some ']' =>
    drop
    return []
  | some _ =>
    let first ← item
    let rest ← itemsAfter item ((← get).length + 1)
    return first :: rest

/-- Reads a member from its key on. -/
def member (item : Read Json) : Read (String × Json) := do
  let key ← string
  match ← next? with
  | none => failNext .endInObject
  | some ':' =>
    drop
    let value ← item
    return (key, value)
  | some _ => failNext .expectedColon

/-- Reads the rest of an object after a member, with fuel as for arrays. -/
def membersAfter (item : Read Json) : (fuel : Nat) → Read (Fields Json)
  | 0 => failHere .endInObject
  | fuel + 1 => do
    match ← next? with
    | none => failNext .endInObject
    | some '\x7d' =>
      drop
      return []
    | some ',' =>
      drop
      match ← next? with
      | none => failNext .endInValue
      | some '"' =>
        let first ← member item
        let rest ← membersAfter item fuel
        return first :: rest
      | some '\x7d' => failNext .trailingComma
      | some _ => failNext .keyNotString
    | some _ => failNext .expectedObjectEnd

/-- Reads an object after its opening brace. -/
def members (item : Read Json) : Read (Fields Json) := do
  match ← next? with
  | none => failNext .endInObject
  | some '\x7d' =>
    drop
    return []
  | some '"' =>
    let first ← member item
    let rest ← membersAfter item ((← get).length + 1)
    return first :: rest
  | some _ => failNext .keyNotString

/-- Reads a document whose items and members, if it may have any, are read by `nested`. -/
def valueWith (nested : Option (Read Json)) : Read Json := do
  match ← next? with
  | none => failNext .endInValue
  | some 'n' =>
    drop
    word ['u', 'l', 'l'] .null
  | some 't' =>
    drop
    word ['r', 'u', 'e'] (.bool true)
  | some 'f' =>
    drop
    word ['a', 'l', 's', 'e'] (.bool false)
  | some '-' =>
    drop
    number true
  | some '"' => return .string (← string)
  | some '[' =>
    match nested with
    | none => failNext .recursionLimit
    | some item =>
      drop
      return .array (← items item)
  | some '\x7b' =>
    match nested with
    | none => failNext .recursionLimit
    | some item =>
      drop
      return .object (Fields.insertAll [] (← members item))
  | some c => if c.isDigit then number false else failNext .expectedValue

/-- Reads a document in which at most `depth` arrays and objects lie inside one another. -/
def value : (depth : Nat) → Read Json
  | 0 => valueWith none
  | depth + 1 => valueWith (some (value depth))

/-- Reads what may follow a document. -/
def finish : Read Unit := do
  match ← next? with
  | none => return ()
  | some _ => failNext .trailingCharacters

end Read

/-- How many arrays and objects may lie inside one another. -/
def greatestDepth : Nat := 127

/-- Reads a whole text. -/
def Read.document : Read Json := do
  let j ← Read.value greatestDepth
  Read.finish
  return j

/-- The document that a text holds. -/
def parse (text : String) : Except ReadError Json :=
  match Read.document text.toList with
  | .ok (j, _) => .ok j
  | .error fault => .error (fault.locate text.toList)

end GatewayMapping.Json
