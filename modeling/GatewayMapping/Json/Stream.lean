import GatewayMapping.Json.Decode
import GatewayMapping.Json.Reader

/-!
# Decoding texts

A text is decoded while it is read, so that of two faults the earlier one counts, be it a flaw of
the text or a document that does not stand for what is expected.
-/

namespace GatewayMapping.Json

/-- What is wrong with a text that is decoded. -/
inductive StreamFlaw where
  | text (flaw : Flaw)
  | unfit (e : DecodeError)

/-- The wording of a flaw. -/
def StreamFlaw.message : StreamFlaw → String
  | .text flaw => flaw.message
  | .unfit e => e.message

/-- A flaw, and how many bytes of the text lie behind it. -/
structure StreamFault where
  flaw : StreamFlaw
  remaining : Nat

/-- A decoder of a part of a text, which leaves the rest. -/
abbrev Stream := StateT (List Char) (Except StreamFault)

namespace Stream

/-- Reads a part of a text. -/
def read {α : Type} (r : Read α) : Stream α := fun cs =>
  (r.run cs).mapError fun fault => ⟨.text fault.flaw, fault.remaining⟩

/-- Stops at the place reached. -/
def unfit {α : Type} (e : DecodeError) : Stream α := fun cs =>
  .error ⟨.unfit e, Text.Utf8.size cs⟩

/-- Stops at a document of the wrong kind; one without parts is passed over first. -/
def wrongKind {α : Type} (expected : String) : Stream α := do
  match ← read Read.next? with
  | some '[' => unfit (.wrongKind (.array []) expected)
  | some '\x7b' => unfit (.wrongKind (.object []) expected)
  | _ => unfit (.wrongKind (← read (Read.value 0)) expected)

/-- Decodes a string. -/
def string : Stream String := do
  match ← read Read.next? with
  | some '"' => read Read.string
  | _ => wrongKind "a string"

/-- Decodes a string, or nothing from null. -/
def string? : Stream (Option String) := do
  match ← read Read.next? with
  | some 'n' =>
    read (do Read.drop; let _ ← Read.word ['u', 'l', 'l'] .null)
    return none
  | _ => return some (← string)

/-- Passes over the colon after a key. -/
def colon : Stream Unit := read do
  match ← Read.next? with
  | none => Read.failNext .endInObject
  | some ':' => Read.drop
  | some _ => Read.failNext .expectedColon

/-- Finds whether another key follows. -/
def anotherKey (isFirst : Bool) : Stream Bool := read do
  match ← Read.next? with
  | none => Read.failNext .endInObject
  | some '\x7d' => return false
  | some c =>
    if isFirst then
      if c = '"' then return true else Read.failNext .keyNotString
    else if c = ',' then
      Read.drop
      match ← Read.next? with
      | none => Read.failNext .endInValue
      | some '"' => return true
      | some '\x7d' => Read.failNext .trailingComma
      | some _ => Read.failNext .keyNotString
    else Read.failNext .expectedObjectEnd

/-- Decodes members up to the closing brace, which stays. Each member changes what has been
decoded, and each takes a character, so a text of `limit` characters is read to its end. -/
def members {σ : Type} (member : σ → String → Stream σ) :
    (limit : Nat) → (isFirst : Bool) → σ → Stream σ
  | 0, _, s => return s
  | limit + 1, isFirst, s => do
    if ← anotherKey isFirst then
      let key ← read Read.string
      members member limit false (← member s key)
    else return s

/-- Decodes the members of an object. -/
def object {σ : Type} (expected : String) (member : σ → String → Stream σ) (s : σ) :
    Stream σ := do
  match ← read Read.next? with
  | some '\x7b' =>
    read Read.drop
    let s ← members member ((← get).length + 1) true s
    read Read.drop
    return s
  | _ => wrongKind expected

/-- Decodes a map of strings. -/
def stringMap : Stream (OrderedMap String) :=
  object "a map" (fun m key => do
    colon
    return m.insert key (← string)) .empty

/-- Decodes a whole text. -/
def run {α : Type} (d : Stream α) (text : String) : Except String α :=
  let cs := text.toList
  let whole := do
    let x ← d
    read Read.finish
    return x
  match StateT.run whole cs with
  | .ok (x, _) => .ok x
  | .error fault =>
    let (line, column) := lineColumn (Text.Utf8.size cs - fault.remaining) 1 0 cs
    .error (fault.flaw.message ++ placeText line column)

end Stream
end GatewayMapping.Json
