import GatewayMapping.OrderedMap

/-!
# YAML nodes

What a YAML document is made of. A scalar is a text; what it stands for depends on where it stands
and on whether it is plain, that is written without quotes.
-/

namespace GatewayMapping.Yaml

/-- A node of a document. The keys of a mapping are scalars. -/
inductive Node where
  | scalar (text : String) (isPlain : Bool)
  | sequence (items : List Node)
  | mapping (members : List (String × Node))
  deriving Repr, BEq, Inhabited

namespace Node

/-- The node that is written as nothing. -/
def nothing : Node := .scalar "" true

/-- The members of a mapping. -/
def members? : Node → Option (Fields Node)
  | .mapping members => some members
  | _ => none

/-- The text of a scalar. -/
def text? : Node → Option String
  | .scalar text _ => some text
  | _ => none

/-- The truth value that a plain scalar means. -/
def truth? : Node → Option Bool
  | .scalar text true =>
    if text ∈ ["true", "True", "TRUE"] then some true
    else if text ∈ ["false", "False", "FALSE"] then some false
    else none
  | _ => none

/-- The value of a digit. -/
def digit? (c : Char) : Option Nat :=
  if c.isDigit then some (c.toNat - 48)
  else if 'a' ≤ c ∧ c ≤ 'f' then some (c.toNat - 87)
  else if 'A' ≤ c ∧ c ≤ 'F' then some (c.toNat - 55)
  else none

/-- The number that digits to a base write. There has to be a digit. -/
def digits? (base : Nat) (cs : List Char) : Option Nat :=
  if cs.isEmpty then none
  else cs.foldlM (fun n c => do
    let d ← digit? c
    if d < base then some (n * base + d) else none) 0

/-- The count that a plain scalar means, in decimal digits without a zero in front, or to the base
16, 8 or 2 after `0x`, `0o` or `0b`. -/
def count? : Node → Option Nat
  | .scalar text true =>
    let cs := match text.toList with
      | '+' :: cs => cs
      | cs => cs
    match cs with
    | '0' :: 'x' :: cs => digits? 16 cs
    | '0' :: 'o' :: cs => digits? 8 cs
    | '0' :: 'b' :: cs => digits? 2 cs
    | ['0'] => some 0
    | '0' :: _ => none
    | cs => digits? 10 cs
  | _ => none

end Node
end GatewayMapping.Yaml
