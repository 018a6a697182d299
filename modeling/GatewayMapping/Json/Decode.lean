import GatewayMapping.Json.Basic
import GatewayMapping.Json.Printer
import GatewayMapping.Text.Quoted

/-!
# Decoding documents

What a document stands for where a value of a kind is expected, and the wording for a document of
another kind.
-/

namespace GatewayMapping.Json

/-- A document that does not stand for what is expected. -/
inductive DecodeError where
  | wrongKind (found : Json) (expected : String)
  /-- A number of the right kind but out of range. -/
  | wrongValue (found : Json) (expected : String)
  | missingField (name : String)
  | duplicateField (name : String)
  | wrongLength (length : Nat) (expected : String)
  deriving Inhabited

/-- What a document is, in words. -/
def describe : Json → String
  | .null => "null"
  | .bool b => "boolean " ++ "\x60" ++ (if b then "true" else "false") ++ "\x60"
  | .int n => "integer " ++ "\x60" ++ toString n ++ "\x60"
  | .float x => "floating point " ++ "\x60" ++ compact (.float x) ++ "\x60"
  | .string s => "string " ++ Text.Quoted.encode s
  | .array _ => "sequence"
  | .object _ => "map"

/-- The wording of an error. -/
def DecodeError.message : DecodeError → String
  | .wrongKind found expected => "invalid type: " ++ found.describe ++ ", expected " ++ expected
  | .wrongValue found expected => "invalid value: " ++ found.describe ++ ", expected " ++ expected
  | .missingField name => "missing field \x60" ++ name ++ "\x60"
  | .duplicateField name => "duplicate field \x60" ++ name ++ "\x60"
  | .wrongLength length expected =>
    "invalid length " ++ toString length ++ ", expected " ++ expected

/-- A truth value. -/
def decodeBool : Json → Except DecodeError Bool
  | .bool b => .ok b
  | j => .error (.wrongKind j "a boolean")

/-- A string. -/
def decodeString : Json → Except DecodeError String
  | .string s => .ok s
  | j => .error (.wrongKind j "a string")

/-- A count. -/
def decodeCount : Json → Except DecodeError Nat
  | .int n => if 0 ≤ n then .ok n.toNat else .error (.wrongValue (.int n) "usize")
  | j => .error (.wrongKind j "usize")

/-- The strings of the members of an object. -/
def decodeStrings : List (String × Json) → Except DecodeError (Fields String)
  | [] => .ok []
  | (key, j) :: rest => do return (key, ← decodeString j) :: (← decodeStrings rest)

/-- A map of strings. -/
def decodeStringMap : Json → Except DecodeError (OrderedMap String)
  | .object fields => do return .ofList (← decodeStrings fields)
  | j => .error (.wrongKind j "a map")

end GatewayMapping.Json
