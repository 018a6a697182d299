import GatewayMapping.Json.Decode
import GatewayMapping.Template.Render

/-!
# Documents with a configuration

An object sets the parts of a configuration that it names; the others keep their defaults, and
members with other names have no meaning.
-/

namespace GatewayMapping.Template.Config

/-- The configuration changed by a member of a document. -/
def setMember (c : Config) (key : String) (j : Json) : Except Json.DecodeError Config := do
  match key with
  | "strict_references" => return { c with strict := ← j.decodeBool }
  | "resources" => return { c with resources := ← j.decodeStringMap }
  | "max_parse_depth" => return { c with maxDepth := ← j.decodeCount }
  | _ => return c

/-- The configuration changed by the members of a document in turn. -/
def setMembers (c : Config) : List (String × Json) → Except Json.DecodeError Config
  | [] => .ok c
  | (key, j) :: rest => do (← c.setMember key j).setMembers rest

/-- The configuration of a document. -/
def ofJson : Json → Except Json.DecodeError Config
  | .object fields => setMembers {} fields
  | j => .error (.wrongKind j "struct EngineConfig")

end GatewayMapping.Template.Config
