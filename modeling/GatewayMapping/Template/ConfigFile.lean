import GatewayMapping.Template.Render
import GatewayMapping.Yaml.Reader

/-!
# Configuration files

A configuration file is a YAML mapping that sets the parts of a configuration it names; the others
keep their defaults, and members with other names have no meaning.
-/

namespace GatewayMapping.Template.Config

/-- The texts of scalars. -/
def textsOf : List (String × Yaml.Node) → Option (Fields String)
  | [] => some []
  | (key, n) :: rest => do return (key, ← n.text?) :: (← textsOf rest)

/-- The greatest number of nested resources that can be configured. -/
def greatestDepth : Nat := Nat.pow 2 64 - 1

/-- The configuration changed by a member of a mapping. -/
def setEntry (c : Config) (key : String) (n : Yaml.Node) : Option Config := do
  match key with
  | "strict_references" => return { c with strict := ← n.truth? }
  | "resources" => return { c with resources := .ofList (← textsOf (← n.members?)) }
  | "max_parse_depth" =>
    let depth ← n.count?
    if depth ≤ greatestDepth then return { c with maxDepth := depth } else none
  | _ => return c

/-- The names of the parts of a configuration. -/
def partNames : List String := ["strict_references", "resources", "max_parse_depth"]

/-- The configuration changed by the members of a mapping in turn. No part may be set twice. -/
def setEntries (c : Config) : List (String × Yaml.Node) → Option Config
  | [] => some c
  | (key, n) :: rest =>
    if key ∈ partNames && rest.any (·.1 = key) then none
    else do (← c.setEntry key n).setEntries rest

/-- The configuration of a YAML text. -/
def ofYaml? (text : String) : Option Config := do
  setEntries {} (← (← Yaml.parse text).members?)

end GatewayMapping.Template.Config
