import GatewayMapping.Json.Basic
import GatewayMapping.Regex.Replace
import GatewayMapping.Value.Basic

/-!
# Paths into JSON documents

A path is a list of steps from a document down. A path whose steps are all single names and
indexes is definite: it leads to one place at most. Every other path leads to a list of places. A
union of names at the end of a path is no step: it makes one object of the members that it names.
-/

namespace GatewayMapping

namespace JsonPath

/-- A function of what a path leads to. -/
inductive Function where
  | length
  | min
  | max
  | avg
  | sum
  deriving DecidableEq, Repr, Inhabited

/-- The name of a function. -/
def Function.name : Function → String
  | .length => "length"
  | .min => "min"
  | .max => "max"
  | .avg => "avg"
  | .sum => "sum"

/-- The function of a name. -/
def Function.named? : String → Option Function
  | "length" | "size" => some .length
  | "min" => some .min
  | "max" => some .max
  | "avg" => some .avg
  | "sum" => some .sum
  | _ => none

/-- The comparisons of filters. -/
inductive CompareOp where
  | eq
  | ne
  | lt
  | le
  | gt
  | ge
  deriving DecidableEq, Repr, Inhabited

mutual
/-- What a step selects from a place. -/
inductive Selector where
  | name (name : String)
  | names (names : List String)
  | wildcard
  | index (i : Int64)
  | indexes (is : List Int64)
  /-- The items from a bound on up to another one, either of which may be missing. -/
  | slice (first last : Option Int64)
  | filter (f : Filter)

/-- A step, which may be taken from every place below. -/
inductive Step where
  | mk (deep : Bool) (selector : Selector)

/-- The steps of a path, the union of names at its end and its function. -/
inductive Route where
  | mk (steps : List Step) (union : Option (List String)) (function : Option Function)

/-- A value that a filter compares. -/
inductive Operand where
  | path (fromRoot : Bool) (route : Route)
  | literal (j : Json)
  | pattern (p : Pattern)

/-- A condition on an item. -/
inductive Filter where
  | or (f g : Filter)
  | and (f g : Filter)
  | not (f : Filter)
  | present (operand : Operand)
  | compare (left : Operand) (op : CompareOp) (right : Operand)
  /-- Whether a string has a match of a regular expression. -/
  | matched (left : Operand) (p : Pattern)
end

/-- Whether a step leads to one place at most. -/
def Step.isDefinite : Step → Bool
  | .mk false (.name _) | .mk false (.index _) => true
  | _ => false

namespace Route

/-- The steps of a path. -/
def steps : Route → List Step
  | mk steps _ _ => steps

/-- The names of the union at the end of a path. -/
def union : Route → Option (List String)
  | mk _ union _ => union

/-- The function of a path. -/
def function : Route → Option Function
  | mk _ _ function => function

/-- The path of steps of which the last may be a union of names. -/
def ofSteps (steps : List Step) (function : Option Function) : Route :=
  match steps.getLast? with
  | some (.mk false (.names names)) => mk steps.dropLast (some names) function
  | _ => mk steps none function

/-- Whether a path leads to one place at most. -/
def isDefinite (r : Route) : Bool := r.steps.all Step.isDefinite

end Route

/-- Why a text is no path. -/
inductive Flaw where
  | unexpected
  | expected (c : Char)
  | noName
  | unknownFunction (name : String)
  | afterFunction
  | noQuotedName
  | badIndex (text : String)
  | noIndex
  | openString
  | noComparison
  | noPattern
  | badWord (word : String)
  | endOfFilter
  | badNumber (text : String)
  | openPattern
  | badPattern
  deriving DecidableEq, Repr, Inhabited

/-- The wording of a flaw. -/
def Flaw.message : Flaw → String
  | .unexpected => "unexpected character"
  | .expected c => "expected '" ++ c.toString ++ "'"
  | .noName => "expected a property name"
  | .unknownFunction name => "unknown function " ++ name ++ "()"
  | .afterFunction => "a function must end the path"
  | .noQuotedName => "expected a quoted property name"
  | .badIndex text => "invalid array index '" ++ text ++ "'"
  | .noIndex => "empty array index"
  | .openString => "unterminated string"
  | .noComparison => "expected a comparison"
  | .noPattern => "'=~' needs a /regex/ on its right side"
  | .badWord word => "unexpected '" ++ word ++ "' in filter"
  | .endOfFilter => "unexpected end of filter"
  | .badNumber text => "invalid number '" ++ text ++ "'"
  | .openPattern => "unterminated regular expression"
  | .badPattern => "invalid regular expression: regex parse error"

/-- A flaw and the number of characters that are left where it is found. -/
structure Fault where
  flaw : Flaw
  left : Nat
  deriving DecidableEq, Repr, Inhabited

/-- Why nothing comes of a path. -/
inductive Error where
  | noDocument (path : String)
  | emptyPath (path : String)
  | invalid (path : String) (flaw : Flaw) (position : Nat)
  | noResults (path : String)
  | notCountable
  | notArray (f : Function)
  | noNumbers (f : Function)
  deriving DecidableEq, Repr, Inhabited

/-- What a function cannot be applied to. -/
def functionMessage (f : Function) (reason : String) : String :=
  "Function " ++ f.name ++ "() cannot be applied: " ++ reason

/-- The path that is to blame, if it is the path, and what is wrong with it. A bad regular
expression is told without its place. -/
def Error.blame? : Error → Option (String × String)
  | .noDocument path => some (path, "body is not valid JSON")
  | .emptyPath path => some (path, "path must not be empty")
  | .invalid path .badPattern _ => some (path, Flaw.badPattern.message)
  | .invalid path flaw position =>
    some (path, flaw.message ++ " at position " ++ toString position)
  | _ => none

/-- The wording for a text that is no path. -/
def invalidMessage (path reason : String) : String := "Invalid path '" ++ path ++ "': " ++ reason

/-- The wording of an error. -/
def Error.message (e : Error) : String :=
  match e.blame?, e with
  | some (path, reason), _ => invalidMessage path reason
  | none, .noResults path => "No results for path: " ++ path
  | none, .notArray f => functionMessage f "expected an array"
  | none, .noNumbers f => functionMessage f "attempted to calculate value using empty array"
  | none, _ => functionMessage .length "expected an array or an object"

end JsonPath

/-- A path with its text. -/
structure JsonPath where
  source : String
  route : JsonPath.Route

end GatewayMapping
