import GatewayMapping.JsonPath.Reader

/-!
# What a path leads to

`Route.nodes` are the places that the steps of a path select, in order, and `JsonPath.evaluate` is
what comes of a path: the one place of a definite path, the array of all places of any other.
-/

namespace GatewayMapping.JsonPath

/-! ### Functions -/

/-- The least of some doubles. -/
def least (xs : List Float) : Float := xs.foldl (fun x y => if y < x then y else x) (1.0 / 0.0)

/-- The greatest of some doubles. -/
def greatest (xs : List Float) : Float :=
  xs.foldl (fun x y => if x < y then y else x) (-1.0 / 0.0)

/-- The sum of doubles, from left to right. It starts from the zero that changes no summand. -/
def total (xs : List Float) : Float := xs.foldl (· + ·) (-0.0)

/-- The number of a double, or null if it is not finite. -/
def numberOf (x : Float) : Json := if x.isFinite then .float x else .null

/-- What a function makes of a document. -/
def Function.apply (f : Function) (j : Json) : Except Error Json :=
  match f, j with
  | .length, .array items => .ok (.int items.length)
  | .length, .object fields => .ok (.int fields.length)
  | .length, _ => .error .notCountable
  | f, .array items =>
    let xs := items.filterMap Json.number?
    if xs.isEmpty then .error (.noNumbers f)
    else
      .ok (numberOf (match f with
        | .min => least xs
        | .max => greatest xs
        | .sum => total xs
        | _ => total xs / Float.ofNat xs.length))
  | f, _ => .error (.notArray f)

/-! ### Single places -/

/-- The position that an index means in an array; a negative one counts from the end. -/
def position? (length : Nat) (i : Int64) : Option Nat :=
  let p := if i.toInt < 0 then length + i.toInt else i.toInt
  if 0 ≤ p ∧ p < length then some p.toNat else none

/-- The position that a bound of a slice means in an array. -/
def bound (length : Nat) (i : Int64) : Nat :=
  if i.toInt < 0 then (length + i.toInt).toNat else min i.toInt.toNat length

/-- The items from a bound on up to another one. -/
def slice (items : List Json) (first last : Option Int64) : List Json :=
  let low := (first.map (bound items.length)).getD 0
  let high := (last.map (bound items.length)).getD items.length
  (items.take high).drop low

/-- The place that a definite step leads to. -/
def Step.target? : Step → Json → Option Json
  | .mk _ (.name name), j => j.member? name
  | .mk _ (.index i), .array items => (position? items.length i).bind fun p => items[p]?
  | _, _ => none

/-- The place that definite steps lead to. -/
def target? : List Step → Json → Option Json
  | [], j => some j
  | s :: ss, j => (s.target? j).bind (target? ss)

/-- The object of those members of an object that are named. -/
def merged? (names : List String) (j : Json) : Option Json :=
  j.fields?.map fun fields =>
    let found := names.filterMap fun name => (fields.get? name).map fun x => (name, x)
    .object (OrderedMap.ofList found).entries

mutual
/-- A place and all places below it: a place before what it holds, in document order. -/
def descendants : Json → List Json
  | .array items => .array items :: descendantsOfItems items
  | .object fields => .object fields :: descendantsOfMembers fields
  | j => [j]

/-- The places in the items of an array. -/
def descendantsOfItems : List Json → List Json
  | [] => []
  | x :: xs => descendants x ++ descendantsOfItems xs

/-- The places in the members of an object. -/
def descendantsOfMembers : List (String × Json) → List Json
  | [] => []
  | (_, x) :: fs => descendants x ++ descendantsOfMembers fs
end

/-! ### Comparisons -/

/-- How two documents compare, if they do: numbers by value, strings by code points. -/
def order? : Json → Json → Option Ordering
  | .string s, .string t => some (compare s t)
  | a, b =>
    match a.number?, b.number? with
    | some x, some y =>
      if x < y then some .lt else if x == y then some .eq else if y < x then some .gt else none
    | _, _ => none

/-- Whether a comparison holds. -/
def CompareOp.holds (op : CompareOp) (a b : Json) : Bool :=
  let equal := match order? a b with
    | some o => o = .eq
    | none => Json.equal a b
  match op with
  | .eq => equal
  | .ne => !equal
  | .lt => (order? a b).any Ordering.isLT
  | .le => (order? a b).any Ordering.isLE
  | .gt => (order? a b).any Ordering.isGT
  | .ge => (order? a b).any Ordering.isGE

/-! ### Selection -/

mutual
/-- The places that a selector selects at a place. -/
def Selector.nodes (root : Json) : Selector → Json → List Json
  | .name name, j => (j.member? name).toList
  | .names names, j => names.filterMap j.member?
  | .wildcard, .array items => items
  | .wildcard, .object fields => fields.map (·.2)
  | .index i, .array items => ((position? items.length i).bind fun p => items[p]?).toList
  | .indexes is, .array items =>
    is.filterMap fun i => (position? items.length i).bind fun p => items[p]?
  | .slice first last, .array items => slice items first last
  | .filter f, .array items => items.filter (f.holds root)
  | .filter f, .object fields => if f.holds root (.object fields) then [.object fields] else []
  | _, _ => []

/-- The places that a step selects from a place. -/
def Step.nodes (root : Json) : Step → Json → List Json
  | .mk deep selector, j =>
    (if deep then descendants j else [j]).flatMap (selector.nodes root)

/-- The places that steps select from places. -/
def nodesOf (root : Json) : List Step → List Json → List Json
  | [], js => js
  | s :: ss, js => nodesOf root ss (js.flatMap (s.nodes root))

/-- What a path leads to from a place, without its function. -/
def Route.target? (root : Json) : Route → Json → Option Json
  | .mk steps union _, j =>
    if steps.all Step.isDefinite then
      match JsonPath.target? steps j, union with
      | some x, some names => merged? names x
      | x?, _ => x?
    else
      let nodes := nodesOf root steps [j]
      some (.array (match union with
        | some names => nodes.filterMap (merged? names)
        | none => nodes))

/-- The value of an operand at an item. -/
def Operand.value? (root : Json) : Operand → Json → Option Json
  | .path fromRoot route, j =>
    match route.target? root (if fromRoot then root else j), route.function with
    | some x, some f => (f.apply x).toOption
    | x?, _ => x?
  | .literal x, _ => some x
  | .pattern _, _ => none

/-- Whether a filter holds of an item. -/
def Filter.holds (root : Json) : Filter → Json → Bool
  | .or f g, j => f.holds root j || g.holds root j
  | .and f g, j => f.holds root j && g.holds root j
  | .not f, j => !f.holds root j
  | .present operand, j =>
    match operand.value? root j, operand with
    | some (.array items), .path _ route => route.isDefinite || !items.isEmpty
    | x?, _ => x?.isSome
  | .compare left op right, j =>
    match left.value? root j, right.value? root j with
    | some a, some b => op.holds a b
    | _, _ => false
  | .matched left p, j =>
    match left.value? root j with
    | some (.string s) => p.isMatch s.toList
    | _ => false
end

end GatewayMapping.JsonPath

namespace GatewayMapping.JsonPath

/-- Whether a path leads to one place at most. -/
def isDefinite (p : JsonPath) : Bool := p.route.isDefinite

/-- What comes of a path in a document. -/
def evaluate (p : JsonPath) (document : Json) : Except Error Json :=
  match p.route.target? document document, p.route.function with
  | some j, some f => f.apply j
  | some j, none => .ok j
  | none, _ => .error (.noResults p.source)

/-- What comes of the path that a text writes. -/
def find (document : Json) (expression : String) : Except Error Json := do
  (← parse expression).evaluate document

end GatewayMapping.JsonPath
