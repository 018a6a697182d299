import GatewayMapping.Value.Tree

/-!
# Equality of values

`Heap.equal` compares values by structure: numbers of one kind by value, lists item by item, maps
member by member whatever their order, host objects by reference. A pair of containers that is
being compared further up is taken as equal, so that containers inside themselves can be compared.

`Heap.looselyEqual` is the equality of templates: numbers of either kind by value, and values of
different kinds by their texts.
-/

namespace GatewayMapping.Heap

/-- A pair of lists or a pair of maps under comparison. -/
inductive OpenPair where
  | lists (a b : ListRef)
  | maps (a b : MapRef)
  deriving DecidableEq, Repr

/-- Compares two values inside the pairs `opened`. At most `budget` more pairs are opened below one
another. -/
def equalWithin (h : Heap) : (budget : Nat) → (opened : List OpenPair) → Value → Value → Bool
  | _, _, .null, .null => true
  | _, _, .bool a, .bool b => a == b
  | _, _, .int m, .int n => m == n
  | _, _, .float x, .float y => x == y
  | _, _, .string s, .string t => s == t
  | _, _, .object a, .object b => a == b
  | 0, _, .list _, .list _ => true
  | 0, _, .map _, .map _ => true
  | budget + 1, opened, .list a, .list b =>
    a == b ||
      ((h.items a).length == (h.items b).length &&
        (.lists a b ∈ opened ||
          ((h.items a).zip (h.items b)).all fun (x, y) =>
            h.equalWithin budget (.lists a b :: opened) x y))
  | budget + 1, opened, .map a, .map b =>
    a == b ||
      ((h.members a).size == (h.members b).size &&
        (.maps a b ∈ opened ||
          (h.members a).entries.all fun (key, x) =>
            match (h.members b).get? key with
            | some y => h.equalWithin budget (.maps a b :: opened) x y
            | none => false))
  | _, _, _, _ => false
termination_by structural budget => budget

/-- Equality by structure. The pairs opened below one another are different ones, so the budget is
never used up. -/
def equal (h : Heap) (a b : Value) : Bool :=
  h.equalWithin (h.lists.size * h.lists.size + h.maps.size * h.maps.size + 2) [] a b

/-- The equality of templates. -/
def looselyEqual (h : Heap) : Value → Value → Bool
  | .null, .null => true
  | .null, _ | _, .null => false
  | .bool a, .bool b => a == b
  | .string s, .string t => s == t
  | .list a, .list b => h.equal (.list a) (.list b)
  | .map a, .map b => h.equal (.map a) (.map b)
  | .object a, .object b => a == b
  | a, b =>
    match a.float?, b.float? with
    | some x, some y => x == y
    | _, _ => h.text a == h.text b

end GatewayMapping.Heap
