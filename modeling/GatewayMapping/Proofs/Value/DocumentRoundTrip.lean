import GatewayMapping.Proofs.Json.Documents
import GatewayMapping.Proofs.Value.JsonRoundTrip

/-!
# Documents through values

A document is made into a value and that value into a document again. Whole numbers beyond the
64-bit integers have become the strings of their digits (`Json.narrowed`), and all else is as it
was (`Heap.toJson_ofJson`): the lists and maps of the value are new ones, so the traversal meets
none of them inside itself, and 64 bits hold the other whole numbers.

## Main definitions

* `Json.narrowed`: a document in which whole numbers beyond the 64-bit integers are strings.
* `Json.tree`: the tree of the value of a document.

## Main results

* `Heap.builds_ofJson`: a document builds its tree.
* `Heap.toJson_ofJson`: the JSON form of the value of a document is the narrowed document.
-/

namespace GatewayMapping

open JsonPath (IsPartOf isPartOf_of_mem_items)

namespace Json

mutual
/-- The document in which each whole number above the 64-bit integers is the string of its
digits. -/
def narrowed : Json → Json
  | .int n => if n < 2 ^ 63 then .int n else .string (toString n)
  | .array items => .array (narrowedItems items)
  | .object fields => .object (narrowedMembers fields)
  | .null => .null
  | .bool b => .bool b
  | .float x => .float x
  | .string s => .string s

/-- The items, narrowed. -/
def narrowedItems : List Json → List Json
  | [] => []
  | x :: xs => narrowed x :: narrowedItems xs

/-- The members, narrowed. -/
def narrowedMembers : List (String × Json) → List (String × Json)
  | [] => []
  | (key, x) :: fs => (key, narrowed x) :: narrowedMembers fs
end

mutual
/-- The tree of the value of a document. -/
def tree : Json → Tree
  | .null => .null
  | .bool b => .bool b
  | .int n =>
    match int64? n with
    | some i => .int i
    | none => .string (toString n)
  | .float x => .float x
  | .string s => .string s
  | .array items => .list (treeItems items)
  | .object fields => .map (treeMembers fields)

/-- The trees of items. -/
def treeItems : List Json → List Tree
  | [] => []
  | x :: xs => tree x :: treeItems xs

/-- The trees of members. -/
def treeMembers : List (String × Json) → List (String × Tree)
  | [] => []
  | (key, x) :: fs => (key, tree x) :: treeMembers fs
end

theorem keys_treeMembers : (fields : Fields Json) → Fields.keys (treeMembers fields) = fields.keys
  | [] => rfl
  | (key, _) :: fs => congrArg (key :: ·) (keys_treeMembers fs)

/-- The JSON form of a whole number: 64 bits with a sign hold what is below `2 ^ 63`. -/
theorem toJson_tree_int {n : Int} (hmin : -2 ^ 63 ≤ n) :
    (Json.int n).tree.toJson = (Json.int n).narrowed := by
  have hend : int64End = 2 ^ 63 := rfl
  rw [tree, narrowed, int64?, hend]
  by_cases hmax : n < 2 ^ 63
  · rw [if_pos ⟨hmin, hmax⟩, if_pos hmax, Tree.toJson, Int64.toInt_ofInt_of_le hmin hmax]
  · rw [if_neg (fun h => hmax h.2), if_neg hmax, Tree.toJson]

mutual
/-- The JSON form of the tree of a document is the narrowed document. -/
theorem toJson_tree : (d : Json) → d.WellFormed → (∀ x, IsPartOf (.float x) d → x.isFinite = true) →
    d.tree.toJson = d.narrowed
  | .null, _, _ | .bool _, _, _ | .string _, _, _ => rfl
  | .int _, .int hmin _, _ => toJson_tree_int hmin
  | .float x, _, hfinite => if_pos (hfinite x (.refl _))
  | .array items, .array h, hfinite => by
      have hitems : ∀ j ∈ items, ∀ x, IsPartOf (.float x) j → x.isFinite = true :=
        fun j hj x hx => hfinite x (hx.trans (isPartOf_of_mem_items hj))
      rw [tree, Tree.toJson, toJsonItems_treeItems items h hitems, narrowed]
  | .object fields, .object _ h, hfinite => by
      have hmembers : ∀ f ∈ fields, ∀ x, IsPartOf (.float x) f.2 → x.isFinite = true :=
        fun f hf x hx => hfinite x (hx.trans (isPartOf_of_mem_members hf))
      rw [tree, Tree.toJson, toJsonMembers_treeMembers fields h hmembers, narrowed]

theorem toJsonItems_treeItems : (items : List Json) → (∀ j ∈ items, j.WellFormed) →
    (∀ j ∈ items, ∀ x, IsPartOf (.float x) j → x.isFinite = true) →
    Tree.toJsonItems (treeItems items) = narrowedItems items
  | [], _, _ => rfl
  | x :: xs, h, hfinite => by
      have ⟨hx, hxs⟩ := List.forall_mem_cons.mp h
      have ⟨hfx, hfxs⟩ := List.forall_mem_cons.mp hfinite
      rw [treeItems, Tree.toJsonItems, toJson_tree x hx hfx, toJsonItems_treeItems xs hxs hfxs,
        narrowedItems]

theorem toJsonMembers_treeMembers : (fields : Fields Json) → (∀ f ∈ fields, f.2.WellFormed) →
    (∀ f ∈ fields, ∀ x, IsPartOf (.float x) f.2 → x.isFinite = true) →
    Tree.toJsonMembers (treeMembers fields) = narrowedMembers fields
  | [], _, _ => rfl
  | (key, x) :: fs, h, hfinite => by
      have ⟨hx, hfs⟩ := List.forall_mem_cons.mp h
      have ⟨hfx, hffs⟩ := List.forall_mem_cons.mp hfinite
      rw [treeMembers, Tree.toJsonMembers, toJson_tree x hx hfx,
        toJsonMembers_treeMembers fs hfs hffs, narrowedMembers]
end

end Json

namespace Heap

mutual
/-- A document builds its tree, on any heap. -/
theorem builds_ofJson : (d : Json) → d.WellFormed → ∀ h : Heap,
    Builds Unfolds h (h.ofJson d) d.tree
  | .null, _, h | .bool _, _, h | .float _, _, h | .string _, _, h => builds_scalar h rfl
  | .int n, _, h => by
      rw [ofJson, Json.tree]
      cases int64? n with
      | none => exact builds_scalar h rfl
      | some i => exact builds_scalar h rfl
  | .array items, .array hitems, h => (builds_ofJsonItems items hitems h).newList
  | .object fields, .object hkeys hfields, h =>
      (builds_ofJsonMembers fields hfields h).newMap (Json.keys_treeMembers fields ▸ hkeys)

theorem builds_ofJsonItems : (items : List Json) → (∀ j ∈ items, j.WellFormed) → ∀ h : Heap,
    Builds UnfoldsItems h (h.ofJsonItems items) (Json.treeItems items)
  | [], _, h => ⟨.refl h, fun _ _ _ _ => .nil⟩
  | x :: xs, hitems, h =>
      have ⟨hx, hxs⟩ := List.forall_mem_cons.mp hitems
      (builds_ofJson x hx h).consItem (builds_ofJsonItems xs hxs _)

theorem builds_ofJsonMembers : (fields : Fields Json) → (∀ f ∈ fields, f.2.WellFormed) →
    ∀ h : Heap, Builds UnfoldsMembers h (h.ofJsonMembers fields) (Json.treeMembers fields)
  | [], _, h => ⟨.refl h, fun _ _ _ _ => .nil⟩
  | (key, x) :: fs, hfields, h =>
      have ⟨hx, hfs⟩ := List.forall_mem_cons.mp hfields
      (builds_ofJson x hx h).consMember key (builds_ofJsonMembers fs hfs _)
end

/-- The traversal of the value of a document ends with the tree of the document. -/
theorem tree_ofJson (h : Heap) {d : Json} (hd : d.WellFormed) :
    (h.ofJson d).2.tree (h.ofJson d).1 = d.tree :=
  ((unfolds_iff _ _ _).mp ((builds_ofJson d hd h).2 _ (.refl _) [] (List.forall_mem_nil _))).symm

/-- **Documents survive conversion.** The JSON form of the value of a document is the document,
with the whole numbers above the 64-bit integers as strings. -/
theorem toJson_ofJson (h : Heap) (d : Json) (hd : d.WellFormed)
    (hfinite : ∀ x, IsPartOf (.float x) d → x.isFinite = true) :
    (h.ofJson d).2.toJson (h.ofJson d).1 = d.narrowed := by
  rw [toJson, tree_ofJson h hd, Json.toJson_tree d hd hfinite]

/-- Numbers at both ends of the 64-bit integers and above them, a negative zero, and an array that
an object holds twice. -/
theorem toJson_ofJson_bounds :
    let pair : Json := .array [.int (2 ^ 64 - 1), .float (-0.0)]
    let d : Json := .object [("z", pair), ("least", .int (-2 ^ 63)), ("a", pair),
      ("greatest", .int (2 ^ 63 - 1)), ("above", .int (2 ^ 63))]
    let pair' : Json := .array [.string "18446744073709551615", .float (-0.0)]
    d.WellFormed ∧ (∀ x, IsPartOf (.float x) d → x.isFinite = true) ∧
      (Heap.empty.ofJson d).2.toJson (Heap.empty.ofJson d).1 =
        .object [("z", pair'), ("least", .int (-2 ^ 63)), ("a", pair'),
          ("greatest", .int (2 ^ 63 - 1)), ("above", .string "9223372036854775808")] := by
  intro pair d pair'
  have hpair : pair.WellFormed := by
    refine .array (List.forall_mem_cons.mpr ⟨.int (by omega) (by omega), ?_⟩)
    exact List.forall_mem_singleton.mpr (.float _)
  have hd : d.WellFormed := by
    refine .object (by decide) ?_
    simp only [List.forall_mem_cons]
    exact ⟨hpair, .int (by omega) (by omega), hpair, .int (by omega) (by omega),
      .int (by omega) (by omega), List.forall_mem_nil _⟩
  have hfinite : ∀ x, IsPartOf (.float x) d → x.isFinite = true := by
    intro x hx
    have hmem := hx.mem_descendants
    have hzero : x = -0.0 := by
      simpa [d, pair, JsonPath.descendants, JsonPath.descendantsOfItems,
        JsonPath.descendantsOfMembers] using hmem
    rw [hzero]
    decide +kernel
  exact ⟨hd, hfinite, toJson_ofJson .empty d hd hfinite⟩

end Heap
end GatewayMapping
