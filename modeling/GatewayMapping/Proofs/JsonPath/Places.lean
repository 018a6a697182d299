import Mathlib.Data.List.Basic
import GatewayMapping.Proofs.JsonPath.Filters

/-!
# Places in documents

A place in a document is the list of the positions that lead to it, one after the other: of items
in arrays and of members in objects. The order of words on these lists puts a place before the ones
below it, and what is further left before what is further right.

The documents that a deep step goes through are the documents at all places, each place once and in
this order (`located`). A document at a place is a part of the whole (`IsPartOf`).

## Main definitions

* `Place`, `part?`: places, and the part of a document at a place.
* `located`: the places of a document with the parts at them.
* `IsPartOf`: the parts of a document.

## Main results

* `held_induction`: induction on what documents hold.
* `mem_located_iff`, `located_ascending`: every place is there, once and in order.
* `map_snd_located`: the parts at the places are what deep steps go through.
-/

namespace GatewayMapping.JsonPath

/-- A place in a document, by the positions of items and members that lead to it. -/
abbrev Place := List Nat

/-- The part of a document at a place. -/
def part? (j : Json) : Place → Option Json
  | [] => some j
  | i :: p => (held j)[i]?.bind fun x => part? x p

theorem part?_append (j : Json) (p q : Place) :
    part? j (p ++ q) = (part? j p).bind fun x => part? x q := by
  induction p generalizing j with
  | nil => rfl
  | cons i p ih =>
    rw [List.cons_append, part?, part?, Option.bind_assoc]
    exact congrArg _ (funext ih)

/-! ### What documents hold -/

theorem held_array (items : List Json) : held (.array items) = items := List.append_nil items

theorem held_object (fields : List (String × Json)) :
    held (.object fields) = fields.map (·.2) := rfl

theorem sizeOf_lt_of_mem_held {x j : Json} (h : x ∈ held j) : sizeOf x < sizeOf j := by
  cases j with
  | array items =>
    rw [held_array] at h
    have := List.sizeOf_lt_of_mem h
    simp only [Json.array.sizeOf_spec]
    omega
  | object fields =>
    rw [held_object] at h
    obtain ⟨⟨key, y⟩, hmem, rfl⟩ := List.mem_map.mp h
    have := List.sizeOf_lt_of_mem hmem
    simp only [Json.object.sizeOf_spec, Prod.mk.sizeOf_spec] at this ⊢
    omega
  | _ => cases h

/-- What holds of a document whenever it holds of all that the document holds is true of every
document. -/
theorem held_induction {P : Json → Prop} (h : ∀ j, (∀ x ∈ held j, P x) → P j) (j : Json) : P j :=
  h j fun x _ => held_induction h x
termination_by j
decreasing_by exact sizeOf_lt_of_mem_held ‹_›

theorem descendantsOfItems_eq (items : List Json) :
    descendantsOfItems items = items.flatMap descendants := by
  induction items with
  | nil => rfl
  | cons x xs ih => rw [descendantsOfItems, ih, List.flatMap_cons]

theorem descendantsOfMembers_eq (fields : List (String × Json)) :
    descendantsOfMembers fields = (fields.map (·.2)).flatMap descendants := by
  induction fields with
  | nil => rfl
  | cons field fields ih => rw [descendantsOfMembers, ih, List.map_cons, List.flatMap_cons]

theorem descendants_eq (j : Json) : descendants j = j :: (held j).flatMap descendants := by
  cases j with
  | array items => rw [descendants, descendantsOfItems_eq, held_array]
  | object fields => rw [descendants, descendantsOfMembers_eq, held_object]
  | _ => rfl

/-! ### All places -/

/-- A place in the part at a position. -/
def below (i : Nat) (entry : Place × Json) : Place × Json := (i :: entry.1, entry.2)

mutual
/-- The places of a document with the parts at them: a place before those below it, in document
order. -/
def located : Json → List (Place × Json)
  | .array items => ([], .array items) :: locatedItems 0 items
  | .object fields => ([], .object fields) :: locatedMembers 0 fields
  | j => [([], j)]

/-- The places in the items of an array from a position on. -/
def locatedItems : Nat → List Json → List (Place × Json)
  | _, [] => []
  | i, x :: xs => (located x).map (below i) ++ locatedItems (i + 1) xs

/-- The places in the members of an object from a position on. -/
def locatedMembers : Nat → List (String × Json) → List (Place × Json)
  | _, [] => []
  | i, (_, x) :: fs => (located x).map (below i) ++ locatedMembers (i + 1) fs
end

theorem locatedItems_eq (i : Nat) (items : List Json) :
    locatedItems i items =
      (items.zipIdx i).flatMap fun entry => (located entry.1).map (below entry.2) := by
  induction items generalizing i with
  | nil => rfl
  | cons x xs ih => rw [locatedItems, ih, List.zipIdx_cons, List.flatMap_cons]

theorem locatedMembers_eq (i : Nat) (fields : List (String × Json)) :
    locatedMembers i fields = locatedItems i (fields.map (·.2)) := by
  induction fields generalizing i with
  | nil => rfl
  | cons field fields ih => rw [locatedMembers, ih, List.map_cons, locatedItems]

theorem located_eq (j : Json) :
    located j =
      ([], j) :: (held j).zipIdx.flatMap fun entry => (located entry.1).map (below entry.2) := by
  cases j with
  | array items => rw [located, locatedItems_eq, held_array]
  | object fields => rw [located, locatedMembers_eq, locatedItems_eq, held_object]
  | _ => rfl

/-- The places are those at which there is a part of the document. -/
theorem mem_located_iff {j : Json} {p : Place} {x : Json} :
    (p, x) ∈ located j ↔ part? j p = some x := by
  induction j using held_induction generalizing p with
  | h j ih =>
    rw [located_eq, List.mem_cons, List.mem_flatMap]
    cases p with
    | nil => simp [below, part?, eq_comm]
    | cons i p =>
      have hmem (y : Json) (k : Nat) : (y, k) ∈ (held j).zipIdx ↔ (held j)[k]? = some y :=
        List.mem_zipIdx_iff_getElem?
      constructor
      · rintro (heq | ⟨⟨y, k⟩, hheld, hbelow⟩)
        · cases heq
        · obtain ⟨⟨q, z⟩, hz, heq⟩ := List.mem_map.mp hbelow
          cases heq
          rw [hmem] at hheld
          rw [part?, hheld, Option.bind_some, ← ih y (List.mem_of_getElem? hheld)]
          exact hz
      · intro h
        obtain ⟨y, hheld, hpart⟩ := Option.bind_eq_some_iff.mp h
        refine .inr ⟨(y, i), (hmem y i).mpr hheld, List.mem_map.mpr ⟨(p, x), ?_, rfl⟩⟩
        exact (ih y (List.mem_of_getElem? hheld)).mpr hpart

/-- The places are in the order of words. -/
theorem located_ascending (j : Json) : (located j).Pairwise fun a b => a.1 < b.1 := by
  induction j using held_induction with
  | h j ih =>
    rw [located_eq, List.pairwise_cons]
    refine ⟨fun b hb => ?_, List.pairwise_flatMap.mpr ⟨fun entry hentry => ?_, ?_⟩⟩
    · obtain ⟨entry, -, hbelow⟩ := List.mem_flatMap.mp hb
      obtain ⟨_, -, rfl⟩ := List.mem_map.mp hbelow
      exact List.nil_lt_cons _ _
    · refine List.pairwise_map.mpr ((ih entry.1 ?_).imp fun hlt => ?_)
      · exact List.mem_of_getElem? (List.mem_zipIdx_iff_getElem?.mp hentry)
      · exact List.cons_lt_cons_iff.mpr (.inr ⟨rfl, hlt⟩)
    · have hpositions : (held j).zipIdx.Pairwise fun a b => a.2 < b.2 := by
        rw [← List.pairwise_map, List.zipIdx_map_snd]
        exact List.pairwise_lt_range'
      refine hpositions.imp fun hlt a ha b hb => ?_
      obtain ⟨a, -, rfl⟩ := List.mem_map.mp ha
      obtain ⟨b, -, rfl⟩ := List.mem_map.mp hb
      exact List.cons_lt_cons_iff.mpr (.inl hlt)

/-- The parts at the places, in order, are what deep steps go through. -/
theorem map_snd_located (j : Json) : (located j).map (·.2) = descendants j := by
  induction j using held_induction with
  | h j ih =>
    have hparts : ((held j).zipIdx.flatMap fun entry => (located entry.1).map (below entry.2)).map
        (·.2) = ((held j).zipIdx.map (·.1)).flatMap descendants := by
      rw [List.map_flatMap, List.flatMap_map]
      refine List.flatMap_congr fun entry hentry => ?_
      rw [List.map_map]
      exact ih entry.1 (List.mem_of_getElem? (List.mem_zipIdx_iff_getElem?.mp hentry))
    rw [located_eq, List.map_cons, hparts, List.zipIdx_map_fst, descendants_eq]

/-! ### Parts -/

/-- A document is found at a place of another one. -/
def IsPartOf (x j : Json) : Prop := ∃ p, part? j p = some x

namespace IsPartOf

theorem refl (j : Json) : IsPartOf j j := ⟨[], rfl⟩

theorem trans {x y z : Json} (hxy : IsPartOf x y) (hyz : IsPartOf y z) : IsPartOf x z := by
  obtain ⟨p, hp⟩ := hxy
  obtain ⟨q, hq⟩ := hyz
  exact ⟨q ++ p, by rw [part?_append, hq, Option.bind_some, hp]⟩

theorem of_mem_held {x j : Json} (h : x ∈ held j) : IsPartOf x j := by
  obtain ⟨i, hi⟩ := List.mem_iff_getElem?.mp h
  exact ⟨[i], by rw [part?, hi, Option.bind_some, part?]⟩

theorem of_mem_descendants {x j : Json} (h : x ∈ descendants j) : IsPartOf x j := by
  rw [← map_snd_located] at h
  obtain ⟨⟨p, y⟩, hy, rfl⟩ := List.mem_map.mp h
  exact ⟨p, mem_located_iff.mp hy⟩

theorem mem_descendants {x j : Json} (h : IsPartOf x j) : x ∈ descendants j := by
  obtain ⟨p, hp⟩ := h
  rw [← map_snd_located]
  exact List.mem_map.mpr ⟨(p, x), mem_located_iff.mpr hp, rfl⟩

end IsPartOf

end GatewayMapping.JsonPath
