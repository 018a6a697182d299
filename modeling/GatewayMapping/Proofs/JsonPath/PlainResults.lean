import GatewayMapping.Proofs.Json.CompactReading
import GatewayMapping.Proofs.JsonPath.Selection

/-!
# What paths lead to in plain documents

A path leads to a part of the document, to a union of members of a part, or to an array of such
documents. None of these has what the document does not have, so in a plain document they are plain
again, the array one level deeper (`Json.IsPlain.of_target?`). A function makes a number or null of
it. Where that number is no double and 64 bits hold it, what a path leads to is plain in all cases
(`Json.IsPlain.of_find`).
-/

namespace GatewayMapping

open JsonPath (IsPartOf Route Function Step united? isPartOf_of_mem_nodesOf
  nodesOf_of_isDefinite nodesOf)

namespace Json

namespace IsPlain

/-- A document may lie deeper. -/
theorem mono {m n : Nat} {j : Json} (h : IsPlain m j) (hmn : m ≤ n) : IsPlain n j := by
  induction h generalizing n with
  | null => exact .null
  | bool b => exact .bool b
  | int hmin hmax => exact .int hmin hmax
  | string s => exact .string s
  | array h ih =>
    obtain ⟨n, rfl⟩ := Nat.exists_eq_add_one_of_ne_zero (Nat.ne_zero_of_lt hmn)
    exact .array fun j hj => ih j hj (Nat.le_of_succ_le_succ hmn)
  | object hkeys h ih =>
    obtain ⟨n, rfl⟩ := Nat.exists_eq_add_one_of_ne_zero (Nat.ne_zero_of_lt hmn)
    exact .object hkeys fun f hf => ih f hf (Nat.le_of_succ_le_succ hmn)

theorem of_mem_held {n : Nat} {x j : Json} (h : IsPlain n j) (hx : x ∈ JsonPath.held j) :
    IsPlain n x := by
  cases h with
  | array h =>
    rw [JsonPath.held_array] at hx
    exact (h x hx).mono (Nat.le_succ _)
  | object hkeys h =>
    rw [JsonPath.held_object] at hx
    obtain ⟨f, hf, rfl⟩ := List.mem_map.mp hx
    exact (h f hf).mono (Nat.le_succ _)
  | _ => cases hx

/-- The parts of a plain document are plain. -/
theorem of_isPartOf {n : Nat} {x j : Json} (h : IsPlain n j) (hx : IsPartOf x j) : IsPlain n x := by
  obtain ⟨p, hp⟩ := hx
  induction p generalizing j with
  | nil => exact Option.some.inj hp ▸ h
  | cons i p ih =>
    obtain ⟨y, hy, hpart⟩ := Option.bind_eq_some_iff.mp hp
    exact ih (h.of_mem_held (List.mem_of_getElem? hy)) hpart

/-- A union has members of the object, each once. -/
theorem of_united? {n : Nat} {union : Option (List String)} {x j : Json} (h : IsPlain n j)
    (hx : united? union j = some x) : IsPlain n x := by
  cases union with
  | none => exact Option.some.inj hx ▸ h
  | some names =>
    cases h with
    | object hkeys h =>
      obtain ⟨merged, hmerged, hunion⟩ := JsonPath.merged?_object names _
      obtain rfl : Json.object merged = x := Option.some.inj (hmerged.symm.trans hx)
      refine .object hunion.nodup fun f hf => ?_
      have hget := Fields.get?_eq_some_of_mem hunion.nodup hf
      rw [hunion.get?] at hget
      split at hget
      · exact h _ (Fields.mem_of_get?_eq_some hget)
      · cases hget
    | _ => cases hx

/-- Parts and their unions are as deep as the document at most, and an array of them is one level
deeper. -/
theorem of_target? {n : Nat} {x j : Json} (root : Json) (r : Route) (h : IsPlain n j)
    (hx : r.target? root j = some x) : IsPlain (n + 1) x := by
  have hnode : ∀ y ∈ nodesOf root r.steps [j], IsPlain n y := by
    intro y hy
    obtain ⟨start, hstart, hpart⟩ := isPartOf_of_mem_nodesOf hy
    exact h.of_isPartOf (List.mem_singleton.mp hstart ▸ hpart)
  rw [Route.target?_eq] at hx
  split at hx
  · obtain ⟨y, hy, hx⟩ := Option.bind_eq_some_iff.mp hx
    have hmem : y ∈ nodesOf root r.steps [j] := by
      rw [nodesOf_of_isDefinite ‹_›, hy]
      exact List.mem_singleton_self y
    exact ((hnode y hmem).of_united? hx).mono (Nat.le_succ n)
  · cases hx
    refine .array fun x hx => ?_
    obtain ⟨y, hy, hx⟩ := List.mem_filterMap.mp hx
    exact (hnode y hy).of_united? hx

/-- A function gives a count, a double or null. -/
theorem of_apply {n : Nat} {f : Function} {x j : Json} (hx : f.apply j = .ok x)
    (hdouble : ∀ y, x ≠ .float y) (hcount : ∀ count : Nat, x = .int count → count < 2 ^ 64) :
    IsPlain n x := by
  have hcount' (count : Nat) (h : x = .int count) : IsPlain n x := by
    have := hcount count h
    rw [h]
    exact .int (by omega) (by omega)
  have hnumber (y : Float) (h : x = JsonPath.numberOf y) : IsPlain n x := by
    rw [JsonPath.numberOf] at h
    split at h
    · exact absurd h (hdouble y)
    · exact h ▸ .null
  unfold Function.apply at hx
  split at hx
  · exact hcount' _ (Except.ok.inj hx).symm
  · exact hcount' _ (Except.ok.inj hx).symm
  · cases hx
  · dsimp only at hx
    split at hx
    · cases hx
    · exact hnumber _ (Except.ok.inj hx).symm
  · cases hx

/-- **What a path leads to in a plain document is plain**, unless it is a double or a count beyond
64 bits, as only a function gives them. It can be one level deeper than the document. -/
theorem of_find {n : Nat} {d x : Json} {expression : String} (h : IsPlain n d)
    (hx : JsonPath.find d expression = .ok x) (hdouble : ∀ y, x ≠ .float y)
    (hcount : ∀ count : Nat, x = .int count → count < 2 ^ 64) : IsPlain (n + 1) x := by
  rw [JsonPath.find] at hx
  cases hparse : JsonPath.parse expression with
  | error e =>
    rw [hparse] at hx
    cases hx
  | ok p =>
    rw [hparse] at hx
    change p.evaluate d = .ok x at hx
    rw [JsonPath.evaluate] at hx
    split at hx
    · exact of_apply hx hdouble hcount
    · cases hx
      exact h.of_target? d p.route ‹_›
    · cases hx

end IsPlain

end Json
end GatewayMapping
