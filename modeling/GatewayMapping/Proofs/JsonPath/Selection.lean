import Mathlib.Data.List.Forall2
import GatewayMapping.Proofs.JsonPath.Places
import GatewayMapping.Proofs.OrderedMap

/-!
# What paths select

The steps of a path select parts of a document. A definite path is not taken by selecting: it goes
from one place to the next and stops where a step misses. All the same it leads to the part that
its steps select, of which there is one at most (`nodesOf_of_isDefinite`), and any other path leads
to the array of all selected parts.

A union of names at the end of a path is no step. Each selected object is replaced by the object of
those of its members that are named, and what is no object is dropped.

## Main definitions

* `IsUnion`: the object of the members that are named.
* `Gathers`: what a path makes of the parts that its steps select.

## Main results

* `isPartOf_of_mem_nodesOf`: steps select parts of the document.
* `nodesOf_of_isDefinite`: definite steps select the place that they lead to.
* `evaluate_of_selection`: what comes of a path by what its steps select.
-/

namespace GatewayMapping.JsonPath

/-! ### Parts -/

theorem mem_held_of_member? {j : Json} {name : String} {x : Json} (h : j.member? name = some x) :
    x ∈ held j := by
  obtain ⟨fields, hfields, hget⟩ := Option.bind_eq_some_iff.mp h
  cases j with
  | object fields' =>
    cases hfields
    exact List.mem_map.mpr ⟨(name, x), Fields.mem_of_get?_eq_some hget, rfl⟩
  | _ => cases hfields

theorem mem_of_position {items : List Json} {i : Int64} {x : Json}
    (h : ((position? items.length i).bind fun p => items[p]?) = some x) : x ∈ items := by
  obtain ⟨p, -, hp⟩ := Option.bind_eq_some_iff.mp h
  exact List.mem_of_getElem? hp

theorem isPartOf_of_mem_items {items : List Json} {x : Json} (h : x ∈ items) :
    IsPartOf x (.array items) :=
  .of_mem_held (by rwa [held_array])

/-- What a selector selects at a place is the document there or is held by it. -/
theorem isPartOf_of_mem_selector {root j x : Json} {s : Selector} (h : x ∈ s.nodes root j) :
    IsPartOf x j := by
  cases s with
  | name name =>
    rw [Selector.nodes, Option.mem_toList] at h
    exact .of_mem_held (mem_held_of_member? h)
  | names names =>
    rw [Selector.nodes, List.mem_filterMap] at h
    obtain ⟨name, -, hx⟩ := h
    exact .of_mem_held (mem_held_of_member? hx)
  | wildcard =>
    cases j with
    | array items => exact isPartOf_of_mem_items h
    | object fields => exact .of_mem_held h
    | _ => cases h
  | index i =>
    cases j with
    | array items =>
      rw [Selector.nodes, Option.mem_toList] at h
      exact isPartOf_of_mem_items (mem_of_position h)
    | _ => cases h
  | indexes is =>
    cases j with
    | array items =>
      rw [Selector.nodes, List.mem_filterMap] at h
      obtain ⟨i, -, hx⟩ := h
      exact isPartOf_of_mem_items (mem_of_position hx)
    | _ => cases h
  | slice first last =>
    cases j with
    | array items => exact isPartOf_of_mem_items (List.mem_of_mem_take (List.mem_of_mem_drop h))
    | _ => cases h
  | filter f =>
    rw [nodes_filter, List.mem_append, List.mem_filter, List.mem_filter] at h
    rcases h with ⟨hitem, -⟩ | ⟨hself, -⟩
    · exact .of_mem_held (List.mem_append_left _ hitem)
    · obtain rfl := List.mem_singleton.mp hself
      exact .refl x

theorem isPartOf_of_mem_step {root j x : Json} {s : Step} (h : x ∈ s.nodes root j) :
    IsPartOf x j := by
  obtain ⟨deep, selector⟩ := s
  obtain ⟨y, hy, hx⟩ := List.mem_flatMap.mp h
  have hstart : IsPartOf y j := by
    cases deep with
    | true => exact .of_mem_descendants hy
    | false =>
      obtain rfl := List.mem_singleton.mp hy
      exact .refl y
  exact (isPartOf_of_mem_selector hx).trans hstart

/-- Steps select parts of the places that they are taken from. -/
theorem isPartOf_of_mem_nodesOf {root x : Json} {ss : List Step} {js : List Json}
    (h : x ∈ nodesOf root ss js) : ∃ j ∈ js, IsPartOf x j := by
  induction ss generalizing js with
  | nil => exact ⟨x, h, .refl x⟩
  | cons s ss ih =>
    obtain ⟨y, hy, hx⟩ := ih h
    obtain ⟨j, hj, hy⟩ := List.mem_flatMap.mp hy
    exact ⟨j, hj, hx.trans (isPartOf_of_mem_step hy)⟩

/-! ### Definite steps -/

/-- A definite step selects the place that it leads to. -/
theorem nodes_of_isDefinite {s : Step} (h : s.isDefinite = true) (root j : Json) :
    s.nodes root j = (s.target? j).toList := by
  obtain ⟨deep, selector⟩ := s
  have hplain (selector : Selector) :
      (Step.mk false selector).nodes root j = selector.nodes root j := by
    simp [Step.nodes]
  cases deep with
  | true => cases h
  | false =>
    rw [hplain]
    cases selector with
    | name name => rfl
    | index i => cases j <;> rfl
    | _ => cases h

theorem nodesOf_nil (root : Json) (ss : List Step) : nodesOf root ss [] = [] := by
  induction ss with
  | nil => rfl
  | cons s ss ih => exact ih

/-- Definite steps select the place that they lead to: where one misses, nothing is selected. -/
theorem nodesOf_of_isDefinite {ss : List Step} (h : ss.all Step.isDefinite = true)
    (root j : Json) : nodesOf root ss [j] = (target? ss j).toList := by
  induction ss generalizing j with
  | nil => rfl
  | cons s ss ih =>
    rw [List.all_cons, Bool.and_eq_true] at h
    rw [nodesOf, List.flatMap_singleton, nodes_of_isDefinite h.1, target?]
    cases s.target? j with
    | none => exact nodesOf_nil root ss
    | some x => exact ih h.2 x

/-! ### Unions -/

/-- The members of an object that are named: each of them once, in the order of the names. -/
structure IsUnion (names : List String) (fields merged : Fields Json) : Prop where
  get? : ∀ name, merged.get? name = if name ∈ names then fields.get? name else none
  nodup : merged.keys.Nodup
  sublist : merged.keys.Sublist names

/-- The members of an object under names, as often as the names come. -/
def picked (names : List String) (fields : Fields Json) : Fields Json :=
  names.filterMap fun name => (fields.get? name).map fun x => (name, x)

/-- Under a name that is picked there is the member of that name afterwards, if there is one, and
under any other what was there before. -/
theorem get?_insertAll_picked (names : List String) (fields acc : Fields Json) (name : String) :
    (acc.insertAll (picked names fields)).get? name =
      (if name ∈ names then fields.get? name else none).or (acc.get? name) := by
  induction names generalizing acc with
  | nil => rfl
  | cons first names ih =>
    cases hfirst : fields.get? first with
    | none =>
      have hpicked : picked (first :: names) fields = picked names fields := by
        simp [picked, hfirst]
      rw [hpicked, ih]
      by_cases hname : first = name
      · subst hname
        simp [hfirst]
      · simp [Ne.symm hname]
    | some x =>
      have hpicked : picked (first :: names) fields = (first, x) :: picked names fields := by
        simp [picked, hfirst]
      rw [hpicked]
      change ((acc.insert first x).insertAll (picked names fields)).get? name = _
      rw [ih, Fields.get?_insert]
      by_cases hname : first = name
      · subst hname
        rw [if_pos rfl, if_pos List.mem_cons_self, hfirst]
        split <;> rfl
      · simp [hname, Ne.symm hname]

theorem keys_picked_sublist (names : List String) (fields : Fields Json) :
    (picked names fields).keys.Sublist names := by
  induction names with
  | nil => exact .slnil
  | cons name names ih =>
    rw [picked, List.filterMap_cons]
    cases fields.get? name with
    | none => exact ih.cons name
    | some x => exact ih.cons_cons name

/-- An object is replaced by its union. -/
theorem merged?_object (names : List String) (fields : Fields Json) :
    ∃ merged, merged? names (.object fields) = some (.object merged) ∧
      IsUnion names fields merged := by
  obtain ⟨added, hadded, hkeys⟩ := Fields.keys_insertAll [] (picked names fields)
  refine ⟨(OrderedMap.ofList (picked names fields)).entries, rfl, fun name => ?_, ?_, ?_⟩
  · exact (get?_insertAll_picked names fields [] name).trans (Option.or_none ..)
  · exact (OrderedMap.ofList (picked names fields)).nodup_keys
  · change ((Fields.insertAll [] (picked names fields)).keys).Sublist names
    rw [hkeys]
    exact hadded.trans (keys_picked_sublist names fields)

theorem merged?_eq_none {names : List String} {j : Json} (h : j.fields? = none) :
    merged? names j = none := by
  rw [merged?, h, Option.map_none]

/-! ### Paths -/

/-- What a path makes of the parts that its steps select. -/
def Gathers : (union : Option (List String)) → (selected found : List Json) → Prop
  | none, selected, found => found = selected
  | some names, selected, found =>
    List.Forall₂ (fun fields x => ∃ merged, x = .object merged ∧ IsUnion names fields merged)
      (selected.filterMap Json.fields?) found

/-- The union of a part, if the path ends with one. -/
def united? (union : Option (List String)) (j : Json) : Option Json :=
  match union with
  | none => some j
  | some names => merged? names j

theorem gathers_united (union : Option (List String)) (selected : List Json) :
    Gathers union selected (selected.filterMap (united? union)) := by
  cases union with
  | none => exact List.filterMap_some
  | some names =>
    induction selected with
    | nil => exact .nil
    | cons j selected ih =>
      cases hfields : j.fields? with
      | none =>
        have hj : united? (some names) j = none := merged?_eq_none hfields
        rw [List.filterMap_cons_none hj]
        simpa only [Gathers, List.filterMap_cons_none hfields] using ih
      | some fields =>
        obtain rfl : j = .object fields := by
          cases j <;> cases hfields
          rfl
        obtain ⟨merged, hmerged, hunion⟩ := merged?_object names fields
        have hj : united? (some names) (.object fields) = some (.object merged) := hmerged
        rw [List.filterMap_cons_some hj]
        simp only [Gathers, List.filterMap_cons_some hfields]
        exact .cons ⟨merged, rfl, hunion⟩ ih

/-- A path without a function leads to the place of its definite steps, or to the array of what its
steps select. -/
theorem Route.target?_eq (root j : Json) (r : Route) :
    r.target? root j =
      if r.isDefinite then (JsonPath.target? r.steps j).bind (united? r.union)
      else some (.array ((nodesOf root r.steps [j]).filterMap (united? r.union))) := by
  obtain ⟨steps, union, function⟩ := r
  rw [Route.target?.eq_def]
  dsimp only [isDefinite, Route.steps, Route.union]
  congr 1
  · cases JsonPath.target? steps j <;> cases union <;> rfl
  · cases union with
    | none => exact congrArg (fun found => some (Json.array found)) List.filterMap_some.symm
    | some names => rfl

section

variable {p : JsonPath} (hfunction : p.route.function = none)
include hfunction

theorem evaluate_of_isDefinite (h : p.isDefinite = true) (d : Json) :
    p.evaluate d = match (target? p.route.steps d).bind (united? p.route.union) with
      | some v => .ok v
      | none => .error (.noResults p.source) := by
  have hroute : p.route.isDefinite = true := h
  rw [evaluate, p.route.target?_eq, if_pos hroute, hfunction]
  cases (target? p.route.steps d).bind (united? p.route.union) <;> rfl

theorem evaluate_of_not_isDefinite (h : p.isDefinite = false) (d : Json) :
    p.evaluate d =
      .ok (.array ((nodesOf d p.route.steps [d]).filterMap (united? p.route.union))) := by
  have hroute : ¬p.route.isDefinite = true := Bool.eq_false_iff.mp h
  rw [evaluate, p.route.target?_eq, if_neg hroute, hfunction]

end

/-- **Definite or not, a path leads to what its steps select**, which are parts of the document. A
definite path leads to the only part that is selected, and is an error exactly if none is; any other
path leads to the array of all parts that are selected. A union of names at the end of the path is
made of every selected object, and leaves out what is no object. -/
theorem evaluate_of_selection {p : JsonPath} (hfunction : p.route.function = none) (d : Json) :
    (∀ x ∈ nodesOf d p.route.steps [d], IsPartOf x d) ∧
    ∃ found, Gathers p.route.union (nodesOf d p.route.steps [d]) found ∧
      (p.isDefinite = true → found.length ≤ 1 ∧ (∀ v, p.evaluate d = .ok v ↔ found = [v]) ∧
        (p.evaluate d = .error (.noResults p.source) ↔ found = [])) ∧
      (p.isDefinite = false → p.evaluate d = .ok (.array found)) := by
  refine ⟨fun x hx => ?_, _, gathers_united _ _, fun h => ?_,
    fun h => evaluate_of_not_isDefinite hfunction h d⟩
  · obtain ⟨j, hj, hpart⟩ := isPartOf_of_mem_nodesOf hx
    exact List.mem_singleton.mp hj ▸ hpart
  · rw [evaluate_of_isDefinite hfunction h, nodesOf_of_isDefinite h]
    cases target? p.route.steps d with
    | none => simp
    | some x => cases hx : united? p.route.union x <;> simp [hx]

/-- An object and a number, taken through a union that names a member twice and one that the object
does not have. -/
theorem evaluate_of_selection_union :
    let fields : Fields Json := [("b", .int 2), ("c", .int 3), ("a", .int 1)]
    let d : Json := .array [.object fields, .int 5]
    let names := ["a", "d", "b", "a"]
    let p : JsonPath :=
      ⟨"$[*]['a','d','b','a']", .ofSteps [.mk false .wildcard, .mk false (.names names)] none⟩
    p.route.function = none ∧ p.isDefinite = false ∧
      ∃ merged, p.evaluate d = .ok (.array [.object merged]) ∧ IsUnion names fields merged := by
  intro fields d names p
  have hfunction : p.route.function = none := rfl
  have hdefinite : p.isDefinite = false := rfl
  obtain ⟨-, found, hgathers, -, hfound⟩ := evaluate_of_selection hfunction d
  have hselected : nodesOf d p.route.steps [d] = [.object fields, .int 5] := by cbv
  rw [hselected] at hgathers
  obtain ⟨x, hfound', merged, rfl, hunion⟩ : ∃ x, found = [x] ∧ ∃ merged, x = .object merged ∧
      IsUnion names fields merged := by
    rcases hgathers with _ | ⟨hx, hrest⟩
    cases hrest
    exact ⟨_, rfl, hx⟩
  exact ⟨hfunction, hdefinite, merged, hfound' ▸ hfound hdefinite, hunion⟩

end GatewayMapping.JsonPath
