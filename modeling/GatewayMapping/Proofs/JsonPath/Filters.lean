import Mathlib.Data.List.Perm.Subperm
import GatewayMapping.JsonPath.Select

/-!
# What filters select

At an array a filter selects the items of which it holds, and at an object it selects the object
itself. A step from every place below comes by an object in an array twice: at the array, and at
the object. So it selects such an object twice, and everything else once at most
(`evaluate_deepFilter`).

Every place but the document itself is an item of an array or a member of an object below the
document (`descendants_perm`), and counting shows the rest.

## Main definitions

* `filterPath`: the path of one step with a filter.
* `itemsBelow`: the items of all arrays of a document.
* `Filter.selectsAt`: the objects that a filter selects at their own places.

## Main results

* `descendants_perm`: the places of a document by what holds them.
* `evaluate_filterPath`: a filter leads to the array of the places that it selects.
* `evaluate_deepFilter`: the filters that select no place twice.
-/

namespace GatewayMapping.JsonPath

/-! ### Paths of one filter -/

/-- The path that consists of a filter, which may be taken to every place below. -/
def filterPath (source : String) (deep : Bool) (f : Filter) : JsonPath :=
  ⟨source, .ofSteps [.mk deep (.filter f)] none⟩

theorem evaluate_filterPath (source : String) (deep : Bool) (f : Filter) (j : Json) :
    (filterPath source deep f).evaluate j =
      .ok (.array ((Step.mk deep (.filter f)).nodes j j)) := by
  have hroute : (Route.ofSteps [.mk deep (.filter f)] none).target? j j =
      some (.array ((Step.mk deep (.filter f)).nodes j j)) := by
    simp [Route.ofSteps, Route.target?, nodesOf, Step.isDefinite]
  have hfunction : (Route.ofSteps [.mk deep (.filter f)] none).function = none := by
    simp [Route.ofSteps, Route.function]
  rw [evaluate, filterPath]
  simp only [hroute, hfunction]

theorem nodes_filter_array (root : Json) (f : Filter) (items : List Json) :
    (Step.mk false (.filter f)).nodes root (.array items) = items.filter (f.holds root) := by
  simp [Step.nodes, Selector.nodes]

/-- The items of an array are what stands at its positions. -/
theorem map_some_eq_map_range (items : List Json) :
    items.map some = (List.range items.length).map (items[·]?) :=
  List.ext_getElem (by simp) fun i _ _ => by simp

/-! ### The places of a document -/

/-- The items of an array. -/
def itemsAt (j : Json) : List Json := j.items?.getD []

/-- The values of the members of an object. -/
def valuesAt (j : Json) : List Json := (j.fields?.getD []).map (·.2)

/-- What a place holds: items or values of members. -/
def held (j : Json) : List Json := itemsAt j ++ valuesAt j

private theorem cons_append_perm (x : Json) (xs ys zs : List Json) :
    ((x :: ys) ++ (xs ++ zs)).Perm ((x :: xs) ++ (ys ++ zs)) :=
  (List.perm_append_comm_assoc ys xs zs).cons x

mutual

/-- A place below a document is the document itself or is held by such a place. -/
theorem descendants_perm : (j : Json) →
    (descendants j).Perm (j :: (descendants j).flatMap held)
  | .array items => by
      rw [descendants, List.flatMap_cons]
      exact (descendantsOfItems_perm items).cons _
  | .object fields => by
      rw [descendants, List.flatMap_cons]
      exact (descendantsOfMembers_perm fields).cons _
  | .null => .refl _
  | .bool _ => .refl _
  | .int _ => .refl _
  | .float _ => .refl _
  | .string _ => .refl _

theorem descendantsOfItems_perm : (items : List Json) →
    (descendantsOfItems items).Perm
      (held (.array items) ++ (descendantsOfItems items).flatMap held)
  | [] => .refl _
  | x :: xs => by
      rw [descendantsOfItems, List.flatMap_append]
      refine ((descendants_perm x).append (descendantsOfItems_perm xs)).trans ?_
      exact cons_append_perm x _ _ _

theorem descendantsOfMembers_perm : (fields : List (String × Json)) →
    (descendantsOfMembers fields).Perm
      (held (.object fields) ++ (descendantsOfMembers fields).flatMap held)
  | [] => .refl _
  | (_, x) :: fs => by
      rw [descendantsOfMembers, List.flatMap_append]
      refine ((descendants_perm x).append (descendantsOfMembers_perm fs)).trans ?_
      exact cons_append_perm x _ _ _

end

/-- The items of all arrays of a document. -/
def itemsBelow (j : Json) : List Json := (descendants j).flatMap itemsAt

theorem itemsBelow_subperm (j : Json) : (itemsBelow j).Subperm (descendants j) := by
  have hheld : ((descendants j).flatMap held).Perm
      (itemsBelow j ++ (descendants j).flatMap valuesAt) :=
    (List.flatMap_append_perm (descendants j) itemsAt valuesAt).symm
  have hbelow : (itemsBelow j).Subperm ((descendants j).flatMap held) :=
    (List.sublist_append_left _ _).subperm.trans hheld.symm.subperm
  exact (hbelow.trans (List.sublist_cons_self j _).subperm).trans (descendants_perm j).symm.subperm

/-! ### Filters at every place below -/

/-- Whether a document is an object. -/
def isObject (j : Json) : Bool := j.fields?.isSome

/-- Whether a filter selects a place at the place itself. -/
def Filter.selectsAt (root : Json) (f : Filter) (j : Json) : Bool := isObject j && f.holds root j

theorem nodes_filter (root : Json) (f : Filter) (j : Json) :
    (Selector.filter f).nodes root j =
      (itemsAt j).filter (f.holds root) ++ [j].filter (f.selectsAt root) := by
  cases j <;> simp [Selector.nodes, itemsAt, Filter.selectsAt, isObject, Json.items?,
    Json.fields?, List.filter_cons]

/-- A filter at every place below selects the items of arrays at the arrays, and objects at their
own places. -/
theorem nodes_deepFilter_perm (root : Json) (f : Filter) (j : Json) :
    ((Step.mk true (.filter f)).nodes root j).Perm
      ((itemsBelow j).filter (f.holds root) ++ (descendants j).filter (f.selectsAt root)) := by
  have hobjects : (descendants j).filter (f.selectsAt root) =
      (descendants j).flatMap fun x => [x].filter (f.selectsAt root) := by
    rw [← List.filter_flatMap, List.flatMap_singleton']
  rw [Step.nodes, if_pos rfl, funext (nodes_filter root f), itemsBelow, List.filter_flatMap,
    hobjects]
  exact (List.flatMap_append_perm (descendants j) _ _).symm

section

variable {root : Json} {f : Filter} {j : Json}

/-- The objects that are selected at their own places leave no room for objects selected as
items. -/
theorem not_holds_of_nodes_subperm
    (h : ((Step.mk true (.filter f)).nodes root j).Subperm (descendants j)) :
    ∀ x ∈ itemsBelow j, isObject x → ¬f.holds root x := by
  intro x hx hobject hholds
  have hselected : f.selectsAt root x = true := Bool.and_eq_true_iff.mpr ⟨hobject, hholds⟩
  have hitem : x ∈ ((itemsBelow j).filter (f.holds root)).filter (f.selectsAt root) :=
    List.mem_filter.mpr ⟨List.mem_filter.mpr ⟨hx, hholds⟩, hselected⟩
  have hagain : ((descendants j).filter (f.selectsAt root)).filter (f.selectsAt root) =
      (descendants j).filter (f.selectsAt root) :=
    List.filter_eq_self.mpr fun _ hy => (List.mem_filter.mp hy).2
  have hroom := ((nodes_deepFilter_perm root f j).subperm_right.mp h).filter (f.selectsAt root)
  have hlength := hroom.length_le
  rw [List.filter_append, List.length_append, hagain] at hlength
  have := List.length_pos_of_mem hitem
  omega

/-- Where no object is selected as an item, the items are among the places that are no objects, and
the other places that are selected are among the objects. -/
theorem nodes_subperm_of_not_holds (h : ∀ x ∈ itemsBelow j, isObject x → ¬f.holds root x) :
    ((Step.mk true (.filter f)).nodes root j).Subperm (descendants j) := by
  have hothers : ((itemsBelow j).filter (f.holds root)).filter (fun x => !isObject x) =
      (itemsBelow j).filter (f.holds root) := by
    refine List.filter_eq_self.mpr fun x hx => ?_
    obtain ⟨hx, hholds⟩ := List.mem_filter.mp hx
    simpa using fun hobject => h x hx hobject hholds
  have hitems : ((itemsBelow j).filter (f.holds root)).Subperm
      ((descendants j).filter fun x => !isObject x) := by
    rw [← hothers]
    exact (List.filter_sublist.subperm.trans (itemsBelow_subperm j)).filter _
  have hobjects : ((descendants j).filter (f.selectsAt root)).Subperm
      ((descendants j).filter isObject) :=
    (List.monotone_filter_right _ fun x hx => (Bool.and_eq_true_iff.mp hx).1).subperm
  have hparts := List.perm_append_comm.trans (List.filter_append_perm isObject (descendants j))
  exact (nodes_deepFilter_perm root f j).subperm.trans
    ((hitems.append hobjects).trans hparts.subperm)

end

/-- **Filters at every place below select no place twice** exactly if they hold of no object that is
an item of an array: then what they select are places of the document, each as often at most as the
document has it. -/
theorem evaluate_deepFilter (source : String) (f : Filter) (j : Json) :
    ∃ found, (filterPath source true f).evaluate j = .ok (.array found) ∧
      (found.Subperm (descendants j) ↔ ∀ items, .array items ∈ descendants j →
        ∀ fields, .object fields ∈ items → f.holds j (.object fields) = false) := by
  refine ⟨_, evaluate_filterPath source true f j, ?_⟩
  constructor
  · intro h items hitems fields hfields
    have hbelow : .object fields ∈ itemsBelow j := List.mem_flatMap.mpr ⟨_, hitems, hfields⟩
    exact Bool.eq_false_iff.mpr (not_holds_of_nodes_subperm h _ hbelow rfl)
  · intro h
    refine nodes_subperm_of_not_holds fun x hx hobject => ?_
    obtain ⟨place, hplace, hx⟩ := List.mem_flatMap.mp hx
    obtain ⟨items, rfl⟩ : ∃ items, place = .array items := by
      cases place with
      | array items => exact ⟨items, rfl⟩
      | _ => cases hx
    obtain ⟨fields, rfl⟩ : ∃ fields, x = .object fields := by
      cases x with
      | object fields => exact ⟨fields, rfl⟩
      | _ => cases hobject
    exact Bool.eq_false_iff.mp (h items hplace fields hx)

/-- An object in an array is selected at the array, and at its own place. -/
theorem exists_deepFilter_selecting_twice :
    ∃ source f j place, (filterPath source true f).evaluate j = .ok (.array [place, place]) ∧
      ¬[place, place].Subperm (descendants j) := by
  let f : Filter := .present (.path false (.ofSteps [.mk false (.name "a")] none))
  let place : Json := .object [("a", .int 1)]
  have hselected : (Step.mk true (.filter f)).nodes (.array [place]) (.array [place]) =
      [place, place] := by cbv
  refine ⟨"$..[?(@.a)]", f, .array [place], place, ?_, fun h => ?_⟩
  · rw [evaluate_filterPath, hselected]
  · exact absurd (h.filter isObject).length_le (by decide)

end GatewayMapping.JsonPath
