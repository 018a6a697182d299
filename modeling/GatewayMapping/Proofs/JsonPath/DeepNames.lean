import GatewayMapping.Proofs.JsonPath.RoundTrip
import GatewayMapping.Proofs.JsonPath.Selection

/-!
# Deep scans by name

Two dots before a name ask for the members of that name in all objects of a document, at any depth
and the document itself included. They come in document order, the member of an object before those
of the objects inside it. So the places of the objects are in the order of words, and each object
that has such a member gives it once (`find_deepNameText`).

## Main definitions

* `deepNameText`: the path with two dots before a name in quotes.
* `membersNamed`: the members of a name with the places of their objects.

## Main results

* `find_deepNameText`: what a deep scan by name finds.
-/

namespace GatewayMapping.JsonPath

/-- The path to the members of a name at all places. -/
def deepNameText (name : String) : String := "$..[" ++ String.ofList (quotedText name) ++ "]"

/-- The members of a name at all places of a document, with the places of the objects that have
them. -/
def membersNamed (name : String) (d : Json) : List (Place × Json) :=
  (located d).filterMap fun entry => (entry.2.member? name).map fun x => (entry.1, x)

variable {name : String} {d : Json}

/-- A deep scan by name finds a member where an object has it. -/
theorem mem_membersNamed_iff {p : Place} {x : Json} :
    (p, x) ∈ membersNamed name d ↔
      ∃ fields : Fields Json, part? d p = some (.object fields) ∧ fields.get? name = some x := by
  constructor
  · intro h
    obtain ⟨⟨q, j⟩, hj, hx⟩ := List.mem_filterMap.mp h
    obtain ⟨y, hmember, heq⟩ := Option.map_eq_some_iff.mp hx
    cases heq
    obtain ⟨fields, hfields, hget⟩ := Option.bind_eq_some_iff.mp hmember
    cases j with
    | object fields' =>
      cases hfields
      exact ⟨fields, mem_located_iff.mp hj, hget⟩
    | _ => cases hfields
  · rintro ⟨fields, hpart, hget⟩
    refine List.mem_filterMap.mpr ⟨(p, .object fields), mem_located_iff.mpr hpart, ?_⟩
    exact Option.map_eq_some_iff.mpr ⟨x, hget, rfl⟩

theorem membersNamed_ascending (name : String) (d : Json) :
    (membersNamed name d).Pairwise fun a b => a.1 < b.1 := by
  refine (located_ascending d).filterMap _ fun a a' hlt b hb b' hb' => ?_
  obtain ⟨_, -, rfl⟩ := Option.map_eq_some_iff.mp hb
  obtain ⟨_, -, rfl⟩ := Option.map_eq_some_iff.mp hb'
  exact hlt

/-- A step of two dots and a name selects the members of the name. -/
theorem nodes_deepName (root : Json) (name : String) (d : Json) :
    (Step.mk true (.name name)).nodes root d = (membersNamed name d).map (·.2) := by
  have hmembers : (membersNamed name d).map (·.2) =
      (located d).filterMap fun entry => entry.2.member? name := by
    rw [membersNamed, List.map_filterMap]
    refine congrArg (fun f => (located d).filterMap f) (funext fun entry => ?_)
    rw [Option.map_map]
    exact Option.map_id'
  rw [hmembers, Step.nodes, if_pos rfl, ← map_snd_located, List.flatMap_map,
    List.filterMap_eq_flatMap_toList]
  rfl

theorem ofList_pathText_deepName (name : String) :
    String.ofList (pathText [.mk true (.name name)] none) = deepNameText name := by
  apply String.toList_inj.mp
  simp [deepNameText, pathText, stepsText, functionText, Step.text, Selector.text]

/-- **A deep scan by name is sound and complete.** It finds the member of the name in each object of
the document that has one, at any depth, and nothing else: there is one for each place of such an
object, and the places are in document order, each before those below it. -/
theorem find_deepNameText (name : String) (d : Json) :
    ∃ found : List (Place × Json),
      find d (deepNameText name) = .ok (.array (found.map (·.2))) ∧
      (found.Pairwise fun a b => a.1 < b.1) ∧
      ∀ p x, (p, x) ∈ found ↔
        ∃ fields : Fields Json, part? d p = some (.object fields) ∧ fields.get? name = some x := by
  refine ⟨membersNamed name d, ?_, membersNamed_ascending name d, fun p x => mem_membersNamed_iff⟩
  let p : JsonPath := ⟨deepNameText name, .ofSteps [.mk true (.name name)] none⟩
  have hplain : PlainSteps [.mk true (.name name)] := ⟨trivial, trivial⟩
  have hparse : parse (deepNameText name) = .ok p := by
    have h := parse_plainSteps hplain none
    rwa [ofList_pathText_deepName] at h
  have hselected : nodesOf d p.route.steps [d] = (membersNamed name d).map (·.2) := by
    rw [← nodes_deepName d name d]
    exact List.flatMap_singleton ..
  have hevaluate : p.evaluate d =
      .ok (.array ((nodesOf d p.route.steps [d]).filterMap (united? p.route.union))) :=
    evaluate_of_not_isDefinite rfl rfl d
  rw [find, hparse]
  refine hevaluate.trans ?_
  rw [hselected]
  exact congrArg (fun found => Except.ok (Json.array found)) List.filterMap_some

/-- A quote in a name is written with a backslash before it. -/
example : deepNameText "it's" = "$..['it\\'s']" := by decide

end GatewayMapping.JsonPath
