import GatewayMapping.Proofs.Rendering.Loops
import GatewayMapping.Proofs.Rendering.SlotAssignment
import GatewayMapping.Proofs.Value.Closed

/-!
# Joining the items of a list

A loop whose body renders the item of the round, and a comma if another round follows, renders the
items with commas between them (`evaluate_joinSource`). The loop makes a map for every round, which
tells about it. As all references lead to containers that were there before, no such map is a part
of any item, and the items have the texts that they had. The induction over the items carries this:
the containers of the beginning are as they were, and no variable but those of the loop has another
value.

## Main definitions

* `joinSource`: the source of the loop.
* `Render.RoundBegins`: the state at the beginning of a round.

## Main results

* `Render.exists_loop`: a loop renders what its rounds do and leaves its own variables as before.
* `evaluate_joinSource`: what the source renders.
-/

namespace GatewayMapping.Template

open Heap (Closed Extends)

namespace Render

variable {st st' : State} {x : String}

/-! ### Rounds -/

/-- The variables of a round are bound, and everything else is as before. -/
structure RoundBegins (x : String) (item : Value) (isLast : Bool) (st st' : State) : Prop where
  grows : st.heap.Extends st'.heap
  item : st'.scope.get? x = some item
  hasNext : ∃ round : Container, st'.scope.get? roundName = some round.value ∧
    st'.heap.Fits round (.key "hasNext") ∧
    st'.heap.at? round (.key "hasNext") = some (.bool !isLast)
  others : ∀ y ∉ loopNames x, st'.scope.get? y = st.scope.get? y

/-- What the variable that tells about a round refers to. -/
def roundMembers (index : Nat) (isLast : Bool) : OrderedMap Value :=
  .ofList [("index", .int (.ofNat index)), ("count", .int (.ofNat (index + 1))),
    ("hasNext", .bool !isLast), ("first", .bool (index = 0)), ("last", .bool isLast)]

theorem exists_beginRound (hx : ¬IsRoundVariable x) (index : Nat) (item : Value) (isLast : Bool)
    (st : State) : ∃ st', Succeeds (beginRound x index item isLast) st () st' ∧
      RoundBegins x item isLast st st' := by
  obtain ⟨hround, hcounter⟩ := not_or.mp hx
  have hnames : counterName ≠ roundName := by decide
  have hbegin : Succeeds (beginRound x index item isLast) st ()
      ⟨(st.heap.newMap (roundMembers index isLast)).2,
        ((st.scope.insert x item).insert roundName (.map ⟨st.heap.maps.size⟩)).insert counterName
          (.int (.ofNat (index + 1)))⟩ := rfl
  refine ⟨_, hbegin, .newMap _ _, ?_, ⟨.map ⟨st.heap.maps.size⟩, ?_, ?_, ?_⟩, fun y hy => ?_⟩
  · simp only [OrderedMap.get?_insert, if_neg (Ne.symm hcounter), if_neg (Ne.symm hround), if_true]
  · simp only [OrderedMap.get?_insert, if_neg hnames, if_true]
    rfl
  · exact .key (by simp [Heap.newMap])
  · rw [Heap.at?, Heap.members_newMap]
    rfl
  · simp only [loopNames, List.mem_cons, List.not_mem_nil, or_false, not_or] at hy
    obtain ⟨hxy, hround, hcounter⟩ := hy
    simp only [OrderedMap.get?_insert, if_neg (Ne.symm hcounter), if_neg (Ne.symm hround),
      if_neg (Ne.symm hxy)]

/-! ### Loops -/

theorem exists_takeAll (names : List String) (st : State) : ∃ saved st',
    Succeeds (takeAll names) st saved st' ∧ st'.heap = st.heap ∧
      ∀ y ∉ names, st'.scope.get? y = st.scope.get? y := by
  induction names generalizing st with
  | nil => exact ⟨_, _, rfl, rfl, fun _ _ => rfl⟩
  | cons name names ih =>
    obtain ⟨saved, st', htake, hheap, hget⟩ := ih { st with scope := st.scope.erase name }
    refine ⟨(name, st.scope.get? name) :: saved, st', ?_, hheap, fun y hy => ?_⟩
    · exact succeeds_bind_iff.mpr ⟨_, _, rfl, succeeds_bind_iff.mpr ⟨_, _, rfl,
        succeeds_bind_iff.mpr ⟨_, _, htake, rfl⟩⟩⟩
    · obtain ⟨hne, hy⟩ := not_or.mp (mt List.mem_cons.mpr hy)
      rw [hget y hy, OrderedMap.get?_erase, if_neg (Ne.symm hne)]

theorem exists_restoreAll (saved : List (String × Option Value)) (st : State) :
    ∃ st', Succeeds (restoreAll saved) st () st' ∧ st'.heap = st.heap := by
  induction saved generalizing st with
  | nil => exact ⟨_, rfl, rfl⟩
  | cons entry saved ih =>
    obtain ⟨name, v?⟩ := entry
    obtain ⟨st₁, hrestore, hheap₁⟩ : ∃ st₁, Succeeds (restore name v?) st () st₁ ∧
        st₁.heap = st.heap := by
      cases v? <;> exact ⟨_, rfl, rfl⟩
    obtain ⟨st', hrest, hheap⟩ := ih st₁
    exact ⟨st', succeeds_bind_iff.mpr ⟨_, _, hrestore, hrest⟩, hheap.trans hheap₁⟩

/-- A loop over a list renders what its rounds render. Its own variables are found as before. -/
theorem exists_loop (hx : ¬IsRoundVariable x) {ref : ListRef} {body : Render Output} {o : Output}
    (hrounds : ∀ st₁ : State, st₁.heap = st.heap → ∃ st₂,
      Succeeds (rounds x body 0 (st.heap.items ref)) st₁ o st₂ ∧ st.heap.Extends st₂.heap ∧
        ∀ y ∉ loopNames x, st₂.scope.get? y = st₁.scope.get? y) :
    ∃ st', Succeeds (loop x (.list ref) body) st o st' ∧ st.heap.Extends st'.heap ∧
      ∀ y, st'.scope.get? y = st.scope.get? y := by
  obtain ⟨saved, st₁, htake, hheap₁, hget₁⟩ := exists_takeAll (loopNames x) st
  obtain ⟨st₂, hrun, hgrows, hget₂⟩ := hrounds st₁ hheap₁
  obtain ⟨st', hrestore, hheap'⟩ := exists_restoreAll saved st₂
  have hloop : Succeeds (loop x (.list ref) body) st o st' :=
    succeeds_bind_iff.mpr ⟨_, _, rfl, succeeds_bind_iff.mpr ⟨_, _, htake,
      succeeds_bind_iff.mpr ⟨_, _, hrun, succeeds_bind_iff.mpr ⟨_, _, hrestore, rfl⟩⟩⟩⟩
  refine ⟨st', hloop, hheap' ▸ hgrows, fun y => ?_⟩
  by_cases hy : y ∈ loopNames x
  · have hlist : (Value.list ref).IsCollection := trivial
    rw [get?_of_loop_succeeds hlist hloop hy, if_neg fun h => hx h.2]
  · rw [get?_of_takeAll_of_restoreAll htake hrestore, if_pos (List.count_eq_zero.mpr hy),
      hget₂ y hy, hget₁ y hy]

/-! ### Nodes -/

variable {scene : Scene}

/-- A reference renders the text of its value. -/
theorem succeeds_node_reference {r : Reference} {v : Value}
    (hr : Succeeds (reference scene r) st v st') (hv : v ≠ .null) :
    Succeeds (node scene (.reference r)) st (.ofText (st'.heap.text v)) st' := by
  refine succeeds_bind_iff.mpr ⟨v, st', hr, ?_⟩
  cases v with
  | null => exact absurd rfl hv
  | _ => exact succeeds_bind_iff.mpr ⟨_, _, rfl, rfl⟩

theorem succeeds_nodes_nil (st : State) : Succeeds (nodes scene []) st (.ofText "") st := rfl

/-- The texts of nodes follow one another. -/
theorem succeeds_nodes_cons {n : Node} {ns : List Node} {s t : String} {st'' : State}
    (hn : Succeeds (node scene n) st (.ofText s) st')
    (hns : Succeeds (nodes scene ns) st' (.ofText t) st'') :
    Succeeds (nodes scene (n :: ns)) st (.ofText (s ++ t)) st'' :=
  succeeds_bind_iff.mpr ⟨_, _, hn, succeeds_bind_iff.mpr ⟨_, _, hns, rfl⟩⟩

/-- A condition that is a reference with a path holds if its value is true. -/
theorem succeeds_holds_path {name l : String} {sg : Segment} {b : Bool} {p : Position}
    (hr : Succeeds (reference scene (.mk name [sg] false l p)) st (.bool b) st') :
    Succeeds (condition scene (.reference (.mk name [sg] false l p))) st b st' := by
  refine succeeds_bind_iff.mpr ⟨_, _, hr, ?_⟩
  cases b <;> rfl

end Render

/-- The source of the loop. -/
def joinSource : String := "#foreach($x in $l)$x#if($foreach.hasNext),#end#end"

/-- The body of the loop: the item, and a comma unless it is the last one. -/
def joinBody : List Node :=
  [.reference (.mk "x" [] false "$x" ⟨1, 19⟩),
    .conditional [(.reference (.mk Render.roundName [.property "hasNext"] false "$foreach.hasNext"
      ⟨1, 25⟩), [.text ","])] none ⟨1, 21⟩]

theorem parse_joinSource : parse joinSource =
    .ok [.forEach "x" (.reference (.mk "l" [] false "$l" ⟨1, 16⟩)) joinBody ⟨1, 1⟩] := by
  cbv

namespace Render

variable {st : State} {scene : Scene}

/-- The body renders the item of the round. -/
theorem succeeds_joinBody {item : Value} {isLast : Bool} {before : State} (hitem : item ≠ .null)
    (hst : RoundBegins "x" item isLast before st) :
    Succeeds (nodes scene joinBody) st
      (.ofText (st.heap.text item ++ if isLast then "" else ",")) st := by
  obtain ⟨round, hround, hfits, hnext⟩ := hst.hasNext
  have hcomma : Succeeds (node scene (.conditional [(.reference (.mk roundName
      [.property "hasNext"] false "$foreach.hasNext" ⟨1, 25⟩), [.text ","])] none ⟨1, 21⟩)) st
      (.ofText (if isLast then "" else ",")) st := by
    refine succeeds_bind_iff.mpr
      ⟨_, _, succeeds_holds_path (succeeds_gets (.path .property _ _) hround hfits hnext), ?_⟩
    cases isLast <;> rfl
  have hown : Succeeds (node scene (.reference (.mk "x" [] false "$x" ⟨1, 19⟩))) st
      (.ofText (st.heap.text item)) st :=
    succeeds_node_reference (succeeds_variable hst.item) hitem
  have hrest := succeeds_nodes_cons hcomma (succeeds_nodes_nil st)
  rw [String.append_empty] at hrest
  exact succeeds_nodes_cons hown hrest

/-- **Rounds join the items.** -/
theorem exists_rounds_joinBody (scene : Scene) {h : Heap} (hh : h.Closed) {items : List Value}
    (hnull : ∀ v ∈ items, v ≠ .null) (hitems : ∀ v ∈ items, v.Within h) (index : Nat)
    (hgrows : h.Extends st.heap) : ∃ st',
      Succeeds (rounds "x" (nodes scene joinBody) index items) st
        (.ofText (",".intercalate (items.map h.text))) st' ∧
      h.Extends st'.heap ∧ ∀ y ∉ loopNames "x", st'.scope.get? y = st.scope.get? y := by
  induction items generalizing index st with
  | nil => exact ⟨_, rfl, hgrows, fun _ _ => rfl⟩
  | cons item items ih =>
    obtain ⟨hitem, hitems⟩ := List.forall_mem_cons.mp hitems
    obtain ⟨hnull, hnulls⟩ := List.forall_mem_cons.mp hnull
    obtain ⟨st₁, hbegin, hround⟩ :=
      exists_beginRound (x := "x") (by decide) index item items.isEmpty st
    have hgrows₁ := hgrows.trans hround.grows
    obtain ⟨st', hrest, hgrows', hget⟩ := ih hnulls hitems (index + 1) hgrows₁
    refine ⟨st', ?_, hgrows', fun y hy => (hget y hy).trans (hround.others y hy)⟩
    have hbody : Succeeds (nodes scene joinBody) st₁
        (.ofText (h.text item ++ if items.isEmpty then "" else ",")) st₁ := by
      rw [← Heap.text_of_extends hh hgrows₁ hitem]
      exact succeeds_joinBody hnull hround
    have htext : h.text item ++ (if items.isEmpty then "" else ",") ++
        ",".intercalate (items.map h.text) = ",".intercalate ((item :: items).map h.text) := by
      cases items with
      | nil => simp
      | cons => simp [String.append_assoc]
    rw [rounds, ← htext]
    exact succeeds_bind_iff.mpr ⟨_, _, hbegin, succeeds_bind_iff.mpr ⟨_, _, hbody,
      succeeds_bind_iff.mpr ⟨_, _, hrest, rfl⟩⟩⟩

end Render

/-- **The items of a list are joined with commas.** -/
theorem evaluate_joinSource (config : Config) (hosts : Hosts) (template : String) {st : State}
    {ref : ListRef} (hl : st.scope.get? "l" = some (.list ref))
    (hnull : ∀ v ∈ st.heap.items ref, v ≠ .null) (hclosed : st.heap.Closed) :
    ∃ st', (evaluate config hosts template joinSource).run.run st =
        (.ok (",".intercalate ((st.heap.items ref).map st.heap.text)), st') ∧
      (∀ y, st'.scope.get? y = st.scope.get? y) ∧ st.heap.Extends st'.heap := by
  obtain ⟨scene, hscene⟩ := exists_scene_of_evaluate config hosts template
  have hrounds (st₁ : State) (hheap : st₁.heap = st.heap) :=
    Render.exists_rounds_joinBody scene hclosed hnull (hclosed.items ref) 0
      (hheap ▸ .refl st.heap : st.heap.Extends st₁.heap)
  obtain ⟨st', hloop, hgrows, hget⟩ := Render.exists_loop (x := "x") (by decide) hrounds
  have hnode : Render.Succeeds (Render.node scene
      (.forEach "x" (.reference (.mk "l" [] false "$l" ⟨1, 16⟩)) joinBody ⟨1, 1⟩)) st
      (.ofText (",".intercalate ((st.heap.items ref).map st.heap.text))) st' :=
    Render.succeeds_bind_iff.mpr ⟨_, _, Render.succeeds_variable hl, hloop⟩
  exact ⟨st', hscene parse_joinSource hnode, hget, hgrows⟩

/-- A list that holds itself and a map that does, and variables of the loop that were bound. -/
theorem evaluate_joinSource_cyclic :
    let m : Value := .map ⟨0⟩
    let l : Value := .list ⟨0⟩
    let st : State := ⟨⟨#[[.int 1, m, l, .string "a,b"]], #[.ofList [("m", m), ("k", .null)]]⟩,
      .ofList [("l", l), ("x", .bool true), ("velocityCount", .null)]⟩
    let shown := "\x7bm=(this Map), k=null\x7d"
    st.scope.get? "l" = some l ∧ (∀ v ∈ st.heap.items ⟨0⟩, v ≠ .null) ∧ st.heap.Closed ∧
    ∃ st', (evaluate {} [] "t" joinSource).run.run st =
        (.ok ("1," ++ shown ++ ",[1, " ++ shown ++ ", (this Collection), a,b],a,b"), st') ∧
      (∀ y, st'.scope.get? y = st.scope.get? y) ∧ st.heap.Extends st'.heap := by
  intro m l st shown
  have hnull : ∀ v ∈ st.heap.items ⟨0⟩, v ≠ .null := by decide
  have hclosed : st.heap.Closed := by decide
  have htexts : ",".intercalate ((st.heap.items ⟨0⟩).map st.heap.text) =
      "1," ++ shown ++ ",[1, " ++ shown ++ ", (this Collection), a,b],a,b" := by
    decide +kernel
  have hjoined := evaluate_joinSource {} [] "t" (rfl : st.scope.get? "l" = some (.list ⟨0⟩))
    hnull hclosed
  rw [htexts] at hjoined
  exact ⟨rfl, hnull, hclosed, hjoined⟩

end GatewayMapping.Template
